import Dartlet.Host.Standard
import Dartlet.Proofs.Evaluation.Invocations

/-!
# Members that fail

The members of collections check all that they are given before they change anything. So a member that fails has changed
no collection, unless it has called a function: one that it was given, or the value of a getter whose name was called.
-/

namespace Dartlet

open Dartlet.Action

set_option linter.unusedSectionVars false

section

variable [Host]

/-! ### Actions that change the store last -/

namespace Action

variable {α β : Type} {x : Action α}

theorem Inspects.changesLast (h : Inspects x) : ChangesLast x := by
  intro s
  have hx := h s
  generalize x s = o at hx
  cases hx with
  | done => exact .done trivial
  | raised ordinary => exact .raised ordinary
  | escaped f => exact .escaped f

/-- What only looks may come before what changes the store last. -/
theorem Inspects.then {f : α → Action β} (hx : Inspects x) (hf : ∀ a, ChangesLast (f a)) : ChangesLast (x >>= f) :=
  fun s => bind_failsIn hx fun a => hf a s

theorem changesLast_modify (f : Store → Store) (a : α) : ChangesLast (modify f >>= fun _ => pure a) :=
  fun _ => .done trivial

theorem changesLast_update (f : Store → α × Store) : ChangesLast (update f) := fun _ => .done trivial

theorem ChangesLast.ite {p : Prop} [Decidable p] {y : Action α} (hx : ChangesLast x) (hy : ChangesLast y) :
    ChangesLast (if p then x else y) := by
  split
  · exact hx
  · exact hy

end Action

/-! ### Members that call no functions -/

/-- Whether a method takes a function, which it calls. -/
def Method.takesFunction : Method → Bool
  | .sequence .map | .sequence .where_ | .sequence .forEach | .sequence .any | .sequence .every | .sequence .fold
  | .sequence .reduce | .list .sort | .map .putIfAbsent | .map .forEach | .type .generate => true
  | _ => false

/-- Whether a value is a collection. -/
def Value.isCollection : Value → Bool
  | .list _ | .iterable _ | .set _ | .map _ => true
  | _ => false

section Members

variable {c : Caller} {a : Address} {source receiver : Value} {arguments : List Value}

theorem SequenceMethod.run_changesLast {m : SequenceMethod} (hm : (Method.sequence m).takesFunction = false) :
    ChangesLast (m.run c source arguments) := by
  cases m with
  | contains => exact (inspects_itemsOf source).then fun _ => (inspects_pure _).changesLast
  | elementAt =>
    refine (inspects_itemsOf source).then fun _ => (inspects_intArgument _ _).then fun _ => ?_
    exact (inspects_checkIndex _ _).then fun _ => (inspects_pure _).changesLast
  | join =>
    have hrest (separator : String) : ChangesLast (do
        let items ← itemsOf source
        let texts ← textsOf items
        pure (Value.string (separator.intercalate texts))) :=
      (inspects_itemsOf source).then fun _ => (inspects_textsOf _).then fun _ => (inspects_pure _).changesLast
    simp only [run]
    split
    · exact (inspects_stringArgument _ _).then hrest
    · exact (inspects_pure _).then hrest
  | skip =>
    exact (inspects_itemsOf source).then fun _ => (inspects_intArgument _ _).then fun _ => changesLast_update _
  | take =>
    exact (inspects_itemsOf source).then fun _ => (inspects_intArgument _ _).then fun _ => changesLast_update _
  | toList => exact (inspects_itemsOf source).then fun _ => changesLast_update _
  | toSet => exact (inspects_itemsOf source).then fun _ => changesLast_update _
  | _ => cases hm

theorem ListMethod.run_changesLast {m : ListMethod} (hm : (Method.list m).takesFunction = false) :
    ChangesLast (m.run c a arguments) := by
  cases m with
  | getAt =>
    refine (inspects_intArgument _ _).then fun _ => inspects_get.then fun _ => ?_
    exact (inspects_checkIndex _ _).then fun _ => (inspects_pure _).changesLast
  | setAt =>
    refine (inspects_intArgument _ _).then fun _ => inspects_get.then fun _ => ?_
    exact (inspects_checkIndex _ _).then fun _ => changesLast_modify _ _
  | add => exact changesLast_modify _ _
  | addAll => exact (inspects_itemsOf _).then fun _ => changesLast_modify _ _
  | insert =>
    refine (inspects_intArgument _ _).then fun _ => inspects_get.then fun _ => ?_
    exact (inspects_checkRange _ _ _).then fun _ => changesLast_modify _ _
  | remove =>
    refine inspects_get.then fun store => ?_
    dsimp only
    split
    · exact changesLast_modify _ _
    · exact (inspects_pure _).changesLast
  | removeAt =>
    refine (inspects_intArgument _ _).then fun _ => inspects_get.then fun _ => ?_
    exact (inspects_checkIndex _ _).then fun _ => changesLast_modify _ _
  | removeLast =>
    refine inspects_get.then fun store => ?_
    dsimp only
    split
    · exact changesLast_modify _ _
    · exact (inspects_escape _).changesLast
  | clear => exact changesLast_modify _ _
  | indexOf => exact inspects_get.then fun _ => (inspects_pure _).changesLast
  | sublist =>
    refine inspects_get.then fun _ => (inspects_intArgument _ _).then fun _ => ?_
    refine (inspects_stopArgument _ _ _).then fun _ => ?_
    exact (inspects_checkRange _ _ _).then fun _ => changesLast_update _
  | sort => cases hm

theorem SetMethod.run_changesLast (m : SetMethod) : ChangesLast (m.run a arguments) := by
  cases m with
  | add => exact inspects_get.then fun _ => (inspects_pure _).changesLast.ite (changesLast_modify _ _)
  | remove => exact inspects_get.then fun _ => (changesLast_modify _ _).ite (inspects_pure _).changesLast
  | clear => exact changesLast_modify _ _

theorem MapMethod.run_changesLast {m : MapMethod} (hm : (Method.map m).takesFunction = false) :
    ChangesLast (m.run c a arguments) := by
  cases m with
  | getAt => exact inspects_get.then fun _ => (inspects_pure _).changesLast
  | setAt => exact changesLast_modify _ _
  | containsKey => exact inspects_get.then fun _ => (inspects_pure _).changesLast
  | containsValue => exact inspects_get.then fun _ => (inspects_pure _).changesLast
  | remove => exact inspects_get.then fun _ => changesLast_modify _ _
  | addAll =>
    simp only [run]
    cases argument arguments 0 with
    | map b => exact changesLast_modify _ _
    | _ => exact (inspects_complaint fun _ => rfl).changesLast
  | clear => exact changesLast_modify _ _
  | _ => cases hm

/-- A method of a collection that takes no function changes the store last. -/
theorem Method.run_changesLast {m : Method} (hreceiver : receiver.isCollection = true) (hm : m.takesFunction = false) :
    ChangesLast (m.run c receiver arguments) := by
  have hnone : ChangesLast (pure Value.null) := (inspects_pure _).changesLast
  cases m with
  | sequence m => exact m.run_changesLast hm
  | list m =>
    cases receiver with
    | list a => exact m.run_changesLast hm
    | _ => exact hnone
  | set m =>
    cases receiver with
    | set a => exact m.run_changesLast
    | _ => exact hnone
  | map m =>
    cases receiver with
    | map a => exact m.run_changesLast hm
    | _ => exact hnone
  | text m =>
    cases receiver with
    | string _ => cases hreceiver
    | _ => exact hnone
  | number m =>
    cases receiver with
    | int _ | double _ => cases hreceiver
    | _ => exact hnone
  | type m =>
    cases receiver with
    | type _ => cases hreceiver
    | _ => exact hnone

end Members

/-! ### Collections that are kept -/

/-- Every collection of one store is in another one and holds the same there. -/
structure Store.KeepsCollections (s t : Store) : Prop where
  lists : ∀ (a : Address) items, s.lists[a]? = some items → t.lists[a]? = some items
  iterables : ∀ (a : Address) items, s.iterables[a]? = some items → t.iterables[a]? = some items
  sets : ∀ (a : Address) members, s.sets[a]? = some members → t.sets[a]? = some members
  maps : ∀ (a : Address) entries, s.maps[a]? = some entries → t.maps[a]? = some entries

namespace Store.KeepsCollections

variable {s t u : Store}

theorem of_same (hlists : t.lists = s.lists) (hiterables : t.iterables = s.iterables) (hsets : t.sets = s.sets)
    (hmaps : t.maps = s.maps) : s.KeepsCollections t :=
  ⟨fun _ _ h => hlists ▸ h, fun _ _ h => hiterables ▸ h, fun _ _ h => hsets ▸ h, fun _ _ h => hmaps ▸ h⟩

theorem refl (s : Store) : s.KeepsCollections s := of_same rfl rfl rfl rfl

theorem trans (h : s.KeepsCollections t) (h' : t.KeepsCollections u) : s.KeepsCollections u where
  lists a items ha := h'.lists a items (h.lists a items ha)
  iterables a items ha := h'.iterables a items (h.iterables a items ha)
  sets a members ha := h'.sets a members (h.sets a members ha)
  maps a entries ha := h'.maps a entries (h.maps a entries ha)

theorem addIterable (s : Store) (items : List Value) : s.KeepsCollections (s.addIterable items).2 where
  lists _ _ h := h
  iterables a found ha := by
    obtain ⟨hsize, -⟩ := Array.getElem?_eq_some_iff.mp ha
    exact (Array.getElem?_push_lt hsize).trans ((Array.getElem?_eq_getElem hsize).symm.trans ha)
  sets _ _ h := h
  maps _ _ h := h

end Store.KeepsCollections

namespace Outcome.FailsIn

variable {α : Type} {s t : Store} {P : Store → Prop} {o : Outcome α}

/-- What fails in the store in which it begins keeps all collections. -/
theorem keepsCollections {f : Failure} (h : (f.outcome t : Outcome α).FailsIn s P) : s.KeepsCollections t := by
  cases f with
  | raised e =>
    cases h with
    | raised => exact .of_same rfl rfl rfl rfl
  | escaped f =>
    cases h with
    | escaped => exact .refl s

theorem of_done {a : α} (h : (Outcome.done a t).FailsIn s P) : P t := by
  cases h with
  | done left => exact left

theorem delegate {x : Action α} (h : (x s).FailsIn s P) : (Action.delegate x s).FailsIn s P := by
  rw [delegate_apply]
  generalize x s = o at h
  cases h with
  | done left => exact .done left
  | raised ordinary => exact .raised ordinary
  | escaped f =>
    cases f with
    | endlessNesting => exact .escaped _
    | _ => exact .raised rfl

end Outcome.FailsIn

section Getters

variable {s : Store} {source receiver : Value}

theorem SequenceGetter.read_failsIn (g : SequenceGetter) : (g.read source s).FailsIn s s.KeepsCollections := by
  refine bind_failsIn (inspects_itemsOf source) fun items => ?_
  cases g with
  | first =>
    cases items with
    | nil => exact .escaped _
    | cons item rest => exact .done (.refl s)
  | last =>
    dsimp only
    cases items.getLast? with
    | none => exact .escaped _
    | some item => exact .done (.refl s)
  | _ => exact .done (.refl s)

theorem MapGetter.read_failsIn (a : Address) (g : MapGetter) : (g.read a s).FailsIn s s.KeepsCollections := by
  refine bind_failsIn inspects_get fun store => ?_
  cases g with
  | keys => exact .done (.addIterable s _)
  | values => exact .done (.addIterable s _)
  | _ => exact .done (.refl s)

/-- Reading a getter of a collection keeps all collections. -/
theorem Getter.read_failsIn (hreceiver : receiver.isCollection = true) (g : Getter) :
    (g.read receiver s).FailsIn s s.KeepsCollections := by
  have hnone : ((pure Value.null : Action Value) s).FailsIn s s.KeepsCollections := .done (.refl s)
  cases g with
  | sequence g => exact g.read_failsIn
  | reversed =>
    cases receiver with
    | list a => exact .done (.addIterable s _)
    | _ => exact hnone
  | map g =>
    cases receiver with
    | map a => exact g.read_failsIn a
    | _ => exact hnone
  | text g =>
    cases receiver with
    | string _ => cases hreceiver
    | _ => exact hnone
  | number g =>
    cases receiver with
    | int _ | double _ => cases hreceiver
    | _ => exact hnone
  | type g =>
    cases receiver with
    | type _ => cases hreceiver
    | _ => exact hnone

end Getters

/-! ### Failures -/

section Failures

variable {receiver : Value} {name : String} {depth : Nat} {arguments : List Value} {s t : Store} {f : Failure}

theorem isHostObject_of_isCollection (h : receiver.isCollection = true) : receiver.isHostObject = false := by
  cases receiver with
  | object _ | error _ => cases h
  | _ => rfl

/-- Reading a member of a collection keeps all collections. -/
theorem getMember_failsIn (hreceiver : receiver.isCollection = true) :
    (getMember receiver name s).FailsIn s s.KeepsCollections := by
  rw [getMember_ordinary (isHostObject_of_isCollection hreceiver), Comparison.ordinaryMember]
  cases Getter.find? receiver name with
  | some g => exact (g.read_failsIn hreceiver).delegate
  | none =>
    cases Method.find? receiver name with
    | some m => exact .done (.of_same rfl rfl rfl rfl)
    | none => exact .raised rfl

/-- A method of a collection that takes no function is called. -/
theorem callHost_failsIn {e : Engine} {m : Method} (hreceiver : receiver.isCollection = true)
    (hm : m.takesFunction = false) :
    (callHost e depth (fun c => m.run c receiver arguments) s).FailsIn s (fun _ => True) := by
  unfold callHost
  split
  · exact .escaped _
  · exact (Method.run_changesLast hreceiver hm s).delegate

/-- What is no function cannot be called. -/
theorem callValue_failsIn {e : Engine} {function : Value} (hfunction : function.isFunction = false) :
    (callValue e depth function arguments s).FailsIn s (fun _ => True) := by
  have hcomplaint (v : Value) : ChangesLast (notFunction v) :=
    (inspects_textOf v).then fun _ => (inspects_complaint fun _ => rfl).changesLast
  cases function with
  | closure _ | native _ => cases hfunction
  | _ => exact hcomplaint _ s

/-- What fails in the store in which it begins, whatever the levels. -/
theorem EndsWith.keepsCollections {α : Type} {F : Engine → Action α} {P : Store → Prop}
    (h : EndsWith F s (f.outcome t)) (hF : ∀ e, (F e s).FailsIn s P) : s.KeepsCollections t := by
  obtain ⟨-, level, hlevel⟩ := h
  exact (hlevel ▸ hF (interpreter level)).keepsCollections

/-- The name of a getter is called: the getter is read, and what it yields is called. -/
theorem Invokes.of_getter {g : Getter} (hreceiver : receiver.isCollection = true)
    (hmethod : Method.find? receiver name = none) (hg : Getter.find? receiver name = some g)
    (htext : (name == "toString" && arguments.isEmpty) = false)
    (h : Invokes depth receiver name arguments s (f.outcome t)) :
    s.KeepsCollections t ∨ ∃ function u, g.read receiver s = .done function u ∧ function.isFunction = true ∧
      s.KeepsCollections u ∧ Calls depth function arguments u (f.outcome t) := by
  have hform (e : Engine) : invokeMember e depth receiver name arguments =
      delegate (g.read receiver) >>= fun function => e.call depth function arguments := by
    rw [invokeMember_ordinary (isHostObject_of_isCollection hreceiver), Comparison.invokeOrdinary, hmethod, htext, hg]
    rfl
  simp only [Invokes, hform] at h
  have hread := (g.read_failsIn hreceiver).delegate (s := s)
  rcases (EndsWith.bind_iff (.const _) fun function => .call depth function arguments).mp h with
    ⟨function, u, hfirst, hcall⟩ | ⟨f', t', hfirst, heq⟩
  · obtain ⟨hfirst, -⟩ := EndsWith.const_iff.mp hfirst
    rw [hfirst] at hread
    rw [delegate_apply] at hfirst
    cases hfunction : function.isFunction with
    | true => exact .inr ⟨function, u, Outcome.delegated_eq_done_iff.mp hfirst, hfunction, hread.of_done, hcall⟩
    | false =>
      exact .inl (hread.of_done.trans ((calls_iff.mp hcall).keepsCollections fun _ => callValue_failsIn hfunction))
  · obtain ⟨rfl, rfl⟩ := Failure.outcome_inj heq
    obtain ⟨hfirst, -⟩ := EndsWith.const_iff.mp hfirst
    exact .inl (hfirst ▸ hread).keepsCollections

/-- A member of a collection that fails, other than one that takes a function, has left every collection as it was,
whether it was read, assigned, called, or taken as a function and called later. Only where the name of a getter is called
and the getter yields a function, that function has been called, and until its call all collections have stayed as they
were. -/
theorem failed_members_change_no_collection (hreceiver : receiver.isCollection = true)
    (hname : ∀ m, Method.find? receiver name = some m → m.takesFunction = false) :
    (getMember receiver name s = f.outcome t → s.KeepsCollections t) ∧
      (∀ v, setMember receiver name v s = f.outcome t → s.KeepsCollections t) ∧
      (Invokes depth receiver name arguments s (f.outcome t) → s.KeepsCollections t ∨
        ∃ g function u, Method.find? receiver name = none ∧ Getter.find? receiver name = some g ∧
          g.read receiver s = .done function u ∧ function.isFunction = true ∧ s.KeepsCollections u ∧
          Calls depth function arguments u (f.outcome t)) ∧
      ∀ {a m}, Method.find? receiver name = some m → s.natives[a]? = some ⟨name, .bound receiver m⟩ →
        Calls depth (.native a) arguments s (f.outcome t) → s.KeepsCollections t := by
  have hobject := isHostObject_of_isCollection hreceiver
  refine ⟨fun hget => (hget ▸ getMember_failsIn hreceiver).keepsCollections, fun v hset => ?assigned, fun hcall => ?called,
    fun {a m} hm ha hcall => ?tornOff⟩
  case assigned =>
    have hmember : (setMember receiver name v s).FailsIn s (fun _ => True) := by
      cases receiver with
      | object _ | error _ => cases hreceiver
      | _ => exact .raised rfl
    exact (hset ▸ hmember).keepsCollections
  case called =>
    cases hm : Method.find? receiver name with
    | some m =>
      refine .inl (hcall.keepsCollections (P := fun _ => True) fun e => ?_)
      rw [invokeMember_method hobject hm]
      exact bind_failsIn (inspects_checkArity _ _ _) fun _ => callHost_failsIn hreceiver (hname m hm)
    | none =>
      have hform (e : Engine) : invokeMember e depth receiver name arguments =
          Comparison.invokeOrdinary e depth receiver name arguments := invokeMember_ordinary hobject
      cases htext : (name == "toString" && arguments.isEmpty) with
      | true =>
        refine .inl (hcall.keepsCollections (P := fun _ => True) fun e => ?_)
        rw [hform, Comparison.invokeOrdinary, hm, htext]
        exact bind_failsIn (inspects_textOf receiver) fun _ => .done trivial
      | false =>
        cases hg : Getter.find? receiver name with
        | some g =>
          rcases Invokes.of_getter hreceiver hm hg htext hcall with hkeeps | ⟨function, u, hread⟩
          · exact .inl hkeeps
          · exact .inr ⟨g, function, u, rfl, rfl, hread⟩
        | none =>
          refine .inl (hcall.keepsCollections (P := fun _ => True) fun e => ?_)
          rw [hform, Comparison.invokeOrdinary, hm, htext, hg]
          exact .raised rfl
  case tornOff =>
    refine (calls_iff.mp hcall).keepsCollections (P := fun _ => True) fun e => ?_
    rw [callValue_bound ha]
    exact bind_failsIn (inspects_checkArity _ _ _) fun _ => callHost_failsIn hreceiver (hname m hm)

end Failures

end

/-- Inserting far beyond the end of a list. -/
theorem failed_members_change_no_collection_beyond_end :
    let s : Store := { lists := #[#[.null]] }
    let t : Store := (s.addError (.host (.outsideRange 0 1 5))).2
    Invokes 0 (.list 0) "insert" [.int 5, .null] s (.raised 0 t) ∧ s.KeepsCollections t := by
  intro s t
  have hcall : Invokes 0 (.list 0) "insert" [.int 5, .null] s (.raised 0 t) := ⟨nofun, 0, by subst t s; rfl⟩
  have hname : ∀ m, Method.find? (.list 0) "insert" = some m → m.takesFunction = false := by
    rintro m ⟨⟩
    rfl
  have hkept : Invokes 0 (.list 0) "insert" [.int 5, .null] s ((Failure.raised 0).outcome t) → s.KeepsCollections t ∨
      ∃ g function u, Method.find? (.list 0) "insert" = none ∧ Getter.find? (.list 0) "insert" = some g ∧
        g.read (.list 0) s = .done function u ∧ function.isFunction = true ∧ s.KeepsCollections u ∧
        Calls 0 function [.int 5, .null] u ((Failure.raised 0).outcome t) :=
    (failed_members_change_no_collection rfl hname).2.2.1
  rcases hkept hcall with hkeeps | ⟨g, function, u, hmethod, -⟩
  · exact ⟨hcall, hkeeps⟩
  · cases hmethod

/-- The first element of a list is a function that empties the list and fails. The name of the getter `first`, which is no
method and takes no function, is called, and the call fails with the list empty. -/
theorem called_getters_may_change_collections :
    let emptied : Syntax.Expr := .methodCall none (.identifier none "xs") "clear" []
    let s : Store :=
      { scopes := #[⟨none, [("xs", .list 0)], none⟩]
        lists := #[#[.closure 0]]
        closures := #[⟨none, [], .expression none (.property none emptied "length"), 0⟩] }
    Method.find? (.list 0) "first" = none ∧ Getter.find? (.list 0) "first" = some (.sequence .first) ∧
      ∃ t, Invokes 0 (.list 0) "first" [] s (.raised 0 t) ∧ t.list 0 = #[] ∧ ¬ s.KeepsCollections t := by
  intro emptied s
  let t : Store :=
    { s with
      scopes := s.scopes.push ⟨some 0, [], none⟩
      lists := #[#[]]
      errors := #[{ fault := .noMember .null "Null" "length" }] }
  have hcall : Invokes 0 (.list 0) "first" [] s (.raised 0 t) := ⟨nofun, 9, rfl⟩
  refine ⟨rfl, rfl, t, hcall, rfl, fun hkeeps => ?_⟩
  have hlist : t.lists[0]? = some #[.closure 0] := hkeeps.lists 0 #[.closure 0] rfl
  cases hlist

end Dartlet
