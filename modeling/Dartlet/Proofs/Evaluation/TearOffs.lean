import Dartlet.Host.Standard
import Dartlet.Proofs.Evaluation.Closed
import Dartlet.Proofs.Evaluation.MoreLevels

/-!
# Tear-offs

A method that is read without being called becomes a native function that is bound to its receiver.
Calling it does what calling the method on the receiver does, with the same result, errors and output.
What is left of the detour is the function itself in the table of native functions.
-/

namespace Dartlet

open Dartlet.Action
open Dartlet.Syntax (Expr)

set_option linter.unusedSectionVars false

section

/-! ### Getters and methods -/

theorem name_mem_of_tableFind? {α : Type} {table : List (String × α)} {name : String} {x : α}
    (h : tableFind? table name = some x) : name ∈ table.map Prod.fst := by
  unfold tableFind? at h
  split at h
  · rename_i entry hentry
    have heq : entry.1 = name := by simpa using List.find?_some hentry
    exact List.mem_map.mpr ⟨entry, List.mem_of_find?_eq_some hentry, heq⟩
  · cases h

theorem tableFind?_eq_none {α : Type} {table : List (String × α)} {name : String} (h : name ∉ table.map Prod.fst) :
    tableFind? table name = none := by
  cases hfind : tableFind? table name with
  | none => rfl
  | some x => exact absurd (name_mem_of_tableFind? hfind) h

variable [Host]

/-- The names of the methods that a value has. -/
def Method.names : Value → List String
  | .string _ => textTable.map Prod.fst
  | .int _ | .double _ => numberTable.map Prod.fst
  | .list _ => listTable.map Prod.fst ++ sequenceTable.map Prod.fst
  | .set _ => setTable.map Prod.fst ++ sequenceTable.map Prod.fst
  | .iterable _ => sequenceTable.map Prod.fst
  | .map _ => mapTable.map Prod.fst
  | .type t => (typeTable t).map Prod.fst
  | _ => []

theorem Method.name_mem_of_find? {receiver : Value} {name : String} {m : Method} (h : find? receiver name = some m) :
    name ∈ names receiver := by
  have hname {α : Type} {table : List (String × α)} {wrap : α → Method}
      (h : (tableFind? table name).map wrap = some m) : name ∈ table.map Prod.fst := by
    obtain ⟨x, hx, -⟩ := Option.map_eq_some_iff.mp h
    exact name_mem_of_tableFind? hx
  cases receiver with
  | string content => exact hname h
  | int n => exact hname h
  | double x => exact hname h
  | list a =>
    simp only [find?] at h
    split at h
    · exact List.mem_append_left _ (name_mem_of_tableFind? ‹_›)
    · exact List.mem_append_right _ (hname h)
  | set a =>
    simp only [find?] at h
    split at h
    · exact List.mem_append_left _ (name_mem_of_tableFind? ‹_›)
    · exact List.mem_append_right _ (hname h)
  | iterable a => exact hname h
  | map a => exact hname h
  | type t => exact hname h
  | _ => cases h

/-- No value has a getter and a method of the same name. -/
theorem Getter.find?_of_method {receiver : Value} {name : String} {m : Method}
    (h : Method.find? receiver name = some m) : find? receiver name = none := by
  have hname := Method.name_mem_of_find? h
  have hnone {α : Type} (names : List String) (table : List (String × α)) (wrap : α → Getter)
      (hnames : Method.names receiver = names) (hdisjoint : ∀ n ∈ names, n ∉ table.map Prod.fst) :
      (tableFind? table name).map wrap = none := by
    rw [tableFind?_eq_none (hdisjoint name (hnames ▸ hname)), Option.map_none]
  cases receiver with
  | string content => exact hnone (Method.textTable.map Prod.fst) textTable _ rfl (by decide)
  | int n => exact hnone (Method.numberTable.map Prod.fst) intTable _ rfl (by decide)
  | double x => exact hnone (Method.numberTable.map Prod.fst) numberTable _ rfl (by decide)
  | list a =>
    have hreversed : "reversed" ∉ Method.listTable.map Prod.fst ++ Method.sequenceTable.map Prod.fst := by decide
    have hother : name ≠ "reversed" := fun heq => hreversed (heq ▸ hname)
    simp only [find?, beq_iff_eq, if_neg hother]
    exact hnone (Method.listTable.map Prod.fst ++ Method.sequenceTable.map Prod.fst) sequenceTable _ rfl (by decide)
  | set a =>
    exact hnone (Method.setTable.map Prod.fst ++ Method.sequenceTable.map Prod.fst) sequenceTable _ rfl (by decide)
  | iterable a => exact hnone (Method.sequenceTable.map Prod.fst) sequenceTable _ rfl (by decide)
  | map a => exact hnone (Method.mapTable.map Prod.fst) mapTable _ rfl (by decide)
  | type t =>
    cases t with
    | double => exact hnone ((Method.typeTable .double).map Prod.fst) doubleTable _ rfl (by decide)
    | _ => rfl
  | _ => rfl

/-! ### Stores with one native function more -/

/-- A store with one native function more: those from its address on have moved up by one. -/
def Store.withNative (a : Address) (f : NativeFunction) (s : Store) : Store :=
  { s.shift (.natives a 1) with
    natives := ((s.shift (.natives a 1)).natives.toList.insertIdx a f).toArray }

@[simp] theorem Store.withNative_output (a : Address) (f : NativeFunction) (s : Store) :
    (s.withNative a f).output = s.output := rfl

/-- An outcome with one native function more. -/
def Outcome.withNative (a : Address) (f : NativeFunction) : Outcome Value → Outcome Value
  | .done v s => .done (v.shift (.natives a 1)) (s.withNative a f)
  | .raised e s => .raised e (s.withNative a f)
  | .escaped failure s => .escaped failure (s.withNative a f)
  | .exhausted s => .exhausted (s.withNative a f)

namespace Comparison

/-- A table that has one entry more is determined by the other one and this entry. -/
theorem eq_insertIdx_of_corresponds {α β : Type} {start : Nat} {R : α → β → Prop} {xs : Array α} {ys : Array β}
    {f : α → β} {y : β} (h : Corresponds ⟨start, 1⟩ R xs ys) (hf : ∀ x y, R x y → y = f x)
    (hy : ys[start]? = some y) : ys = ((xs.map f).toList.insertIdx start y).toArray := by
  refine Array.toList_inj.mp (List.ext_getElem? (fun i => ?_))
  have hentry := getElem?_of_corresponds h hf
  rw [Array.getElem?_toList]
  rcases Nat.lt_trichotomy i start with hlt | rfl | hgt
  · have hi := hentry i
    rw [Shift.apply_of_lt _ hlt] at hi
    rw [List.getElem?_insertIdx_of_lt hlt, hi]
    simp
  · have hstart : i ≤ xs.size := h.start
    rw [List.getElem?_insertIdx_self, hy, if_pos (by simpa using hstart)]
  · have hi := hentry (i - 1)
    rw [Shift.apply_of_le _ (show start ≤ i - 1 by omega), show i - 1 + 1 = i by omega] at hi
    rw [List.getElem?_insertIdx_of_gt hgt, hi]
    simp

variable {a : Address} {f : NativeFunction} {s t : Store}

theorem Follows.withNative {s' t' : Store} (h : (growing a 1).Follows s t s' t') (hf : t.natives[a]? = some f) :
    t' = s'.withNative a f := by
  have hnatives := eq_insertIdx_of_corresponds h.parallel.natives (f := NativeFunction.shift (.natives a 1))
    (fun _ _ hfg => hfg.same) (h.second.natives a f hf)
  have hrest := Tables.eq_shift rfl (fun _ => rfl) rfl rfl h.parallel
  rw [hrest, hnatives, Store.withNative]
  rfl

theorem Matches.withNative {P : Store → Store → Address → Prop} {o o' : Outcome Value}
    (h : (growing a 1).Matches false P (growing a 1).Val s t o o') (hf : t.natives[a]? = some f) :
    o' = o.withNative a f := by
  cases h with
  | done hv hfollows => rw [hv.same, hfollows.withNative hf]; rfl
  | @raised e _ _ _ hfollows =>
    have herror : (growing a 1).shifts.error.apply e = e := Shift.apply_stay e
    rw [herror, hfollows.withNative hf]
    rfl
  | escaped _ hfollows => rw [hfollows.withNative hf]; rfl
  | exhausted hfollows => rw [hfollows.withNative hf]; rfl
  | gaveUp hw => cases hw

end Comparison

/-! ### Reading a member and calling it -/

/-- Objects of the host, which have attributes instead of members. Errors are among them. -/
def Value.isHostObject : Value → Bool
  | .object _ | .error _ => true
  | _ => false

section Members

variable {e : Engine} {depth : Nat} {receiver : Value} {name : String} {m : Method} {arguments : List Value} {s : Store}

theorem getMember_ordinary (hobject : receiver.isHostObject = false) :
    getMember receiver name = Comparison.ordinaryMember receiver name := by
  cases receiver with
  | object a => cases hobject
  | error a => cases hobject
  | _ => rfl

theorem invokeMember_ordinary (hobject : receiver.isHostObject = false) :
    invokeMember e depth receiver name arguments = Comparison.invokeOrdinary e depth receiver name arguments := by
  cases receiver with
  | object a => cases hobject
  | error a => cases hobject
  | _ => rfl

/-- A method that is called checks the number of its arguments and runs. -/
theorem invokeMember_method (hobject : receiver.isHostObject = false) (hm : Method.find? receiver name = some m) :
    invokeMember e depth receiver name arguments =
      (checkArity (some name) m.arity arguments.length >>= fun _ =>
        callHost e depth (fun c => m.run c receiver arguments)) := by
  rw [invokeMember_ordinary hobject, Comparison.invokeOrdinary, hm]

/-- A method that is read becomes a new function. -/
theorem getMember_method (hobject : receiver.isHostObject = false) (hm : Method.find? receiver name = some m) :
    getMember receiver name = newNative name (.bound receiver m) := by
  rw [getMember_ordinary hobject, Comparison.ordinaryMember, Getter.find?_of_method hm, hm]

theorem callValue_code {a : Address} {f : NativeFunction} (hf : s.natives[a]? = some f) :
    callValue e depth (.native a) arguments s = callNative e depth f.code arguments s := by
  simp only [callValue, hf]

/-- The function that a method becomes checks the number of its arguments and runs the method. -/
theorem callValue_bound {a : Address} (hf : s.natives[a]? = some ⟨name, .bound receiver m⟩) :
    callValue e depth (.native a) arguments s =
      (checkArity none m.arity arguments.length >>= fun _ =>
        callHost e depth (fun c => m.run c receiver arguments)) s := by
  rw [callValue_code hf]
  rfl

/-- A method that is torn off and called runs beside the function that it has become. -/
theorem callValue_tornOff (hobject : receiver.isHostObject = false) (hm : Method.find? receiver name = some m) :
    (do
      let function ← getMember receiver name
      callValue e depth function arguments) s =
      (checkArity none m.arity arguments.length >>= fun _ => callHost e depth (fun c => m.run c receiver arguments))
        (s.addNative ⟨name, .bound receiver m⟩).2 := by
  have hf : (s.addNative ⟨name, .bound receiver m⟩).2.natives[s.natives.size]? = some ⟨name, .bound receiver m⟩ :=
    Array.getElem?_push_size
  rw [getMember_method hobject hm]
  exact callValue_bound hf

/-- A method that is run by name and one that is run beside it in a store with one native function more. -/
theorem callHost_withNative (hs : s.Closed) (hreceiver : receiver.Below s.natives.size)
    (harguments : ∀ v ∈ arguments, v.Below s.natives.size) (level : Nat) (f : NativeFunction) :
    callHost (interpreter level) depth (fun c => m.run c receiver arguments) (s.addNative f).2 =
      (callHost (interpreter level) depth (fun c => m.run c receiver arguments) s).withNative s.natives.size f := by
  have hknown {v : Value} (hv : v.Below s.natives.size) : v.Known ((Comparison.growing s.natives.size 1).Known s) := by
    rw [Comparison.known_growing]
    exact Value.known_below.mpr hv
  have hkeeps {v : Value} (hv : v.Below s.natives.size) : v.shift (.natives s.natives.size 1) = v :=
    Comparison.keeps_natives _ _ v (Value.known_below.mpr hv)
  have hparallel : (Comparison.growing s.natives.size 1).Parallel s (s.addNative f).2 :=
    Comparison.parallel_growing hs #[f]
  have hcaller : (Comparison.growing s.natives.size 1).Callers _ _ :=
    (Comparison.agrees_growing level).caller (depth + 1)
  have hmethod := Comparison.alike_method hcaller receiver (s := s) (t := (s.addNative f).2)
    (fun v hv => hknown (harguments v hv)) m
  have harguments' : arguments = arguments.map (Value.shift (.natives s.natives.size 1)) :=
    eq_map_of_forall (fun v hv => hkeeps (harguments v hv))
  have hreceiver' : receiver.shift (Comparison.growing s.natives.size 1).shifts = receiver := hkeeps hreceiver
  rw [hreceiver', show arguments.map (Value.shift (Comparison.growing s.natives.size 1).shifts) = arguments from
    harguments'.symm] at hmethod
  have hcall := Comparison.alike_callHost (fun c => m.run c receiver arguments) (fun c => m.run c receiver arguments)
    hmethod
  exact (hcall hparallel).withNative Array.getElem?_push_size

end Members

/-- Wherever runs lead to, calling what has been read from a member of a value does what calling the
member does. A method runs in the same way, to the same result, error or failure and the same output,
and leaves the same store, in which there is also the function that it has become; the wrong number of
arguments raises the same error in both cases, which names the member only where it was called. A value
that a getter yields is called in the same way, unless the levels do not suffice for it, and members that are
missing are missing in both cases. -/
theorem tear_offs_do_what_members_do {s : Store} (hs : s.Arisen) {receiver : Value} {arguments : List Value}
    (hreceiver : receiver.Below s.natives.size) (harguments : ∀ v ∈ arguments, v.Below s.natives.size)
    (hobject : receiver.isHostObject = false) {name : String} (hname : name ≠ "toString") (level depth : Nat) :
    let called (level : Nat) := invokeMember (interpreter level) depth receiver name arguments s
    let tornOff := (do
      let function ← getMember receiver name
      callValue (interpreter level) depth function arguments) s
    match Method.find? receiver name with
    | none => tornOff = called (level + 1) ∧ (called level).Persists tornOff
    | some m =>
      if m.arity.accepts arguments.length then
        tornOff = (called level).withNative s.natives.size ⟨name, .bound receiver m⟩
      else
        called level = fail (.wrongCount (some name) m.arity.low m.arity.high arguments.length) s ∧
        tornOff = fail (.wrongCount none m.arity.low m.arity.high arguments.length)
          (s.addNative ⟨name, .bound receiver m⟩).2 := by
  cases hm : Method.find? receiver name with
  | none =>
    have htext : (name == "toString" && arguments.isEmpty) = false := by simp [hname]
    simp only [getMember_ordinary hobject, invokeMember_ordinary hobject]
    unfold Comparison.ordinaryMember Comparison.invokeOrdinary
    rw [hm, htext]
    cases Getter.find? receiver name with
    | none => exact ⟨rfl, .refl _⟩
    | some g =>
      refine ⟨rfl, Outcome.Persists.bind (fun function t _ => ?_)⟩
      exact (more_levels_change_nothing (Nat.le_succ level) ⟨0, depth⟩ t).2.2 function arguments
  | some m =>
    simp only [callValue_tornOff hobject hm, invokeMember_method hobject hm]
    split
    case isTrue haccepts =>
      have hcheck (label : Option String) : checkArity label m.arity arguments.length = pure () := if_pos haccepts
      rw [hcheck, hcheck]
      exact callHost_withNative (Store.Closed.arisen hs) hreceiver harguments level ⟨name, .bound receiver m⟩
    case isFalse haccepts =>
      have hcheck (label : Option String) : checkArity label m.arity arguments.length =
          fail (.wrongCount label m.arity.low m.arity.high arguments.length) := if_neg haccepts
      rw [hcheck, hcheck]
      exact ⟨rfl, rfl⟩

/-- The literal of a list of two numbers. -/
def shortList : Expr := .listLiteral none [.plain (.intLiteral none 3), .plain (.intLiteral none 1)] []

end

/-- Printing the elements of such a list by its method and by what the method becomes. -/
theorem tear_offs_do_what_members_do_printing :
    let s := ((interpreter 3).eval ⟨rootScope, 0⟩ shortList Store.initial).store
    let called := invokeMember (interpreter 3) 0 (.list 0) "forEach" [.native 1] s
    let tornOff := (do
      let function ← getMember (.list 0) "forEach"
      callValue (interpreter 3) 0 function [.native 1]) s
    called.store.output = "3\n1\n" ∧
      tornOff = called.withNative s.natives.size ⟨"forEach", .bound (.list 0) (.sequence .forEach)⟩ := by
  intro s called tornOff
  have hs : s.Arisen := .eval 3 _ _ (.prepared .initial)
  have hprint : 1 < s.natives.size := by decide
  refine ⟨by decide, ?_⟩
  exact tear_offs_do_what_members_do hs (show (Value.list 0).Below _ from trivial)
    (List.forall_mem_singleton.mpr (show (Value.native 1).Below _ from hprint)) rfl
    (show "forEach" ≠ "toString" by decide) 3 0

end Dartlet
