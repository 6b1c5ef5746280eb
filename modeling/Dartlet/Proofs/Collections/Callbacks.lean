import Dartlet.Host.Standard
import Dartlet.Proofs.Evaluation.Invocations
import Dartlet.Proofs.Evaluation.Loops
import Dartlet.Proofs.Host.Takeover

/-!
# Members that call a function for each element

A member of a list that takes a function calls it for one element after the other, until the elements are over, a result
decides the answer or a call does not return. All that such a member does is told here by its calls: which elements the
function was called for, and with which results. Two members copy the list first; the others read each element when its
turn comes, so that they visit the elements that the list had at the call as long as the function leaves the list alone.
-/

namespace Dartlet

open Dartlet.Action

set_option linter.unusedSectionVars false

section

variable [Host]

/-- Whether a value is the truth value `true`. -/
def Value.isTrue : Value → Bool
  | .bool b => b
  | _ => false

/-- What the result of a call says: the next element follows, the answer is decided, or there should have been a truth
value. -/
inductive Verdict where
  | goOn
  | decided
  | refused

/-- The members of a list that call a function for its elements. -/
inductive CallbackMember where
  | map | where_ | fold | any | every | forEach | reduce

namespace CallbackMember

def method : CallbackMember → SequenceMethod
  | map => .map
  | where_ => .where_
  | fold => .fold
  | any => .any
  | every => .every
  | forEach => .forEach
  | reduce => .reduce

def name : CallbackMember → String
  | map => "map"
  | where_ => "where"
  | fold => "fold"
  | any => "any"
  | every => "every"
  | forEach => "forEach"
  | reduce => "reduce"

/-- What a member is given: a function, and `fold` also what to begin with. -/
def given (init function : Value) : CallbackMember → List Value
  | fold => [init, function]
  | _ => [function]

/-- Whether a member copies the list before the first call. -/
def copies : CallbackMember → Bool
  | forEach | reduce => true
  | _ => false

/-- The elements that the function is to be called for. -/
def elements (items : List Value) : CallbackMember → List Value
  | reduce => items.tail
  | _ => items

/-- What a member begins with: `reduce` with the first element. -/
def first (init : Value) (items : List Value) : CallbackMember → Value
  | reduce => items.headD .null
  | _ => init

/-- What the calls have combined: the result of the last one. -/
def combined (init : Value) (calls : List (Value × Value)) : Value :=
  match calls.getLast? with
  | some call => call.2
  | none => init

/-- What the function is called with for an element, after other calls. -/
def arguments (init : Value) (calls : List (Value × Value)) (item : Value) : CallbackMember → List Value
  | fold | reduce => [combined init calls, item]
  | _ => [item]

def verdict (result : Value) : CallbackMember → Verdict
  | where_ => match result with
    | .bool _ => .goOn
    | _ => .refused
  | any => match result with
    | .bool hit => if hit then .decided else .goOn
    | _ => .refused
  | every => match result with
    | .bool hit => if hit then .goOn else .decided
    | _ => .refused
  | _ => .goOn

/-- What a member yields after its calls. -/
def answer (init : Value) (calls : List (Value × Value)) : CallbackMember → Action Value
  | map => newIterable (calls.map Prod.snd)
  | where_ => newIterable ((calls.filter fun call => call.2.isTrue).map Prod.fst)
  | fold | reduce => pure (combined init calls)
  | any => pure (.bool (calls.any fun call => call.2.isTrue))
  | every => pure (.bool (calls.all fun call => call.2.isTrue))
  | forEach => pure .null

/-- The element in a place, as a member sees it that began in one store and has come to another one. -/
def element? (m : CallbackMember) (a : Address) (s t : Store) (place : Nat) : Option Value :=
  (m.elements ((if m.copies then s else t).list a).toList)[place]?

end CallbackMember

/-! ### The calls of a member -/

/-- Why a member calls its function no more. -/
inductive CallsEnd where
  | finished
  | decided
  | refused
  | failed (item : Value)

section Calls

variable (m : CallbackMember) (a : Address) (depth : Nat) (function init : Value) (s : Store)

/-- The elements that a member has called its function for, with the results, and the store after these calls. -/
inductive Reached : List (Value × Value) → Store → Prop where
  | start : Reached [] s
  | call {calls t item v u} (before : Reached calls t) (element : m.element? a s t calls.length = some item)
      (run : Calls depth function (m.arguments init calls item) t (.done v u)) (goes : m.verdict v = .goOn) :
      Reached (calls ++ [(item, v)]) u

/-- All calls of a member that have returned, why there are no others, and the outcome. -/
inductive CallsEndWith : List (Value × Value) → CallsEnd → Outcome Value → Prop where
  | finished {calls t} (reached : Reached m a depth function init s calls t) (none : m.element? a s t calls.length = none) :
      CallsEndWith calls .finished (m.answer init calls t)
  | decided {calls t item v u} (reached : Reached m a depth function init s calls t)
      (element : m.element? a s t calls.length = some item)
      (run : Calls depth function (m.arguments init calls item) t (.done v u)) (decided : m.verdict v = .decided) :
      CallsEndWith (calls ++ [(item, v)]) .decided (m.answer init (calls ++ [(item, v)]) u)
  | refused {calls t item v u} (reached : Reached m a depth function init s calls t)
      (element : m.element? a s t calls.length = some item)
      (run : Calls depth function (m.arguments init calls item) t (.done v u)) (refused : m.verdict v = .refused) :
      CallsEndWith (calls ++ [(item, v)]) .refused (mismatch (.badCallbackResult m.name (v.typeName u)) u)
  | failed {calls t item f u} (reached : Reached m a depth function init s calls t)
      (element : m.element? a s t calls.length = some item)
      (run : Calls depth function (m.arguments init calls item) t (Failure.outcome u f)) :
      CallsEndWith calls (.failed item) (f.outcome u)

end Calls

/-! ### What the members do -/

namespace CallbackMember

variable (m : CallbackMember) (a : Address) (s : Store) (init : Value)

/-- What follows a call. -/
def proceed (calls : List (Value × Value)) (v : Value) (next : Action Value) : Action Value :=
  match m.verdict v with
  | .goOn => next
  | .decided => m.answer init calls
  | .refused => fun u => mismatch (.badCallbackResult m.name (v.typeName u)) u

/-- Call a function for all elements that remain after some calls. -/
def callAll (call : List Value → Action Value) : Nat → List (Value × Value) → Action Value
  | 0, _ => exhaust
  | rounds + 1, calls => fun t =>
    match m.element? a s t calls.length with
    | none => m.answer init calls t
    | some item => (do
      let v ← call (m.arguments init calls item)
      m.proceed init (calls ++ [(item, v)]) v (callAll call rounds (calls ++ [(item, v)]))) t

theorem ended_answer (calls : List (Value × Value)) (t : Store) : (m.answer init calls t).Ended := by
  cases m <;> nofun

variable {m a s init} {call : List Value → Action Value} {depth : Nat} {function : Value}

theorem proceed_goOn {calls : List (Value × Value)} {v : Value} {next : Action Value} (h : m.verdict v = .goOn) :
    m.proceed init calls v next = next := by
  rw [proceed, h]

theorem proceed_decided {calls : List (Value × Value)} {v : Value} {next : Action Value} (h : m.verdict v = .decided) :
    m.proceed init calls v next = m.answer init calls := by
  rw [proceed, h]

theorem proceed_refused {calls : List (Value × Value)} {v : Value} {next : Action Value} (h : m.verdict v = .refused) :
    m.proceed init calls v next = fun u => mismatch (.badCallbackResult m.name (v.typeName u)) u := by
  rw [proceed, h]

theorem callAll_finished {calls : List (Value × Value)} {t : Store} {rounds : Nat}
    (h : m.element? a s t calls.length = none) :
    m.callAll a s init call (rounds + 1) calls t = m.answer init calls t := by
  simp only [callAll, h]

theorem callAll_element {calls : List (Value × Value)} {t : Store} {rounds : Nat} {item : Value}
    (h : m.element? a s t calls.length = some item) :
    m.callAll a s init call (rounds + 1) calls t = (call (m.arguments init calls item) >>= fun v =>
      m.proceed init (calls ++ [(item, v)]) v (m.callAll a s init call rounds (calls ++ [(item, v)]))) t := by
  simp only [callAll, h]

theorem persistent_proceed {calls : List (Value × Value)} {v : Value} {next : Engine → Action Value} (h : Persistent next) :
    Persistent (fun e => m.proceed init calls v (next e)) := by
  unfold proceed
  cases m.verdict v with
  | goOn => exact h
  | decided => exact .const _
  | refused => exact .const _

theorem persistent_callAll (rounds : Nat) (calls : List (Value × Value)) :
    Persistent (fun e => m.callAll a s init (e.call depth function) rounds calls) := by
  induction rounds generalizing calls with
  | zero => exact .const _
  | succ rounds ih =>
    intro level more h t
    change (m.callAll a s init _ (rounds + 1) calls t).Persists (m.callAll a s init _ (rounds + 1) calls t)
    cases helement : m.element? a s t calls.length with
    | none =>
      rw [callAll_finished helement, callAll_finished helement]
      exact .refl _
    | some item =>
      rw [callAll_element helement, callAll_element helement]
      exact (Persistent.call depth function _).bind (fun v => persistent_proceed (ih (calls ++ [(item, v)]))) level more h t

/-- More rounds than suffice change nothing. -/
theorem callAll_persists {rounds more : Nat} (h : rounds ≤ more) (calls : List (Value × Value)) (t : Store) :
    (m.callAll a s init call rounds calls t).Persists (m.callAll a s init call more calls t) := by
  induction rounds generalizing more calls t with
  | zero => exact .inl ⟨t, rfl⟩
  | succ rounds ih =>
    obtain ⟨more, rfl⟩ : ∃ n, more = n + 1 := ⟨more - 1, by omega⟩
    cases helement : m.element? a s t calls.length with
    | none =>
      rw [callAll_finished helement, callAll_finished helement]
      exact .refl _
    | some item =>
      rw [callAll_element helement, callAll_element helement]
      refine Outcome.Persists.bind fun v u _ => ?_
      have hnext := ih (Nat.le_of_succ_le_succ h) (calls ++ [(item, v)]) u
      cases hverdict : m.verdict v with
      | goOn =>
        rw [proceed_goOn hverdict, proceed_goOn hverdict]
        exact hnext
      | decided =>
        rw [proceed_decided hverdict, proceed_decided hverdict]
        exact .refl _
      | refused =>
        rw [proceed_refused hverdict, proceed_refused hverdict]
        exact .refl _

/-- How the calls for the elements that remain end: there are none, or the first of them is called for. -/
theorem callAll_iff {calls : List (Value × Value)} {t : Store} {rounds : Nat} {o : Outcome Value} {item : Value}
    (h : m.element? a s t calls.length = some item) :
    EndsWith (fun e => m.callAll a s init (e.call depth function) (rounds + 1) calls) t o ↔
      (∃ v u, Calls depth function (m.arguments init calls item) t (.done v u) ∧
        EndsWith (fun e => m.proceed init (calls ++ [(item, v)]) v
          (m.callAll a s init (e.call depth function) rounds (calls ++ [(item, v)]))) u o) ∨
      ∃ f u, Calls depth function (m.arguments init calls item) t (Failure.outcome u f) ∧ o = f.outcome u :=
  (EndsWith.congr fun _ => callAll_element h).trans
    (EndsWith.bind_iff (.call depth function _) fun v => persistent_proceed (persistent_callAll rounds (calls ++ [(item, v)])))

/-- What remains after some calls ends as the calls do that follow. -/
theorem callsEndWith_of_callAll {calls : List (Value × Value)} {t : Store} {rounds : Nat} {o : Outcome Value}
    (hreached : Reached m a depth function init s calls t)
    (h : EndsWith (fun e => m.callAll a s init (e.call depth function) rounds calls) t o) :
    ∃ all ending, CallsEndWith m a depth function init s all ending o := by
  induction rounds generalizing calls t with
  | zero => exact absurd (EndsWith.const_iff.mp h).1.symm (h.1 t)
  | succ rounds ih =>
    cases helement : m.element? a s t calls.length with
    | none =>
      obtain ⟨rfl, -⟩ := EndsWith.const_iff.mp ((EndsWith.congr fun _ => callAll_finished helement).mp h)
      exact ⟨_, _, .finished hreached helement⟩
    | some item =>
      rcases (callAll_iff helement).mp h with ⟨v, u, hcall, hnext⟩ | ⟨f, u, hcall, rfl⟩
      · cases hverdict : m.verdict v with
        | goOn =>
          simp only [proceed_goOn hverdict] at hnext
          exact ih (.call hreached helement hcall hverdict) hnext
        | decided =>
          simp only [proceed_decided hverdict] at hnext
          obtain ⟨rfl, -⟩ := EndsWith.const_iff.mp hnext
          exact ⟨_, _, .decided hreached helement hcall hverdict⟩
        | refused =>
          simp only [proceed_refused hverdict] at hnext
          obtain ⟨rfl, -⟩ := EndsWith.const_iff.mp hnext
          exact ⟨_, _, .refused hreached helement hcall hverdict⟩
      · exact ⟨_, _, .failed hreached helement hcall⟩

/-- What remains after the calls that were made decides how all of them end. -/
theorem callAll_of_reached {calls : List (Value × Value)} {t : Store} (rounds : Nat) {o : Outcome Value}
    (hreached : Reached m a depth function init s calls t)
    (h : EndsWith (fun e => m.callAll a s init (e.call depth function) rounds calls) t o) :
    ∃ rounds, EndsWith (fun e => m.callAll a s init (e.call depth function) rounds []) s o := by
  induction hreached generalizing rounds with
  | start => exact ⟨rounds, h⟩
  | call _ element run goes ih =>
    refine ih (rounds + 1) ((callAll_iff element).mpr (.inl ⟨_, _, run, ?_⟩))
    simp only [proceed_goOn goes]
    exact h

theorem callAll_of_callsEndWith {calls : List (Value × Value)} {ending : CallsEnd} {o : Outcome Value}
    (h : CallsEndWith m a depth function init s calls ending o) :
    ∃ rounds, EndsWith (fun e => m.callAll a s init (e.call depth function) rounds []) s o := by
  cases h with
  | finished reached none =>
    exact callAll_of_reached 1 reached
      ((EndsWith.congr fun _ => callAll_finished none).mpr (EndsWith.const_iff.mpr ⟨rfl, m.ended_answer init _ _⟩))
  | decided reached element run decided =>
    refine callAll_of_reached 1 reached ((callAll_iff element).mpr (.inl ⟨_, _, run, ?_⟩))
    simp only [proceed_decided decided]
    exact EndsWith.const_iff.mpr ⟨rfl, m.ended_answer init _ _⟩
  | refused reached element run refused =>
    refine callAll_of_reached 1 reached ((callAll_iff element).mpr (.inl ⟨_, _, run, ?_⟩))
    simp only [proceed_refused refused]
    exact EndsWith.const_iff.mpr ⟨rfl, nofun⟩
  | failed reached element run =>
    exact callAll_of_reached 1 reached ((callAll_iff element).mpr (.inr ⟨_, _, run, rfl⟩))

/-! ### The members of the model -/

theorem element?_of_live (h : m.copies = false) (t : Store) (place : Nat) : m.element? a s t place = (t.list a)[place]? := by
  cases m with
  | forEach => cases h
  | reduce => cases h
  | _ => exact Array.getElem?_toList

/-- A walk over the list whose steps call the function. -/
theorem walkList_eq {β : Type} {state : List (Value × Value) → β} {step : β → Value → Action (Walk β)}
    {finish : β → Action Value} (hlive : m.copies = false)
    (hstep : ∀ calls item, (∀ earlier ∈ calls, m.verdict earlier.2 = .goOn) → step (state calls) item =
      (call (m.arguments init calls item) >>= fun v =>
        match m.verdict v with
        | .goOn => pure (.next (state (calls ++ [(item, v)])))
        | .decided => pure (.stop (state (calls ++ [(item, v)])))
        | .refused => fun u => mismatch (.badCallbackResult m.name (v.typeName u)) u))
    (hfinish : ∀ calls, finish (state calls) = m.answer init calls) (rounds : Nat) {calls : List (Value × Value)}
    (hcalls : ∀ earlier ∈ calls, m.verdict earlier.2 = .goOn) :
    (walkList step a rounds calls.length (state calls) >>= finish) = m.callAll a s init call rounds calls := by
  induction rounds generalizing calls with
  | zero => rfl
  | succ rounds ih =>
    funext t
    rw [walkList, bind_assoc, bind_of_done (show get t = .done t t from rfl)]
    cases helement : m.element? a s t calls.length with
    | none =>
      rw [callAll_finished helement]
      rw [element?_of_live hlive] at helement
      simp only [helement, pure_bind, hfinish]
    | some item =>
      rw [callAll_element helement]
      rw [element?_of_live hlive] at helement
      simp only [helement, hstep calls item hcalls, bind_assoc]
      refine congrFun (congrArg (fun next => call (m.arguments init calls item) >>= next) (funext fun v => ?_)) t
      cases hverdict : m.verdict v with
      | goOn =>
        have hcalls' : ∀ earlier ∈ calls ++ [(item, v)], m.verdict earlier.2 = .goOn := fun earlier h =>
          (List.mem_append.mp h).elim (hcalls earlier) (fun h => List.mem_singleton.mp h ▸ hverdict)
        have hnext := ih hcalls'
        rw [List.length_append, List.length_singleton] at hnext
        rw [proceed_goOn hverdict, ← hnext]
        simp only [pure_bind]
      | decided => simp only [proceed_decided hverdict, pure_bind, hfinish]
      | refused =>
        rw [proceed_refused hverdict]
        rfl

/-- A walk over the whole list. -/
theorem walk_eq {β : Type} (state : List (Value × Value) → β) {step : β → Value → Action (Walk β)}
    {finish : β → Action Value} (hlive : m.copies = false)
    (hfinish : ∀ calls, finish (state calls) = m.answer init calls)
    (hstep : ∀ calls item, (∀ earlier ∈ calls, m.verdict earlier.2 = .goOn) → step (state calls) item =
      (call (m.arguments init calls item) >>= fun v =>
        match m.verdict v with
        | .goOn => pure (.next (state (calls ++ [(item, v)])))
        | .decided => pure (.stop (state (calls ++ [(item, v)])))
        | .refused => fun u => mismatch (.badCallbackResult m.name (v.typeName u)) u)) (rounds : Nat) :
    (walk rounds step (.list a) (state []) >>= finish) = m.callAll a s init call rounds [] :=
  walkList_eq hlive hstep hfinish rounds fun _ h => absurd h List.not_mem_nil

theorem element?_of_copies (h : m.copies = true) (t : Store) (place : Nat) :
    m.element? a s t place = (m.elements (s.list a).toList)[place]? := by
  rw [element?, if_pos h]

@[simp] theorem combined_concat (init : Value) (calls : List (Value × Value)) (item v : Value) :
    combined init (calls ++ [(item, v)]) = v := by
  rw [combined, List.getLast?_concat]

/-- A run over the elements of the copy, one after the other. -/
theorem callAll_of_copies (run : List (Value × Value) → List Value → Action Value) (hcopies : m.copies = true)
    (hgoes : ∀ v, m.verdict v = .goOn) (hnil : ∀ calls, run calls [] = m.answer init calls)
    (hcons : ∀ calls item rest, run calls (item :: rest) =
      (call (m.arguments init calls item) >>= fun v => run (calls ++ [(item, v)]) rest))
    {calls : List (Value × Value)} {rest : List Value} {rounds : Nat}
    (hrest : (m.elements (s.list a).toList).drop calls.length = rest) (hrounds : rest.length < rounds) :
    m.callAll a s init call rounds calls = run calls rest := by
  induction rest generalizing calls rounds with
  | nil =>
    obtain ⟨rounds, rfl⟩ : ∃ n, rounds = n + 1 := ⟨rounds - 1, by omega⟩
    funext t
    have helement : m.element? a s t calls.length = none := by
      rw [element?_of_copies hcopies]
      exact List.getElem?_eq_none (List.drop_eq_nil_iff.mp hrest)
    rw [callAll_finished helement, hnil]
  | cons item rest ih =>
    obtain ⟨rounds, rfl⟩ : ∃ n, rounds = n + 1 := ⟨rounds - 1, by omega⟩
    funext t
    have helement : m.element? a s t calls.length = some item := by
      rw [element?_of_copies hcopies, ← List.head?_drop, hrest, List.head?_cons]
    rw [callAll_element helement, hcons]
    refine congrFun (congrArg (fun next => call (m.arguments init calls item) >>= next) (funext fun v => ?_)) t
    rw [proceed_goOn (hgoes v)]
    refine ih ?_ (Nat.lt_of_succ_lt_succ hrounds)
    rw [List.length_append, List.length_singleton, ← List.drop_drop, hrest, List.drop_one, List.tail_cons]

theorem boolResult_bool (method : String) (b : Bool) : boolResult method (.bool b) = pure b := rfl

theorem filter_concat (calls : List (Value × Value)) (item : Value) (b : Bool) :
    (calls ++ [(item, Value.bool b)]).filter (fun call => call.2.isTrue) =
      calls.filter (fun call => call.2.isTrue) ++ if b then [(item, Value.bool b)] else [] := by
  rw [List.filter_append]
  cases b <;> rfl

/-- What has gone on so far has not decided the answer. -/
theorem any_of_goOn {calls : List (Value × Value)} (h : ∀ earlier ∈ calls, any.verdict earlier.2 = .goOn) :
    (calls.any fun call => call.2.isTrue) = false := by
  refine List.any_eq_false.mpr fun earlier hearlier => ?_
  have hverdict := h earlier hearlier
  cases hv : earlier.2 with
  | bool b =>
    rw [hv] at hverdict
    cases b with
    | true => cases hverdict
    | false => exact Bool.false_ne_true
  | _ => exact Bool.false_ne_true

theorem all_of_goOn {calls : List (Value × Value)} (h : ∀ earlier ∈ calls, every.verdict earlier.2 = .goOn) :
    (calls.all fun call => call.2.isTrue) = true := by
  refine List.all_eq_true.mpr fun earlier hearlier => ?_
  have hverdict := h earlier hearlier
  cases hv : earlier.2 with
  | bool b =>
    rw [hv] at hverdict
    cases b with
    | true => rfl
    | false => cases hverdict
  | _ =>
    rw [hv] at hverdict
    cases hverdict

section Members

variable {c : Caller}

/-- A member that reads each element when its turn comes. -/
theorem run_eq_callAll_of_live (hfunction : function.isFunction = true) (hlive : m.copies = false) :
    m.method.run c (.list a) (m.given init function) = m.callAll a s init (c.call function) c.rounds [] := by
  have hpass (method : String) : functionArgument method function = pure () := if_pos hfunction
  cases m with
  | map =>
    simp only [method, given, SequenceMethod.run, argument_zero, hpass, pure_bind]
    refine walk_eq (m := map) (fun calls => (calls.map Prod.snd).toArray) rfl (fun _ => ?_) (fun calls item _ => ?_) _
    · rfl
    · simp [arguments, verdict]
  | where_ =>
    simp only [method, given, SequenceMethod.run, argument_zero, hpass, pure_bind]
    refine walk_eq (m := where_) (fun calls => ((calls.filter fun call => call.2.isTrue).map Prod.fst).toArray) rfl
      (fun _ => ?_) (fun calls item _ => bind_congr fun v => ?_) _
    · rfl
    · cases v with
      | bool keep =>
        rw [boolResult_bool, pure_bind]
        change pure (Walk.next _) = pure (Walk.next _)
        rw [filter_concat]
        cases keep <;> simp
      | _ => rfl
  | fold =>
    simp only [method, given, SequenceMethod.run, argument_zero, argument_one, hpass, pure_bind]
    rw [← bind_pure (walk _ _ _ _)]
    refine walk_eq (m := fold) (combined init) rfl (fun _ => ?_) (fun calls item _ => ?_) _
    · rfl
    · simp [arguments, verdict]
  | any =>
    simp only [method, given, SequenceMethod.run, argument_zero, hpass, pure_bind]
    refine walk_eq (m := any) (fun calls => calls.any fun call => call.2.isTrue) rfl (fun _ => ?_)
      (fun calls item hcalls => bind_congr fun v => ?_) _
    · rfl
    · cases v with
      | bool hit =>
        simp only [boolResult_bool, pure_bind, List.any_append, any_of_goOn hcalls]
        cases hit <;> rfl
      | _ => rfl
  | every =>
    simp only [method, given, SequenceMethod.run, argument_zero, hpass, pure_bind]
    refine walk_eq (m := every) (fun calls => calls.all fun call => call.2.isTrue) rfl (fun _ => ?_)
      (fun calls item hcalls => bind_congr fun v => ?_) _
    · rfl
    · cases v with
      | bool hit =>
        simp only [boolResult_bool, pure_bind, List.all_append, all_of_goOn hcalls]
        cases hit <;> rfl
      | _ => rfl
  | forEach => cases hlive
  | reduce => cases hlive

/-- A member that copies the list first. -/
theorem run_eq_callAll_of_copies (hfunction : function.isFunction = true) (hcopies : m.copies = true)
    (hsome : m = reduce → s.list a ≠ #[]) {rounds : Nat} (hrounds : (s.list a).size < rounds) :
    m.method.run c (.list a) (m.given init function) s =
      m.callAll a s (m.first init (s.list a).toList) (c.call function) rounds [] s := by
  have hpass (method : String) : functionArgument method function = pure () := if_pos hfunction
  have hitems : itemsOf (.list a) s = .done (s.list a).toList s := rfl
  cases m with
  | forEach =>
    have hall : forEach.callAll a s init (c.call function) rounds [] =
        (SequenceMethod.callEach c.call function (s.list a).toList >>= fun _ => pure .null) := by
      refine callAll_of_copies (m := forEach)
        (fun _ rest => SequenceMethod.callEach c.call function rest >>= fun _ => pure .null) rfl (fun _ => rfl)
        (fun _ => rfl) (fun calls item rest => ?_) rfl hrounds
      simp only [SequenceMethod.callEach, bind_assoc, arguments]
    simp only [method, given, SequenceMethod.run, argument_zero, hpass, pure_bind]
    rw [bind_of_done hitems]
    exact congrFun hall.symm s
  | reduce =>
    obtain ⟨item, rest, hcons⟩ := List.exists_cons_of_ne_nil fun hnil => hsome rfl (Array.toList_eq_nil_iff.mp hnil)
    have hlength : rest.length < rounds := by
      rw [← Array.length_toList, hcons, List.length_cons] at hrounds
      omega
    have hall : reduce.callAll a s item (c.call function) rounds [] = SequenceMethod.combine c.call function item rest := by
      refine callAll_of_copies (m := reduce)
        (fun calls rest => SequenceMethod.combine c.call function (combined item calls) rest) rfl (fun _ => rfl)
        (fun _ => rfl) (fun calls item rest => ?_) (show (reduce.elements (s.list a).toList).drop [].length = rest from ?_)
        hlength
      · simp only [SequenceMethod.combine, arguments, combined_concat]
      · rw [hcons]
        rfl
    simp only [method, given, SequenceMethod.run, argument_zero]
    rw [bind_of_done hitems, hcons]
    simp only [hpass, pure_bind]
    exact congrFun hall.symm s
  | _ => cases hcopies

theorem find?_name (m : CallbackMember) (a : Address) : Method.find? (.list a) m.name = some (.sequence m.method) := by
  cases m <;> rfl

theorem accepts_given (m : CallbackMember) (init function : Value) :
    (Method.sequence m.method).arity.accepts (m.given init function).length = true := by
  cases m <;> rfl

theorem first_of_live (hlive : m.copies = false) (items : List Value) : m.first init items = init := by
  cases m with
  | reduce => cases hlive
  | _ => rfl

/-- The method ends as its calls do, in some number of rounds. -/
theorem endsWith_run_iff (hfunction : function.isFunction = true) (hsome : m = reduce → s.list a ≠ #[]) {o : Outcome Value} :
    EndsWith (fun e => m.method.run (e.caller depth) (.list a) (m.given init function)) s o ↔
      ∃ rounds,
        EndsWith (fun e => m.callAll a s (m.first init (s.list a).toList) (e.call depth function) rounds []) s o := by
  cases hcopies : m.copies with
  | false =>
    rw [first_of_live hcopies, ← endsWith_rounds_iff (fun rounds => persistent_callAll rounds [])
      (fun h t => callAll_persists h [] t)]
    exact EndsWith.congr fun e => congrFun (run_eq_callAll_of_live hfunction hcopies) s
  | true =>
    have hrun {rounds : Nat} (hrounds : (s.list a).size < rounds) :
        EndsWith (fun e => m.method.run (e.caller depth) (.list a) (m.given init function)) s o ↔
          EndsWith (fun e => m.callAll a s (m.first init (s.list a).toList) (e.call depth function) rounds []) s o :=
      EndsWith.congr fun e => run_eq_callAll_of_copies hfunction hcopies hsome hrounds
    constructor
    · exact fun h => ⟨_, (hrun (Nat.lt_succ_self _)).mp h⟩
    · rintro ⟨rounds, hended, level, hlevel⟩
      refine (hrun (Nat.lt_of_lt_of_le (Nat.lt_succ_self _) (Nat.le_max_right rounds _))).mpr ⟨hended, level, ?_⟩
      have hlevel : m.callAll a s _ _ rounds [] s = o := hlevel
      exact hlevel ▸ (hlevel ▸ hended : Outcome.Ended _).persists (callAll_persists (Nat.le_max_left rounds _) [] s)

end Members

end CallbackMember

section Visits

variable {m : CallbackMember} {a : Address} {depth : Nat} {function init : Value} {s : Store}

/-- A member ends as its calls do. -/
theorem invokes_callback_iff (hdepth : depth < Host.callLimit) (hfunction : function.isFunction = true)
    (hsome : m = .reduce → s.list a ≠ #[]) {o : Outcome Value} :
    Invokes depth (.list a) m.name (m.given init function) s o ↔
      ∃ calls ending o', CallsEndWith m a (depth + 1) function (m.first init (s.list a).toList) s calls ending o' ∧
        o = o'.delegated := by
  rw [invokes_iff rfl (m.find?_name a) (m.accepts_given init function) hdepth]
  constructor
  · rintro ⟨o', hrun, rfl⟩
    obtain ⟨rounds, hcalls⟩ := (CallbackMember.endsWith_run_iff hfunction hsome).mp hrun
    obtain ⟨calls, ending, hends⟩ := CallbackMember.callsEndWith_of_callAll .start hcalls
    exact ⟨calls, ending, o', hends, rfl⟩
  · rintro ⟨calls, ending, o', hends, rfl⟩
    exact ⟨o', (CallbackMember.endsWith_run_iff hfunction hsome).mpr (CallbackMember.callAll_of_callsEndWith hends), rfl⟩

/-- `reduce` has nothing to begin with in an empty list. -/
theorem invokes_reduce_nil (hdepth : depth < Host.callLimit) (hempty : s.list a = #[]) {o : Outcome Value} :
    Invokes depth (.list a) "reduce" [function] s o ↔ o = (Outcome.escaped .noElement s).delegated := by
  have hrun (e : Engine) :
      (Method.sequence .reduce).run (e.caller (depth + 1)) (.list a) [function] s = .escaped .noElement s := by
    have hitems : itemsOf (.list a) s = .done [] s := by
      change Outcome.done (s.list a).toList s = _
      rw [hempty]
    exact bind_of_done hitems
  rw [invokes_iff rfl rfl rfl hdepth]
  constructor
  · rintro ⟨o', hends, rfl⟩
    obtain ⟨rfl, -⟩ := EndsWith.const_iff.mp ((EndsWith.congr hrun).mp hends)
    rfl
  · rintro rfl
    exact ⟨_, (EndsWith.congr hrun).mpr (EndsWith.const_iff.mpr ⟨rfl, nofun⟩), rfl⟩

/-- Whether a member sees the elements that the list had at the call: it has copied them, or the calls leave the list as
it is. -/
def SeesOriginal (m : CallbackMember) (a : Address) (depth : Nat) (function init : Value) (s : Store) : Prop :=
  m.copies = true ∨ ∀ calls t, Reached m a depth function init s calls t → t.list a = s.list a

theorem SeesOriginal.element? (h : SeesOriginal m a depth function init s) {calls : List (Value × Value)} {t : Store}
    (hreached : Reached m a depth function init s calls t) (place : Nat) :
    m.element? a s t place = (m.elements (s.list a).toList)[place]? := by
  unfold CallbackMember.element?
  rcases h with hcopies | hleaves
  · rw [if_pos hcopies]
  · split
    · rfl
    · rw [hleaves calls t hreached]

/-- The elements that the function has been called for are the first ones. -/
theorem SeesOriginal.visited (h : SeesOriginal m a depth function init s) {calls : List (Value × Value)} {t : Store}
    (hreached : Reached m a depth function init s calls t) :
    calls.map Prod.fst = (m.elements (s.list a).toList).take calls.length := by
  induction hreached with
  | start => rfl
  | call before element _ _ ih =>
    rw [h.element? before] at element
    rw [List.map_append, ih, List.length_append, List.length_singleton, List.take_add_one, element]
    rfl

/-- One element more. -/
theorem SeesOriginal.visits (h : SeesOriginal m a depth function init s) {calls : List (Value × Value)} {t : Store}
    {item : Value}
    (hreached : Reached m a depth function init s calls t) (helement : m.element? a s t calls.length = some item) :
    calls.map Prod.fst ++ [item] <+: m.elements (s.list a).toList := by
  rw [h.element? hreached] at helement
  have htake : calls.map Prod.fst ++ [item] = (m.elements (s.list a).toList).take (calls.length + 1) := by
    rw [List.take_add_one, helement, ← h.visited hreached]
    rfl
  exact htake ▸ List.take_prefix _ _

/-- The element that the function is being called for when the calls end. -/
def CallsEnd.pending : CallsEnd → List Value
  | .failed item => [item]
  | .finished | .decided | .refused => []

/-- The elements that the function is called for are the first ones, in order, and all of them if nothing ends the calls
before. -/
theorem SeesOriginal.visits_first (h : SeesOriginal m a depth function init s) {calls : List (Value × Value)}
    {ending : CallsEnd} {o : Outcome Value} (hends : CallsEndWith m a depth function init s calls ending o) :
    calls.map Prod.fst ++ ending.pending <+: m.elements (s.list a).toList ∧
      (ending = .finished → calls.map Prod.fst = m.elements (s.list a).toList) := by
  cases hends with
  | finished reached none =>
    rw [h.element? reached] at none
    have hall : calls.map Prod.fst = m.elements (s.list a).toList := by
      rw [h.visited reached]
      exact List.take_of_length_le (List.getElem?_eq_none_iff.mp none)
    rw [CallsEnd.pending, List.append_nil]
    exact ⟨hall ▸ List.prefix_refl _, fun _ => hall⟩
  | decided reached element run decided =>
    rw [CallsEnd.pending, List.append_nil, List.map_append]
    exact ⟨h.visits reached element, nofun⟩
  | refused reached element run refused =>
    rw [CallsEnd.pending, List.append_nil, List.map_append]
    exact ⟨h.visits reached element, nofun⟩
  | failed reached element run => exact ⟨h.visits reached element, nofun⟩

/-- The calls of a member end if each of them does. -/
theorem SeesOriginal.ends (h : SeesOriginal m a depth function init s)
    (hcalls : ∀ calls t item, Reached m a depth function init s calls t →
      (m.elements (s.list a).toList)[calls.length]? = some item →
      ∃ o, Calls depth function (m.arguments init calls item) t o)
    {calls : List (Value × Value)} {t : Store} (hreached : Reached m a depth function init s calls t) :
    ∃ all ending o, CallsEndWith m a depth function init s all ending o := by
  induction hn : (m.elements (s.list a).toList).length - calls.length generalizing calls t with
  | zero =>
    refine ⟨_, _, _, .finished hreached ?_⟩
    rw [h.element? hreached]
    exact List.getElem?_eq_none (by omega)
  | succ n ih =>
    have hlength : calls.length < (m.elements (s.list a).toList).length := by omega
    have hitem := List.getElem?_eq_getElem hlength
    have helement := (h.element? hreached calls.length).trans hitem
    obtain ⟨o, ho⟩ := hcalls calls t _ hreached hitem
    cases o with
    | done v u =>
      cases hverdict : m.verdict v with
      | goOn => exact ih (.call hreached helement ho hverdict) (by rw [List.length_append, List.length_singleton]; omega)
      | decided => exact ⟨_, _, _, .decided hreached helement ho hverdict⟩
      | refused => exact ⟨_, _, _, .refused hreached helement ho hverdict⟩
    | raised e u => exact ⟨_, _, _, .failed (f := .raised e) hreached helement ho⟩
    | escaped f u => exact ⟨_, _, _, .failed (f := .escaped f) hreached helement ho⟩
    | exhausted u => exact absurd rfl (ho.1 u)

theorem CallsEndWith.decided_by {calls : List (Value × Value)} {o : Outcome Value}
    (h : CallsEndWith m a depth function init s calls .decided o) :
    ∃ last, calls.getLast? = some last ∧
      ((m = .any ∧ last.2 = .bool true) ∨ (m = .every ∧ last.2 = .bool false)) := by
  cases h with
  | @decided _ _ item v _ _ _ _ decided =>
    refine ⟨_, List.getLast?_concat, ?_⟩
    cases m with
    | any =>
      cases v with
      | bool hit => cases hit <;> first | exact .inl ⟨rfl, rfl⟩ | cases decided
      | _ => cases decided
    | every =>
      cases v with
      | bool hit => cases hit <;> first | exact .inr ⟨rfl, rfl⟩ | cases decided
      | _ => cases decided
    | where_ => cases v <;> cases decided
    | _ => cases decided

/-- A member that calls a function for the elements of a list ends as these calls do, except that `reduce` fails on an empty
list. If it copies the list, as `forEach` and `reduce` do, or if the calls leave the list as it is, then the function is
called for the elements that the list had, in order and for each of them once, unless a result decides the answer before or
a call fails; and the member ends if each call does. -/
theorem callbacks_visit_elements (hdepth : depth < Host.callLimit) (hfunction : function.isFunction = true) :
    let items := (s.list a).toList
    let first := m.first init items
    (m = .reduce → items = [] → ∀ o,
      Invokes depth (.list a) m.name (m.given init function) s o ↔ o = (Outcome.escaped .noElement s).delegated) ∧
    ((m = .reduce → items ≠ []) →
      (∀ o, Invokes depth (.list a) m.name (m.given init function) s o ↔
        ∃ calls ending o', CallsEndWith m a (depth + 1) function first s calls ending o' ∧ o = o'.delegated) ∧
      (SeesOriginal m a (depth + 1) function first s →
        (∀ calls ending o, CallsEndWith m a (depth + 1) function first s calls ending o →
          calls.map Prod.fst ++ ending.pending <+: m.elements items ∧
            (ending = .finished → calls.map Prod.fst = m.elements items ∧
              (m = .map → (calls.map Prod.snd).length = items.length ∧ ∃ t, o = newIterable (calls.map Prod.snd) t)) ∧
            (ending = .decided → ∃ last, calls.getLast? = some last ∧
              ((m = .any ∧ last.2 = .bool true) ∨ (m = .every ∧ last.2 = .bool false)))) ∧
        ((∀ calls t item, Reached m a (depth + 1) function first s calls t → (m.elements items)[calls.length]? = some item →
            ∃ o, Calls (depth + 1) function (m.arguments first calls item) t o) →
          ∃ o, Invokes depth (.list a) m.name (m.given init function) s o))) := by
  intro items first
  refine ⟨?empty, fun hitems => ?visits⟩
  case empty =>
    rintro rfl hempty o
    exact invokes_reduce_nil hdepth (Array.toList_eq_nil_iff.mp hempty)
  case visits =>
    have hsome : m = .reduce → s.list a ≠ #[] := fun hm hempty => hitems hm (Array.toList_eq_nil_iff.mpr hempty)
    refine ⟨fun o => invokes_callback_iff hdepth hfunction hsome,
      fun hsees => ⟨fun calls ending o hends => ?_, fun hcalls => ?_⟩⟩
    · obtain ⟨hfirsts, hall⟩ := hsees.visits_first hends
      refine ⟨hfirsts, fun hfinished => ⟨hall hfinished, ?_⟩, fun hdecided => ?_⟩
      · rintro rfl
        have hlength : (calls.map Prod.snd).length = items.length := by
          rw [List.length_map, ← List.length_map (f := Prod.fst), hall hfinished]
          rfl
        subst hfinished
        cases hends with
        | finished reached none => exact ⟨hlength, _, rfl⟩
      · subst hdecided
        exact hends.decided_by
    · obtain ⟨calls, ending, o, hends⟩ := hsees.ends hcalls .start
      exact ⟨_, (invokes_callback_iff hdepth hfunction hsome).mpr ⟨calls, ending, o, hends, rfl⟩⟩

end Visits

end

/-- Printing is mapped over the two elements of a list. -/
theorem callbacks_visit_elements_printing :
    let s : Store := { Store.initial with lists := #[#[.int 3, .int 1]] }
    ∃ calls o, CallsEndWith .map 0 1 (.native 1) .null s calls .finished o ∧ calls.map Prod.fst = [.int 3, .int 1] := by
  intro s
  have hvisited {t : Store} (h : t.lists = s.lists) {place : Nat} {item : Value}
      (hitem : CallbackMember.element? .map 0 s t place = some item) : item ∈ [Value.int 3, .int 1] := by
    have hlist : t.list 0 = #[.int 3, .int 1] := by rw [Store.list, h]; rfl
    have helements : (t.list 0).toList = [Value.int 3, .int 1] := by rw [hlist]
    exact helements ▸ List.mem_of_getElem? hitem
  have hprint {t : Store} (h : t.natives = s.natives) {item : Value} (hitem : item ∈ [Value.int 3, .int 1]) :
      Calls 1 (.native 1) [item] t (.done .null { t with output := t.output ++ item.text t ++ "\n" }) := by
    have hnative : t.natives[1]? = some ⟨"print", .print⟩ := by rw [h]; rfl
    have hwritten : textOf item t = .done (item.text t) t := by
      refine textOf_eq_done ?_
      rcases List.mem_pair.mp hitem with rfl | rfl <;> rw [Value.refusal?_int] <;> rfl
    have hrun (c : Caller) : NativeCode.print.run c [item] t =
        .done .null { t with output := t.output ++ item.text t ++ "\n" } := by
      change Action.bind (textOf item) _ t = _
      rw [Action.bind, hwritten]
      rfl
    refine ⟨by rintro _ ⟨⟩, 1, ?_⟩
    simp only [interpreter, callValue, hnative]
    change delegate (NativeCode.print.run _ [item]) t = _
    rw [delegate_apply, hrun]
    rfl
  have hreached {calls : List (Value × Value)} {t : Store} (h : Reached .map 0 1 (.native 1) .null s calls t) :
      t.natives = s.natives ∧ t.lists = s.lists := by
    induction h with
    | start => exact ⟨rfl, rfl⟩
    | call _ element run _ ih =>
      have hitem := hvisited ih.2 element
      obtain ⟨rfl, rfl⟩ := Outcome.done.inj (run.unique (.call 1 (.native 1) _) (hprint ih.1 hitem))
      exact ih
  obtain ⟨hends, hvisits⟩ := (callbacks_visit_elements (m := .map) (a := 0) (s := s)
    (show 0 < Host.callLimit by decide) (show (Value.native 1).isFunction = true from rfl)).2 (by rintro ⟨⟩)
  obtain ⟨hfirst, hdone⟩ := hvisits (.inr fun calls t h => by rw [Store.list, (hreached h).2, Store.list])
  obtain ⟨o, ho⟩ := hdone fun calls t item h helement => ⟨_, hprint (hreached h).1 (List.mem_of_getElem? helement)⟩
  obtain ⟨calls, ending, o', hcalls, -⟩ := (hends o).mp ho
  cases hcalls with
  | finished reached none => exact ⟨calls, _, .finished reached none, ((hfirst _ _ _ (.finished reached none)).2.1 rfl).1⟩
  | decided _ _ _ decided => cases decided
  | refused _ _ _ refused => cases refused
  | failed reached element run =>
    exact absurd (run.unique (.call 1 (.native 1) _) (hprint (hreached reached).1 (hvisited (hreached reached).2 element))) (Failure.outcome_ne_done _)

end Dartlet
