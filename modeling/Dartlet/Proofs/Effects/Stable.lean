import Dartlet.Eval.Engine
import Dartlet.Proofs.Effects.Ensures
import Dartlet.Proofs.Effects.Keys

/-!
# Properties that ordinary work leaves alone

Most of what a program does concerns data: lists, sets, maps, objects, texts. A property of stores
is stable if changes of data that put no equal keys into a set or a map cannot break it, and raising an
ordinary error cannot either. The primitive actions, the operators and the checks of arguments keep every
stable property.
-/

namespace Dartlet

set_option linter.unusedSectionVars false

variable [Host]

/-- The errors that any construct may raise. The others come from jumps without a target and from
constructs that are read but not run. -/
def Fault.isOrdinary : Fault → Bool
  | .unsupported _ | .rethrowOutsideCatch | .jumpOutsideLoop _ => false
  | .mismatch (.unknownUnary _) => false
  | _ => true

/-- The causes of all errors raised so far, in order. -/
def Store.faults (s : Store) : List Fault := s.errors.toList.map ErrorRecord.fault

@[simp] theorem Store.faults_addError (s : Store) (f : Fault) :
    (s.addError f).2.faults = s.faults ++ [f] := by
  simp [Store.faults, Store.addError]

theorem Store.fault_addError (s : Store) (f : Fault) : (s.addError f).2.fault s.errors.size = f := by
  simp [Store.fault, Store.addError]

theorem Store.faults_modifyError (s : Store) (a : Address) {f : ErrorRecord → ErrorRecord}
    (hf : ∀ e, (f e).fault = e.fault) : (s.modifyError a f).faults = s.faults := by
  simp only [Store.faults, Store.modifyError]
  apply List.ext_getElem
  · simp
  · intro i h₁ h₂
    simp only [List.getElem_map, Array.getElem_toList, Array.getElem_modify]
    split
    · exact hf _
    · rfl

/-- Two stores that differ in data alone, where the second has equal keys only if the first has. -/
structure Store.SameButData (s t : Store) : Prop where
  scopes : t.scopes = s.scopes
  closures : t.closures = s.closures
  faults : t.faults = s.faults
  keys : s.DistinctKeys → t.DistinctKeys

theorem Store.sameButData_modifyError (s : Store) (a : Address) {f : ErrorRecord → ErrorRecord}
    (hf : ∀ e, (f e).fault = e.fault) : s.SameButData (s.modifyError a f) :=
  ⟨rfl, rfl, s.faults_modifyError a hf, .of_same rfl rfl⟩

theorem Store.sameButData_locate (s : Store) (a : Address) (location : Syntax.Location) :
    s.SameButData (s.locate a location) := by
  cases location with
  | none => exact ⟨rfl, rfl, rfl, id⟩
  | some p =>
    apply s.sameButData_modifyError
    intro e
    split <;> rfl

/-- A property of stores that work on data and ordinary errors do not break. -/
structure Stable (I : Store → Prop) : Prop where
  data : ∀ {s t : Store}, s.SameButData t → I s → I t
  raising : ∀ {s : Store} {f : Fault}, f.isOrdinary = true → I s → I (s.addError f).2

namespace Stable

open Dartlet.Action

variable {α : Type} {I : Store → Prop} {Q : α → Prop}

theorem fail (hI : Stable I) {f : Fault} (hf : f.isOrdinary = true) :
    Ensures I Q (Action.fail f : Action α) :=
  ensures_fail (fun _ hs => hI.raising hf hs)

theorem mismatch (hI : Stable I) {m : Mismatch} (hm : (Fault.mismatch m).isOrdinary = true) :
    Ensures I Q (Action.mismatch m : Action α) :=
  hI.fail hm

/-- A complaint whose wording depends on the store. -/
theorem complaint (hI : Stable I) {m : Store → Mismatch}
    (hm : ∀ s, (Fault.mismatch (m s)).isOrdinary = true) :
    Ensures I Q (fun s => (Action.mismatch (m s) : Action α) s) :=
  fun s hs => hI.mismatch (hm s) s hs

theorem modify (hI : Stable I) {f : Store → Store} (hf : ∀ s : Store, s.SameButData (f s)) :
    Keeps I (Action.modify f) :=
  keeps_modify (fun s hs => hI.data (hf s) hs)

theorem update (hI : Stable I) {f : Store → α × Store} (hf : ∀ s : Store, s.SameButData (f s).2) :
    Keeps I (Action.update f) :=
  ensures_update (fun s hs => ⟨trivial, hI.data (hf s) hs⟩)

theorem delegate (hI : Stable I) {x : Action α} (h : Ensures I Q x) : Ensures I Q (Action.delegate x) :=
  h.delegate (fun _ _ hs => hI.raising rfl hs)

theorem guardNesting (hI : Stable I) {x : Action α} (h : Ensures I Q x) :
    Ensures I Q (Action.guardNesting x) :=
  h.guardNesting (fun _ hs => hI.raising rfl hs)

theorem newList (hI : Stable I) (items : Array Value) : Keeps I (Action.newList items) :=
  hI.update (fun _ => ⟨rfl, rfl, rfl, .of_same rfl rfl⟩)

theorem newIterable (hI : Stable I) (items : List Value) : Keeps I (Action.newIterable items) :=
  hI.update (fun _ => ⟨rfl, rfl, rfl, .of_same rfl rfl⟩)

theorem newSet (hI : Stable I) {members : List Value} (h : Members.Distinct members) :
    Keeps I (Action.newSet members) :=
  hI.update (fun _ => ⟨rfl, rfl, rfl, fun hs => hs.addSet h⟩)

theorem newMap (hI : Stable I) {entries : List (Value × Value)} (h : Entries.Distinct entries) :
    Keeps I (Action.newMap entries) :=
  hI.update (fun _ => ⟨rfl, rfl, rfl, fun hs => hs.addMap h⟩)

theorem newNative (hI : Stable I) (name : String) (code : NativeCode) :
    Keeps I (Action.newNative name code) :=
  hI.update (fun _ => ⟨rfl, rfl, rfl, .of_same rfl rfl⟩)

end Stable

/-! ### Actions that only look -/

/-- How an action ends that fails only in the store in which it begins, apart from a new ordinary error. If it has a
result, the store that it leaves has a property. -/
inductive Outcome.FailsIn {α : Type} (s : Store) (P : Store → Prop) : Outcome α → Prop where
  | done {a : α} {t : Store} (left : P t) : FailsIn s P (.done a t)
  | raised {f : Fault} (ordinary : f.isOrdinary = true) : FailsIn s P (.raised s.errors.size (s.addError f).2)
  | escaped (f : HostFailure) : FailsIn s P (.escaped f s)

namespace Action

variable {α β : Type} {I : Store → Prop} {x : Action α}

/-- An action that only looks at the store: with a result, it leaves the store as it is. -/
def Inspects (x : Action α) : Prop := ∀ s, (x s).FailsIn s (· = s)

/-- An action that changes the store only when nothing can fail any more. -/
def ChangesLast (x : Action α) : Prop := ∀ s, (x s).FailsIn s (fun _ => True)

theorem bind_failsIn {P : Store → Prop} {f : α → Action β} {s : Store} (hx : Inspects x)
    (hf : ∀ a, (f a s).FailsIn s P) : ((x >>= f) s).FailsIn s P := by
  have h := hx s
  change (Action.bind x f s).FailsIn s P
  unfold Action.bind
  generalize x s = o at h
  cases h with
  | @done a t same =>
    obtain rfl : t = s := same
    exact hf a
  | raised ordinary => exact .raised ordinary
  | escaped f => exact .escaped f

theorem inspects_pure (a : α) : Inspects (pure a) := fun _ => .done rfl

theorem inspects_get : Inspects get := fun _ => .done rfl

theorem inspects_escape (f : HostFailure) : Inspects (escape f : Action α) := fun _ => .escaped f

theorem inspects_fail {f : Fault} (hf : f.isOrdinary = true) : Inspects (fail f : Action α) := fun _ => .raised hf

/-- A complaint whose wording depends on the store. -/
theorem inspects_complaint {m : Store → Mismatch} (hm : ∀ s, (Fault.mismatch (m s)).isOrdinary = true) :
    Inspects (fun s => (mismatch (m s) : Action α) s) :=
  fun s => .raised (hm s)

theorem Inspects.bind {f : α → Action β} (hx : Inspects x) (hf : ∀ a, Inspects (f a)) : Inspects (x >>= f) :=
  fun s => bind_failsIn hx fun a => hf a s

theorem Inspects.ite {p : Prop} [Decidable p] {y : Action α} (hx : Inspects x) (hy : Inspects y) :
    Inspects (if p then x else y) := by
  split
  · exact hx
  · exact hy

theorem Inspects.keeps (hI : Stable I) (h : Inspects x) : Keeps I x := by
  intro s hs
  have hx := h s
  generalize x s = o at hx
  cases hx with
  | @done a t same =>
    obtain rfl : t = s := same
    exact ⟨trivial, hs⟩
  | raised ordinary => exact hI.raising ordinary hs
  | escaped f => exact hs

/-- A value is written, or the host refuses to write it. -/
theorem textOf_cases (v : Value) (s : Store) :
    v.refusal? s = none ∧ textOf v s = .done (v.text s) s ∨ ∃ f, v.refusal? s = some f ∧ textOf v s = .escaped f s := by
  unfold textOf
  cases v.refusal? s with
  | none => exact .inl ⟨rfl, rfl⟩
  | some f => exact .inr ⟨f, rfl, rfl⟩

theorem textsOf_cases (vs : List Value) (s : Store) :
    vs.findSome? (Value.refusal? s) = none ∧ textsOf vs s = .done (vs.map (Value.text s)) s ∨
      ∃ f, vs.findSome? (Value.refusal? s) = some f ∧ textsOf vs s = .escaped f s := by
  unfold textsOf
  cases vs.findSome? (Value.refusal? s) with
  | none => exact .inl ⟨rfl, rfl⟩
  | some f => exact .inr ⟨f, rfl, rfl⟩

theorem textOf_eq_done {v : Value} {s : Store} (h : v.refusal? s = none) : textOf v s = .done (v.text s) s := by
  rw [textOf, h]

theorem textOf_eq_escaped {v : Value} {s : Store} {f : HostFailure} (h : v.refusal? s = some f) :
    textOf v s = .escaped f s := by
  rw [textOf, h]

theorem textsOf_eq_done {vs : List Value} {s : Store} (h : ∀ v ∈ vs, v.refusal? s = none) :
    textsOf vs s = .done (vs.map (Value.text s)) s := by
  rw [textsOf, List.findSome?_eq_none_iff.mpr h]

theorem inspects_textOf (v : Value) : Inspects (textOf v) := fun s => by
  rcases textOf_cases v s with ⟨-, h⟩ | ⟨f, -, h⟩ <;> rw [h]
  · exact .done rfl
  · exact .escaped f

theorem inspects_textsOf (vs : List Value) : Inspects (textsOf vs) := fun s => by
  rcases textsOf_cases vs s with ⟨-, h⟩ | ⟨f, -, h⟩ <;> rw [h]
  · exact .done rfl
  · exact .escaped f

theorem keeps_textOf (v : Value) : Keeps I (textOf v) := fun s hs => by
  rcases textOf_cases v s with ⟨-, h⟩ | ⟨f, -, h⟩ <;> rw [h]
  · exact ⟨trivial, hs⟩
  · exact hs

theorem keeps_textsOf (vs : List Value) : Keeps I (textsOf vs) := fun s hs => by
  rcases textsOf_cases vs s with ⟨-, h⟩ | ⟨f, -, h⟩ <;> rw [h]
  · exact ⟨trivial, hs⟩
  · exact hs

/-- A computation without effects that, if it fails, fails outside the language or with an ordinary
error. -/
def Ordinarily (r : Except Trouble α) : Prop := ∀ f, r = .error (.fault f) → f.isOrdinary = true

theorem ordinarily_ok (a : α) : Ordinarily (.ok a) := fun _ h => nomatch h

theorem ordinarily_failure (f : HostFailure) : Ordinarily (.error (.failure f) : Except Trouble α) :=
  fun _ h => nomatch h

theorem ordinarily_fault {f : Fault} (hf : f.isOrdinary = true) :
    Ordinarily (.error (.fault f) : Except Trouble α) := by
  rintro g ⟨⟩
  exact hf

theorem Ordinarily.map {r : Except Trouble α} (h : Ordinarily r) (g : α → β) : Ordinarily (r.map g) := by
  cases r with
  | ok a => exact ordinarily_ok (g a)
  | error t =>
    rintro f ⟨⟩
    exact h f rfl

theorem Ordinarily.bind {r : Except Trouble α} {g : α → Except Trouble β} (h : Ordinarily r)
    (hg : ∀ a, Ordinarily (g a)) : Ordinarily (r >>= g) := by
  cases r with
  | ok a => exact hg a
  | error t =>
    rintro f ⟨⟩
    exact h f rfl

end Action

theorem Stable.ofExcept {α : Type} {I : Store → Prop} (hI : Stable I) {r : Except Trouble α}
    (h : Action.Ordinarily r) : Action.Keeps I (Action.ofExcept r) := by
  cases r with
  | ok a => exact Action.keeps_pure a
  | error t =>
    cases t with
    | fault f => exact hI.fail (h f rfl)
    | failure f => exact Action.ensures_escape f

open Dartlet.Action

namespace Numeral

theorem ordinarily_toDouble (n : Numeral) : Ordinarily n.toDouble := by
  cases n with
  | double x => exact ordinarily_ok x
  | int n =>
    simp only [toDouble]
    split
    · exact ordinarily_ok _
    · exact ordinarily_failure _

/-- Two numbers as doubles, for an operation that cannot fail on doubles otherwise. -/
theorem ordinarily_both {γ : Type} (a b : Numeral) {g : Float → Float → Except Trouble γ}
    (hg : ∀ x y, Ordinarily (g x y)) :
    Ordinarily (do
      let x ← a.toDouble
      let y ← b.toDouble
      g x y) :=
  a.ordinarily_toDouble.bind (fun x => b.ordinarily_toDouble.bind (hg x))

theorem ordinarily_combine (exact : Int → Int → Int) (rounded : Float → Float → Float) (a b : Numeral) :
    Ordinarily (a.combine exact rounded b) := by
  unfold combine
  split
  · exact ordinarily_ok _
  · exact ordinarily_both _ _ (fun x y => ordinarily_ok _)

theorem ordinarily_divide (a b : Numeral) : Ordinarily (a.divide b) := by
  unfold divide
  split
  · split
    · exact ordinarily_ok _
    · refine ordinarily_both a b (fun x y => ?_)
      split
      · exact ordinarily_ok _
      · exact ordinarily_ok _
  · split
    · split
      · exact ordinarily_ok _
      · exact ordinarily_failure _
    · exact ordinarily_both _ _ (fun x y => ordinarily_ok _)

theorem ordinarily_truncDivide (a b : Numeral) : Ordinarily (a.truncDivide b) := by
  unfold truncDivide
  split
  · split
    · exact ordinarily_fault rfl
    · exact ordinarily_ok _
  · refine (ordinarily_divide _ _).bind (fun x => ?_)
    split
    · exact ordinarily_ok _
    · exact ordinarily_fault rfl

theorem ordinarily_remainder (a b : Numeral) : Ordinarily (a.remainder b) := by
  unfold remainder
  split
  · split
    · exact ordinarily_fault rfl
    · exact ordinarily_ok _
  · split
    · exact ordinarily_ok _
    · refine (ordinarily_toDouble _).bind (fun x => ?_)
      split
      · exact ordinarily_ok _
      · exact (ordinarily_toDouble _).bind (fun y => ordinarily_ok _)

end Numeral

theorem ordinarily_repeatText (text : String) (count : Int) : Ordinarily (repeatText text count) := by
  unfold repeatText
  repeat' split
  all_goals first | exact ordinarily_failure _ | exact ordinarily_ok _

theorem ordinarily_numeric? {op : Syntax.BinaryOp} {a b : Numeral} {r : Except Trouble Value}
    (h : numeric? op a b = some r) : Ordinarily r := by
  cases op <;> simp only [numeric?, Option.some.injEq, reduceCtorEq] at h <;> subst h
  case add => exact (Numeral.ordinarily_combine _ _ a b).map _
  case sub => exact (Numeral.ordinarily_combine _ _ a b).map _
  case mul => exact (Numeral.ordinarily_combine _ _ a b).map _
  case div => exact (Numeral.ordinarily_divide a b).map _
  case truncDiv => exact (Numeral.ordinarily_truncDivide a b).map _
  case rem => exact (Numeral.ordinarily_remainder a b).map _
  all_goals exact ordinarily_ok _

theorem ordinarily_binaryResult (s : Store) (op : Syntax.BinaryOp) (left right : Value) :
    Ordinarily (binaryResult s op left right) := by
  unfold binaryResult
  dsimp only
  split
  · exact ordinarily_ok _
  · exact ordinarily_ok _
  · exact ordinarily_ok _
  · exact (ordinarily_repeatText _ _).map _
  · split
    · rename_i a b _ _
      cases h : numeric? op a b with
      | some r => exact ordinarily_numeric? h
      | none => exact ordinarily_fault rfl
    · exact ordinarily_fault rfl

/-- An operator of the language fails on a value of the wrong type only; one that the language does
not have fails by itself. -/
theorem ordinarily_unaryResult (s : Store) {op : Syntax.UnaryOp} (operand : Value)
    (hop : op = .negate ∨ op = .not) : Ordinarily (unaryResult s op operand) := by
  rcases hop with rfl | rfl
  · cases operand <;> first | exact ordinarily_ok _ | exact ordinarily_fault rfl
  · cases operand <;> first | exact ordinarily_ok _ | exact ordinarily_fault rfl

namespace Action

variable (method context : String) (v : Value)

theorem inspects_requireBool : Inspects (requireBool v context) := by
  intro s
  cases v with
  | bool b => exact inspects_pure b s
  | _ => exact .raised rfl

theorem inspects_requireNumber : Inspects (requireNumber v context) :=
  (inspects_pure ()).ite (inspects_complaint fun _ => rfl)

theorem inspects_checkArity (label : Option String) (arity : Arity) (count : Nat) :
    Inspects (checkArity label arity count) :=
  (inspects_pure ()).ite (inspects_fail rfl)

theorem inspects_intArgument : Inspects (intArgument method v) := by
  intro s
  cases v with
  | int n => exact inspects_pure n s
  | _ => exact .raised rfl

theorem inspects_numArgument : Inspects (numArgument method v) :=
  (inspects_pure ()).ite (inspects_complaint fun _ => rfl)

theorem inspects_stringArgument : Inspects (stringArgument method v) := by
  intro s
  cases v with
  | string t => exact inspects_pure t s
  | _ => exact .raised rfl

theorem inspects_functionArgument : Inspects (functionArgument method v) :=
  (inspects_pure ()).ite (inspects_complaint fun _ => rfl)

theorem inspects_boolResult : Inspects (boolResult method v) := by
  intro s
  cases v with
  | bool b => exact inspects_pure b s
  | _ => exact .raised rfl

theorem inspects_itemsOf : Inspects (itemsOf v) := by
  intro s
  cases v with
  | list a => exact .done rfl
  | iterable a => exact .done rfl
  | set a => exact .done rfl
  | _ => exact .raised rfl

theorem inspects_stopArgument (arguments : List Value) (length : Nat) :
    Inspects (stopArgument method arguments length) := by
  unfold stopArgument
  split
  · exact inspects_pure _
  · exact inspects_pure _
  · exact inspects_intArgument method _

theorem inspects_checkIndex (length : Nat) (index : Int) : Inspects (checkIndex length index) :=
  (inspects_pure _).ite ((inspects_escape _).ite (inspects_escape _))

theorem inspects_checkRange (length : Nat) (start stop : Int) : Inspects (checkRange length start stop) :=
  (inspects_escape _).ite ((inspects_escape _).ite (inspects_pure _))

end Action

namespace Stable

variable {I : Store → Prop}

theorem requireBool (hI : Stable I) (v : Value) (context : String) : Keeps I (Action.requireBool v context) :=
  (inspects_requireBool context v).keeps hI

theorem requireNumber (hI : Stable I) (v : Value) (context : String) : Keeps I (Action.requireNumber v context) :=
  (inspects_requireNumber context v).keeps hI

theorem applyBinary (hI : Stable I) (op : Syntax.BinaryOp) (left right : Value) :
    Keeps I (Action.applyBinary op left right) :=
  fun s hs => hI.ofExcept (ordinarily_binaryResult s op left right) s hs

theorem checkArity (hI : Stable I) (label : Option String) (arity : Arity) (count : Nat) :
    Keeps I (Action.checkArity label arity count) :=
  (inspects_checkArity label arity count).keeps hI

theorem intArgument (hI : Stable I) (method : String) (v : Value) : Keeps I (Action.intArgument method v) :=
  (inspects_intArgument method v).keeps hI

theorem numArgument (hI : Stable I) (method : String) (v : Value) : Keeps I (Action.numArgument method v) :=
  (inspects_numArgument method v).keeps hI

theorem stringArgument (hI : Stable I) (method : String) (v : Value) : Keeps I (Action.stringArgument method v) :=
  (inspects_stringArgument method v).keeps hI

theorem functionArgument (hI : Stable I) (method : String) (v : Value) : Keeps I (Action.functionArgument method v) :=
  (inspects_functionArgument method v).keeps hI

theorem boolResult (hI : Stable I) (method : String) (v : Value) : Keeps I (Action.boolResult method v) :=
  (inspects_boolResult method v).keeps hI

theorem itemsOf (hI : Stable I) (v : Value) : Keeps I (Action.itemsOf v) := (inspects_itemsOf v).keeps hI

theorem stopArgument (hI : Stable I) (method : String) (arguments : List Value) (length : Nat) :
    Keeps I (Action.stopArgument method arguments length) :=
  (inspects_stopArgument method arguments length).keeps hI

end Stable

theorem keeps_checkIndex {I : Store → Prop} (length : Nat) (index : Int) :
    Keeps I (Action.checkIndex length index) :=
  ensures_ite (fun _ => keeps_pure _)
    (fun _ => ensures_ite (fun _ => ensures_escape _) (fun _ => ensures_escape _))

theorem keeps_checkRange {I : Store → Prop} (length : Nat) (start stop : Int) :
    Keeps I (Action.checkRange length start stop) :=
  ensures_ite (fun _ => ensures_escape _)
    (fun _ => ensures_ite (fun _ => ensures_escape _) (fun _ => keeps_pure _))

end Dartlet
