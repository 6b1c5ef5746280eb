import Dartlet.Proofs.Parallel.Reading

/-!
# Operators in parallel

An operator gives the same for corresponding operands: a value without an address, an error whose
cause mentions no value, or one of the few failures outside the language that operators have.
-/

namespace Dartlet

set_option linter.unusedSectionVars false

variable [Host]

/-- The failures outside the language that no error of the language stands for: they leave the
evaluator as they are. -/
def HostFailure.isEscaping : HostFailure → Bool
  | intTooLarge | quotientTooLarge | countTooLarge | textTooLong | noRoom | lengthyNumber _ | unhashable _ | notCallable _
  | endlessNesting => true
  | _ => false

namespace Fault

/-- A cause that mentions no value, other than a `rethrow` without a clause. -/
def isClosed : Fault → Bool
  | noMember .. | thrown .. | rethrowOutsideCatch => false
  | _ => true

theorem shift_of_isClosed (σ : Shifts) {f : Fault} (h : f.isClosed = true) : f.shift σ = f := by
  cases f with
  | noMember receiver typeName name => cases h
  | thrown value shown => cases h
  | _ => rfl

theorem known_of_isClosed {K : Value → Prop} {f : Fault} (h : f.isClosed = true) : f.Known K := by
  cases f <;> trivial

theorem ne_of_isClosed {f : Fault} (h : f.isClosed = true) : f ≠ .rethrowOutsideCatch := by
  rintro rfl
  cases h

end Fault

/-- The trouble that operators may have. -/
def Trouble.isCommon : Trouble → Bool
  | .fault f => f.isClosed
  | .failure f => f.isEscaping

/-- A computation that, if it fails, fails in a given way. -/
def Troubled {ε α : Type} (P : ε → Prop) (r : Except ε α) : Prop := ∀ f, r = .error f → P f

namespace Troubled

variable {ε α β : Type} {P P' : ε → Prop}

theorem ok (a : α) : Troubled P (.ok a) := nofun

theorem error {f : ε} (h : P f) : Troubled P (.error f : Except ε α) := by
  rintro g ⟨⟩
  exact h

theorem mono {r : Except ε α} (h : Troubled P r) (hP : ∀ f, P f → P' f) : Troubled P' r := fun f hf => hP f (h f hf)

theorem map {r : Except ε α} (h : Troubled P r) (g : α → β) : Troubled P (r.map g) := by
  cases r with
  | ok a => exact ok (g a)
  | error f => exact error (h f rfl)

theorem bind {r : Except ε α} {g : α → Except ε β} (h : Troubled P r) (hg : ∀ a, Troubled P (g a)) :
    Troubled P (r >>= g) := by
  cases r with
  | ok a => exact hg a
  | error f => exact error (h f rfl)

theorem mapM {f : α → Except ε β} (h : ∀ x, Troubled P (f x)) (xs : List α) : Troubled P (xs.mapM f) := by
  induction xs with
  | nil => exact ok []
  | cons x rest ih =>
    rw [List.mapM_cons]
    exact (h x).bind (fun y => ih.bind (fun ys => ok _))

theorem foldlM {f : β → α → Except ε β} (h : ∀ b x, Troubled P (f b x)) (xs : List α) (b : β) :
    Troubled P (xs.foldlM f b) := by
  induction xs generalizing b with
  | nil => exact ok b
  | cons x rest ih =>
    rw [List.foldlM_cons]
    exact (h b x).bind ih

end Troubled

/-- A computation that, if it fails, fails the way operators do. -/
abbrev Commonly {α : Type} (r : Except Trouble α) : Prop := Troubled (fun f => f.isCommon = true) r

namespace Numeral

theorem commonly_toDouble (n : Numeral) : Commonly n.toDouble := by
  cases n with
  | double x => exact .ok x
  | int n =>
    simp only [toDouble]
    split
    · exact .ok _
    · exact .error rfl

/-- Two numbers as doubles, for an operation on doubles. -/
theorem commonly_both {γ : Type} (a b : Numeral) {g : Float → Float → Except Trouble γ}
    (hg : ∀ x y, Commonly (g x y)) :
    Commonly (do
      let x ← a.toDouble
      let y ← b.toDouble
      g x y) :=
  a.commonly_toDouble.bind (fun x => b.commonly_toDouble.bind (hg x))

theorem commonly_combine (exact : Int → Int → Int) (rounded : Float → Float → Float) (a b : Numeral) :
    Commonly (a.combine exact rounded b) := by
  unfold combine
  split
  · exact .ok _
  · exact commonly_both _ _ (fun x y => .ok _)

theorem commonly_divide (a b : Numeral) : Commonly (a.divide b) := by
  unfold divide
  split
  · split
    · exact .ok _
    · refine commonly_both a b (fun x y => ?_)
      split
      · exact .ok _
      · exact .ok _
  · split
    · split
      · exact .ok _
      · exact .error rfl
    · exact commonly_both _ _ (fun x y => .ok _)

theorem commonly_truncDivide (a b : Numeral) : Commonly (a.truncDivide b) := by
  unfold truncDivide
  split
  · split
    · exact .error rfl
    · exact .ok _
  · refine (commonly_divide _ _).bind (fun x => ?_)
    split
    · exact .ok _
    · exact .error rfl

theorem commonly_remainder (a b : Numeral) : Commonly (a.remainder b) := by
  unfold remainder
  split
  · split
    · exact .error rfl
    · exact .ok _
  · split
    · exact .ok _
    · refine (commonly_toDouble _).bind (fun x => ?_)
      split
      · exact .ok _
      · exact (commonly_toDouble _).bind (fun y => .ok _)

end Numeral

theorem commonly_repeatText (text : String) (count : Int) : Commonly (repeatText text count) := by
  unfold repeatText
  repeat' split
  all_goals first | exact .error rfl | exact .ok _

open Comparison (Gives)

/-- What an operator on numbers gives is a value without an address. -/
theorem numeric?_plain {op : Syntax.BinaryOp} {a b : Numeral} {r : Except Trouble Value} (h : numeric? op a b = some r) :
    Gives (fun v => v.isPlain = true) r ∧ Commonly r := by
  have hvalue (r : Except Trouble Numeral) : Gives (fun v => v.isPlain = true) (r.map Numeral.toValue) :=
    Gives.map (P := fun _ => True) (fun _ _ => trivial) (fun n _ => n.isPlain_toValue)
  cases op <;> simp only [numeric?, Option.some.injEq, reduceCtorEq] at h <;> subst h
  case add => exact ⟨hvalue _, (Numeral.commonly_combine _ _ a b).map _⟩
  case sub => exact ⟨hvalue _, (Numeral.commonly_combine _ _ a b).map _⟩
  case mul => exact ⟨hvalue _, (Numeral.commonly_combine _ _ a b).map _⟩
  case div =>
    exact ⟨Gives.map (P := fun _ => True) (fun _ _ => trivial) (fun _ _ => rfl), (Numeral.commonly_divide a b).map _⟩
  case truncDiv =>
    exact ⟨Gives.map (P := fun _ => True) (fun _ _ => trivial) (fun _ _ => rfl),
      (Numeral.commonly_truncDivide a b).map _⟩
  case rem => exact ⟨hvalue _, (Numeral.commonly_remainder a b).map _⟩
  all_goals exact ⟨Gives.ok rfl, .ok _⟩

theorem binaryResult_plain (s : Store) (op : Syntax.BinaryOp) (left right : Value) :
    Gives (fun v => v.isPlain = true) (binaryResult s op left right) ∧ Commonly (binaryResult s op left right) := by
  unfold binaryResult
  dsimp only
  split
  · exact ⟨Gives.ok rfl, .ok _⟩
  · exact ⟨Gives.ok rfl, .ok _⟩
  · exact ⟨Gives.ok rfl, .ok _⟩
  · exact ⟨Gives.map (P := fun _ => True) (fun _ _ => trivial) (fun _ _ => rfl), (commonly_repeatText _ _).map _⟩
  · split
    · rename_i a b _ _
      cases h : numeric? op a b with
      | some r => exact numeric?_plain h
      | none => exact ⟨Gives.error _, .error rfl⟩
    · exact ⟨Gives.error _, .error rfl⟩

theorem unaryResult_plain (s : Store) (op : Syntax.UnaryOp) (operand : Value) :
    Gives (fun v => v.isPlain = true) (unaryResult s op operand) ∧ Commonly (unaryResult s op operand) := by
  unfold unaryResult
  split
  · split
    · exact ⟨Gives.ok rfl, .ok _⟩
    · exact ⟨Gives.ok rfl, .ok _⟩
    · exact ⟨Gives.error _, .error rfl⟩
  · split
    · exact ⟨Gives.ok rfl, .ok _⟩
    · exact ⟨Gives.error _, .error rfl⟩
  · exact ⟨Gives.error _, .error rfl⟩

namespace Comparison

variable {w : Comparison} {K : Value → Prop} {s t : Store}

theorem Tables.binaryResult (h : w.Tables K s t) (op : Syntax.BinaryOp) (left right : Value) :
    binaryResult t op (left.shift w.shifts) (right.shift w.shifts) = binaryResult s op left right := by
  have hl := h.typeName left
  have hr := h.typeName right
  have hleft := Numeral.ofValue?_shift w.shifts left
  have hright := Numeral.ofValue?_shift w.shifts right
  cases op with
  | eq => simp only [Dartlet.binaryResult, Value.equals_shift]
  | ne => simp only [Dartlet.binaryResult, Value.equals_shift]
  | add =>
    simp only [Dartlet.binaryResult, hl, hr]
    cases left with
    | string a => cases right <;> rfl
    | int n => cases right <;> rfl
    | double x => cases right <;> rfl
    | _ => rfl
  | mul =>
    simp only [Dartlet.binaryResult, hl, hr]
    cases left with
    | string a => cases right <;> rfl
    | int n => cases right <;> rfl
    | double x => cases right <;> rfl
    | _ => rfl
  | _ => simp only [Dartlet.binaryResult, hl, hr, hleft, hright]

theorem Tables.unaryResult (h : w.Tables K s t) (op : Syntax.UnaryOp) (operand : Value) :
    unaryResult t op (operand.shift w.shifts) = unaryResult s op operand := by
  have hname := h.typeName operand
  cases op with
  | negate => cases operand <;> simp_all [Dartlet.unaryResult, Value.shift]
  | not => cases operand <;> simp_all [Dartlet.unaryResult, Value.shift]
  | _ => rfl

end Comparison
end Dartlet
