import Dartlet.Host.Standard
import Dartlet.Proofs.Collections.Equality
import Dartlet.Proofs.Evaluation.Operands
import Mathlib.Algebra.Order.Floor.Ring
import Mathlib.Data.Rat.Floor

/-!
# Division of whole numbers

Whole numbers of any size are divided toward zero. The quotient is the exact one without its fraction, and the
remainder is smaller than the divisor and has the sign of the dividend; these two facts determine both numbers. The
operators and the member that yields the remainder agree, and all of them fail exactly where the divisor is zero.
-/

namespace Dartlet

open Dartlet.Action
open Dartlet.Syntax (BinaryOp Expr Location)
open Numeral (wholeQuotient)

set_option linter.unusedSectionVars false

section

variable [Host]

/-- A quotient and a remainder of whole numbers: together they make up the dividend, and the remainder is smaller than
the divisor and has the sign of the dividend, unless it is zero. -/
structure DividesInto (a b q r : ℤ) : Prop where
  sum : q * b + r = a
  small : |r| < |b|
  sign : r = 0 ∨ r.sign = a.sign

/-- An exact quotient without its fraction. -/
def roundTowardZero (x : ℚ) : ℤ := if 0 ≤ x then ⌊x⌋ else ⌈x⌉

section Quotients

variable {a b q r q' r' : ℤ}

/-- The quotient of the sizes with the sign of both numbers is the quotient that is cut toward zero. -/
theorem wholeQuotient_eq_tdiv (a b : ℤ) : wholeQuotient a b = a.tdiv b := by
  have hsize (n : ℕ) : ¬(n : ℤ) < 0 := (Int.natCast_nonneg n).not_gt
  unfold wholeQuotient
  cases a with
  | ofNat m => cases b <;> simp [Int.tdiv, hsize]
  | negSucc m => cases b <;> simp [Int.tdiv, hsize]

/-- What is left after the whole quotient of two numbers. -/
def wholeRemainder (a b : ℤ) : ℤ := a - b * wholeQuotient a b

theorem wholeRemainder_eq_tmod (a b : ℤ) : wholeRemainder a b = a.tmod b := by
  rw [wholeRemainder, wholeQuotient_eq_tdiv, Int.tmod_def]

theorem dividesInto_wholeQuotient (a : ℤ) (hb : b ≠ 0) :
    DividesInto a b (wholeQuotient a b) (wholeRemainder a b) where
  sum := by
    rw [wholeQuotient_eq_tdiv, wholeRemainder_eq_tmod, Int.tdiv_mul_add_tmod]
  small := by
    rw [wholeRemainder_eq_tmod, Int.abs_eq_natAbs, Int.abs_eq_natAbs, Int.natAbs_tmod, Int.ofNat_lt]
    exact Nat.mod_lt _ (Int.natAbs_pos.mpr hb)
  sign := by
    rw [wholeRemainder_eq_tmod]
    by_cases hdvd : b ∣ a
    · exact .inl (Int.tmod_eq_zero_of_dvd hdvd)
    · right
      rw [Int.sign_tmod, if_neg hdvd]

namespace DividesInto

theorem nonneg (h : DividesInto a b q r) (ha : 0 ≤ a) : 0 ≤ r := by
  rcases h.sign with hzero | hsign
  · exact hzero.ge
  · rwa [← Int.sign_nonneg_iff, hsign, Int.sign_nonneg_iff]

theorem nonpos (h : DividesInto a b q r) (ha : a ≤ 0) : r ≤ 0 := by
  rcases h.sign with hzero | hsign
  · exact hzero.le
  · rwa [← Int.sign_nonpos_iff, hsign, Int.sign_nonpos_iff]

/-- Remainders with the sign of one and the same dividend differ by less than the divisor, and so they are equal. -/
theorem unique (h : DividesInto a b q r) (h' : DividesInto a b q' r') : q = q' ∧ r = r' := by
  have hdvd : b ∣ r - r' := ⟨q' - q, by linarith [h.sum, h'.sum, mul_sub b q' q, mul_comm b q, mul_comm b q']⟩
  have hsmall := abs_lt.mp h.small
  have hsmall' := abs_lt.mp h'.small
  have hnear : |r - r'| < |b| := by
    rcases le_total 0 a with ha | ha
    · have hr := h.nonneg ha
      have hr' := h'.nonneg ha
      exact abs_lt.mpr ⟨by omega, by omega⟩
    · have hr := h.nonpos ha
      have hr' := h'.nonpos ha
      exact abs_lt.mpr ⟨by omega, by omega⟩
  have hrest : r = r' := Int.sub_eq_zero.mp (Int.eq_zero_of_abs_lt_dvd ((abs_dvd b _).mpr hdvd) hnear)
  have hb : b ≠ 0 := abs_pos.mp ((abs_nonneg r).trans_lt h.small)
  refine ⟨mul_right_cancel₀ hb ?_, hrest⟩
  linarith [h.sum, h'.sum]

/-- The quotient is the exact one, rounded toward zero. -/
theorem quotient_eq (h : DividesInto a b q r) : q = roundTowardZero (a / b) := by
  have hb : (b : ℚ) ≠ 0 := Int.cast_ne_zero.mpr (abs_pos.mp ((abs_nonneg r).trans_lt h.small))
  have hratio : (a : ℚ) / b = q + r / b := by
    rw [← h.sum]
    push_cast
    field_simp
  have hsmall : |(r : ℚ) / b| < 1 := by
    rw [abs_div, div_lt_one (abs_pos.mpr hb)]
    exact_mod_cast h.small
  obtain ⟨hlower, hupper⟩ := abs_lt.mp hsmall
  symm
  unfold roundTowardZero
  split
  · rename_i hpositive
    -- the fraction that is left out is positive, too
    have hfraction : 0 ≤ (r : ℚ) / b := by
      rcases div_nonneg_iff.mp hpositive with ⟨ha, hb⟩ | ⟨ha, hb⟩
      · exact div_nonneg (Int.cast_nonneg (h.nonneg (Int.cast_nonneg_iff.mp ha))) hb
      · exact div_nonneg_of_nonpos (Int.cast_nonpos.mpr (h.nonpos (Int.cast_nonpos.mp ha))) hb
    rw [Int.floor_eq_iff, hratio]
    constructor <;> linarith
  · rename_i hnegative
    have hfraction : (r : ℚ) / b ≤ 0 := by
      rcases div_neg_iff.mp (not_le.mp hnegative) with ⟨ha, hb⟩ | ⟨ha, hb⟩
      · exact div_nonpos_of_nonneg_of_nonpos (Int.cast_nonneg (h.nonneg (Int.cast_pos.mp ha).le)) hb.le
      · exact div_nonpos_of_nonpos_of_nonneg (Int.cast_nonpos.mpr (h.nonpos (Int.cast_lt_zero.mp ha).le)) hb.le
    rw [Int.ceil_eq_iff, hratio]
    constructor <;> linarith

end DividesInto
end Quotients

/-! ### The operators and the member -/

section Division

variable {c : Context} {l : Location} {x y : Expr} {s t u : Store} {a b : ℤ}

/-- How a division of whole numbers ends in a store: with a number, or with an error if the divisor is zero. -/
def divided (b result : ℤ) (s : Store) : Outcome Value :=
  if b = 0 then fail .divisionByZero s else .done (.int result) s

/-- The check of the divisor, before anything is divided. -/
theorem ofExcept_checked {κ : Type} (number : κ → Value) {n : κ} {result : ℤ} (h : number n = .int result) (s : Store) :
    ofExcept ((if b == 0 then .error (.fault .divisionByZero) else .ok n : Except Trouble κ).map number) s =
      divided b result s := by
  rw [divided, ← h]
  by_cases hb : b = 0
  · rw [if_pos (beq_iff_eq.mpr hb), if_pos hb]
    rfl
  · rw [if_neg (mt beq_iff_eq.mp hb), if_neg hb]
    rfl

theorem applyBinary_truncDiv (a b : ℤ) (s : Store) :
    applyBinary .truncDiv (.int a) (.int b) s = divided b (wholeQuotient a b) s :=
  ofExcept_checked Value.int rfl s

theorem applyBinary_rem (a b : ℤ) (s : Store) : applyBinary .rem (.int a) (.int b) s = divided b (wholeRemainder a b) s :=
  ofExcept_checked Numeral.toValue rfl s

theorem ended_divided (b result : ℤ) (s : Store) : (divided b result s).Ended := by
  unfold divided
  split <;> nofun

theorem delegated_divided (b result : ℤ) (s : Store) : (divided b result s).delegated = divided b result s := by
  unfold divided
  split <;> rfl

/-- The member that yields the remainder ends as the operator does. -/
theorem invokes_remainder_iff {depth : ℕ} (hdepth : depth < Host.callLimit) {o : Outcome Value} :
    Invokes depth (.int a) "remainder" [.int b] s o ↔ o = divided b (wholeRemainder a b) s := by
  have hrun (c : Caller) : Method.run c (.int a) [.int b] (.number .remainder) s = divided b (wholeRemainder a b) s :=
    applyBinary_rem a b s
  rw [invokes_iff_of_run rfl rfl rfl hdepth (ended_divided b _ s) hrun, delegated_divided]

/-- The product of the quotient of two expressions and the second one, and the remainder: `x ~/ y * y + x % y`. -/
def reassembled (l : Location) (x y : Expr) : Expr :=
  .binary l .add (.binary l .mul (.binary l .truncDiv x y) y) (.binary l .rem x y)

/-- What is made up of quotient and remainder equals the dividend. -/
theorem evaluates_reassembled (hb : b ≠ 0) (hx : Evaluates c x s (.done (.int a) s))
    (hy : Evaluates c y s (.done (.int b) s)) : Evaluates c (.binary l .eq (reassembled l x y) x) s (.done (.bool true) s) := by
  have hquotient : Evaluates c (.binary l .truncDiv x y) s (.done (.int (wholeQuotient a b)) s) := by
    refine .binary (by rfl) hx hy ?_
    rw [applyBinary_truncDiv, divided, if_neg hb]
  have hproduct : Evaluates c (.binary l .mul (.binary l .truncDiv x y) y) s (.done (.int (wholeQuotient a b * b)) s) :=
    .binary (by rfl) hquotient hy rfl
  have hremainder : Evaluates c (.binary l .rem x y) s (.done (.int (wholeRemainder a b)) s) := by
    refine .binary (by rfl) hx hy ?_
    rw [applyBinary_rem, divided, if_neg hb]
  have hsum : Evaluates c (reassembled l x y) s (.done (.int a) s) := by
    refine .binary (by rfl) hproduct hremainder ?_
    nth_rewrite 3 [← (dividesInto_wholeQuotient a hb).sum]
    rfl
  refine .binary (by rfl) hsum hx ?_
  exact congrArg (fun equal => Outcome.done (Value.bool equal) s) ((Value.equals_self_iff (.int a)).mpr rfl)

/-- Whole numbers of any size are divided toward zero. The operators and the member yield a quotient and a remainder that
make up the dividend, of which the remainder is smaller than the divisor and has the sign of the dividend; no other two
numbers do, and the quotient is the exact one rounded toward zero. All of them fail with the same error if the divisor is
zero, and only then. So a program, too, finds that quotient and remainder make up the dividend. -/
theorem whole_numbers_divide_toward_zero (hx : Evaluates c x s (.done (.int a) t))
    (hy : Evaluates c y t (.done (.int b) u)) :
    (∃ q r : ℤ,
      (b ≠ 0 → q = roundTowardZero (a / b) ∧ ∀ q' r', DividesInto a b q' r' ↔ q' = q ∧ r' = r) ∧
        ∀ l o, (Evaluates c (.binary l .truncDiv x y) s o ↔ o = (divided b q u).locate l) ∧
          (Evaluates c (.binary l .rem x y) s o ↔ o = (divided b r u).locate l) ∧
          (c.depth < Host.callLimit →
            (Evaluates c (.methodCall l x "remainder" [.positional y]) s o ↔ o = (divided b r u).locate l))) ∧
      (b ≠ 0 → t = s → u = s → ∀ l, Evaluates c (.binary l .eq (reassembled l x y) x) s (.done (.bool true) s)) := by
  refine ⟨⟨wholeQuotient a b, wholeRemainder a b, fun hb => ⟨(dividesInto_wholeQuotient a hb).quotient_eq,
    fun q r => ⟨?unique, ?divides⟩⟩, fun l o => ⟨?truncDiv, ?rem, fun hdepth => ?remainder⟩⟩, ?reassembled⟩
  case unique => exact fun h => h.unique (dividesInto_wholeQuotient a hb)
  case divides =>
    rintro ⟨rfl, rfl⟩
    exact dividesInto_wholeQuotient a hb
  case truncDiv =>
    rw [← applyBinary_truncDiv]
    exact evaluates_binary_iff (by rfl) hx hy
  case rem =>
    rw [← applyBinary_rem]
    exact evaluates_binary_iff (by rfl) hx hy
  case remainder =>
    have hcall : Evaluates c (.methodCall l x "remainder" [.positional y]) s o ↔
        ∃ o', Invokes c.depth (.int a) "remainder" [.int b] u o' ∧ o'.Leaves c.depth l o :=
      evaluates_methodCall_iff hx (.one hy)
    simp only [hcall, invokes_remainder_iff hdepth, exists_eq_left]
    unfold divided
    split
    · exact Outcome.leaves_fail_iff
    · exact Outcome.leaves_of_done_iff
  case reassembled =>
    rintro hb rfl rfl l
    exact evaluates_reassembled hb hx hy

end Division

end

/-- Seven less than zero is divided by two, and by zero. -/
theorem whole_numbers_divide_toward_zero_negative :
    let c : Context := ⟨0, 0⟩
    let s : Store := {}
    let x : Expr := .unary none .negate (.intLiteral none 7)
    let y : Expr := .intLiteral none 2
    let zero : Expr := .intLiteral none 0
    Evaluates c x s (.done (.int (-7)) s) ∧ Evaluates c y s (.done (.int 2) s) ∧
      Evaluates c (.binary none .truncDiv x y) s (.done (.int (-3)) s) ∧
      Evaluates c (.binary none .rem x y) s (.done (.int (-1)) s) ∧
      Evaluates c (.methodCall none x "remainder" [.positional y]) s (.done (.int (-1)) s) ∧
      Evaluates c (.binary none .eq (reassembled none x y) x) s (.done (.bool true) s) ∧
      Evaluates c (.binary none .rem x zero) s (fail .divisionByZero s) := by
  intro c s x y zero
  have hx : Evaluates c x s (.done (.int (-7)) s) := ⟨nofun, 2, rfl⟩
  have hy : Evaluates c y s (.done (.int 2) s) := ⟨nofun, 1, rfl⟩
  have hzero : Evaluates c zero s (.done (.int 0) s) := ⟨nofun, 1, rfl⟩
  obtain ⟨⟨q, r, hquotient, hends⟩, hsum⟩ := whole_numbers_divide_toward_zero hx hy
  obtain ⟨-, hunique⟩ := hquotient (by decide)
  have hdivides : DividesInto (-7) 2 (-3) (-1) := ⟨by decide, by decide, .inr (by decide)⟩
  obtain ⟨rfl, rfl⟩ := (hunique _ _).mp hdivides
  obtain ⟨⟨q, r, -, hfails⟩, -⟩ := whole_numbers_divide_toward_zero hx hzero
  exact ⟨hx, hy, (hends none _).1.mpr rfl, (hends none _).2.1.mpr rfl, ((hends none _).2.2 (by decide)).mpr rfl,
    hsum (by decide) rfl rfl none, (hfails none _).2.1.mpr rfl⟩

end Dartlet
