import Mathlib.Algebra.Order.Field.Power
import Mathlib.Data.Rat.Cast.Order
import Dartlet.Proofs.Effects.Keys

/-!
# What equality compares

A number that is no NaN stands for an exact value, which is a fraction or one of the infinities; every other value
stands for itself. Two values are equal if they stand for the same. So equality is symmetric and transitive, across
whole numbers and doubles of any size, and what is no NaN equals itself.
-/

namespace Dartlet

namespace Number

/-- The exact value of a double: a fraction, or the infinity of a sign. -/
def Decoded.amount? : Decoded → Option (ℚ ⊕ Bool)
  | .notANumber => none
  | .infinite negative => some (.inr negative)
  | .finite negative mantissa exponent =>
    some (.inl ((if negative then -(mantissa : ℤ) else mantissa : ℤ) * (2 : ℚ) ^ exponent))

theorem cast_twoTo (n : ℕ) : ((twoTo n : ℕ) : ℚ) = 2 ^ n := by
  simp [twoTo]

/-- What is counted in steps of `2 ^ p` can be counted in smaller steps. -/
theorem scaled_eq (m : ℤ) {p e : ℤ} (h : e ≤ p) : ((m * twoTo (p - e).toNat : ℤ) : ℚ) * 2 ^ e = m * 2 ^ p := by
  have hexponent : ((p - e).toNat : ℤ) = p - e := Int.toNat_of_nonneg (Int.sub_nonneg.mpr h)
  rw [Int.cast_mul, Int.cast_natCast, cast_twoTo, ← zpow_natCast, hexponent, mul_assoc, ← zpow_add₀ two_ne_zero,
    Int.sub_add_cancel]

theorem compareScaled_eq_iff (n m e : ℤ) : compareScaled n m e = .eq ↔ (n : ℚ) = m * 2 ^ e := by
  unfold compareScaled
  split
  · rename_i he
    rw [Int.compare_eq_eq, ← scaled_eq m he, zpow_zero, mul_one, Int.sub_zero, Int.cast_inj]
  · rename_i he
    have hscaled := scaled_eq n (show e ≤ 0 by omega)
    rw [Int.zero_sub, zpow_zero, mul_one] at hscaled
    have hpower : (2 : ℚ) ^ e ≠ 0 := zpow_ne_zero e two_ne_zero
    rw [Int.compare_eq_eq, ← hscaled, mul_left_inj' hpower, Int.cast_inj]

/-- Signed whole numbers in steps of two powers are equal if they are in the smaller steps. -/
theorem scaled_eq_scaled_iff (m n p q : ℤ) :
    m * twoTo (p - min p q).toNat = n * twoTo (q - min p q).toNat ↔ (m : ℚ) * 2 ^ p = n * 2 ^ q := by
  have hpower : (2 : ℚ) ^ min p q ≠ 0 := zpow_ne_zero _ two_ne_zero
  rw [← scaled_eq m (min_le_left p q), ← scaled_eq n (min_le_right p q), mul_left_inj' hpower, Int.cast_inj]

theorem signed_mul (negative : Bool) (m k : ℤ) :
    (if negative then -(m * k) else m * k) = (if negative then -m else m) * k := by
  cases negative <;> simp

theorem compareFloat?_eq_iff (x y : Float) :
    compareFloat? x y = some .eq ↔ ∃ q, (decode x).amount? = some q ∧ (decode y).amount? = some q := by
  unfold compareFloat?
  cases decode x with
  | notANumber => cases decode y <;> simp [Decoded.amount?]
  | infinite a =>
    cases decode y with
    | infinite b => cases a <;> cases b <;> simp [Decoded.amount?]
    | _ => cases a <;> simp [Decoded.amount?]
  | finite a m p =>
    cases decode y with
    | notANumber => simp [Decoded.amount?]
    | infinite b => cases b <;> simp [Decoded.amount?]
    | finite b n q =>
      simp only [Decoded.amount?, Option.some.injEq, exists_eq_left', Sum.inl.injEq, Int.compare_eq_eq, signed_mul]
      rw [scaled_eq_scaled_iff]
      exact eq_comm

theorem compareInt?_eq_iff (n : ℤ) (x : Float) : compareInt? n x = some .eq ↔ (decode x).amount? = some (.inl (n : ℚ)) := by
  unfold compareInt?
  cases decode x with
  | notANumber => simp [Decoded.amount?]
  | infinite a => cases a <;> simp [Decoded.amount?]
  | finite a m p =>
    simp only [Decoded.amount?, Option.some.injEq, Sum.inl.injEq, compareScaled_eq_iff]
    exact eq_comm

end Number

namespace Value

/-- The exact value of a number that is no NaN. -/
def amount? : Value → Option (ℚ ⊕ Bool)
  | .int n => some (.inl n)
  | .double x => (Number.decode x).amount?
  | _ => none

theorem compareNumbers?_eq_iff (a b : Value) :
    a.compareNumbers? b = some .eq ↔ ∃ q, a.amount? = some q ∧ b.amount? = some q := by
  cases a with
  | int m =>
    cases b with
    | int n =>
      simp only [compareNumbers?, amount?, Option.some.injEq, exists_eq_left', Sum.inl.injEq, Int.cast_inj,
        Int.compare_eq_eq]
      exact eq_comm
    | double y => simp [compareNumbers?, amount?, Number.compareInt?_eq_iff]
    | _ => simp [compareNumbers?, amount?]
  | double x =>
    cases b with
    | int n =>
      have hswap : compareNumbers? (.double x) (.int n) = some .eq ↔ compareNumbers? (.int n) (.double x) = some .eq := by
        rw [compareNumbers?_swap (.int n) (.double x)]
        cases compareNumbers? (.int n) (.double x) with
        | none => simp
        | some o => cases o <;> simp
      rw [hswap]
      simp [compareNumbers?, amount?, Number.compareInt?_eq_iff]
    | double y => exact Number.compareFloat?_eq_iff x y
    | _ => simp [compareNumbers?, amount?]
  | _ => simp [compareNumbers?, amount?]

/-- What a value stands for when it is compared: a number for its exact value, anything else for itself. A NaN stands
for nothing. -/
def standsFor? (v : Value) : Option (Value ⊕ (ℚ ⊕ Bool)) :=
  match v with
  | .int _ | .double _ => v.amount?.map .inr
  | v => some (.inl v)

theorem equals_number {a : Value} (ha : a.isNumber = true) (b : Value) : a.equals b = (a.compareNumbers? b == some .eq) := by
  cases a with
  | int n => cases b <;> rfl
  | double x => cases b <;> rfl
  | _ => cases ha

theorem equals_other {a : Value} (ha : a.isNumber = false) (b : Value) : a.equals b = true ↔ a = b := by
  cases a with
  | int _ | double _ => cases ha
  | _ => cases b <;> simp [equals, compareNumbers?]

theorem standsFor?_number {v : Value} (hv : v.isNumber = true) : v.standsFor? = v.amount?.map .inr := by
  cases v with
  | int _ | double _ => rfl
  | _ => cases hv

theorem standsFor?_other {v : Value} (hv : v.isNumber = false) : v.standsFor? = some (.inl v) := by
  cases v with
  | int _ | double _ => cases hv
  | _ => rfl

theorem amount?_other {v : Value} (hv : v.isNumber = false) : v.amount? = none := by
  cases v with
  | int _ | double _ => cases hv
  | _ => rfl

/-- Values are equal if they stand for the same. -/
theorem equals_iff (a b : Value) : a.equals b = true ↔ ∃ d, a.standsFor? = some d ∧ b.standsFor? = some d := by
  cases ha : a.isNumber with
  | true =>
    rw [equals_number ha, beq_iff_eq, compareNumbers?_eq_iff, standsFor?_number ha]
    cases hb : b.isNumber with
    | true =>
      rw [standsFor?_number hb]
      constructor
      · rintro ⟨q, hq, hq'⟩
        exact ⟨.inr q, by rw [hq]; rfl, by rw [hq']; rfl⟩
      · rintro ⟨d, hd, hd'⟩
        obtain ⟨q, hq, rfl⟩ := Option.map_eq_some_iff.mp hd
        obtain ⟨q', hq', heq⟩ := Option.map_eq_some_iff.mp hd'
        obtain rfl := Sum.inr.inj heq
        exact ⟨q', hq, hq'⟩
    | false => simp [standsFor?_other hb, amount?_other hb]
  | false =>
    rw [equals_other ha, standsFor?_other ha]
    constructor
    · rintro rfl
      exact ⟨.inl a, rfl, standsFor?_other ha⟩
    · rintro ⟨d, hd, hd'⟩
      obtain rfl := Option.some.inj hd
      cases hb : b.isNumber with
      | true => simp [standsFor?_number hb] at hd'
      | false =>
        rw [standsFor?_other hb] at hd'
        exact (Sum.inl.inj (Option.some.inj hd')).symm

theorem equals_trans {a b c : Value} (h : a.equals b = true) (h' : b.equals c = true) : a.equals c = true := by
  obtain ⟨d, ha, hb⟩ := (equals_iff a b).mp h
  obtain ⟨d', hb', hc⟩ := (equals_iff b c).mp h'
  obtain rfl := Option.some.inj (hb.symm.trans hb')
  exact (equals_iff a c).mpr ⟨d, ha, hc⟩

/-- What equals one of two equal values equals the other one. -/
theorem equals_congr {a b : Value} (h : a.equals b = true) (c : Value) : a.equals c = b.equals c := by
  rw [Bool.eq_iff_iff]
  exact ⟨equals_trans (equals_comm a b ▸ h), equals_trans h⟩

/-- Whether a value is a double that is no number. -/
def isNaN : Value → Bool
  | .double x => Number.isNotANumber x
  | _ => false

/-- A value equals itself unless it is a NaN. -/
theorem equals_self_iff (v : Value) : v.equals v = true ↔ v.isNaN = false := by
  have hstands : (∃ d, v.standsFor? = some d) ↔ v.isNaN = false := by
    cases v with
    | double x =>
      simp only [standsFor?, amount?, isNaN, Number.isNotANumber]
      cases Number.decode x <;> simp [Number.Decoded.amount?]
    | _ => simp [standsFor?, amount?, isNaN]
  rw [equals_iff, ← hstands]
  simp

/-- A NaN equals nothing. -/
theorem equals_of_isNaN {v : Value} (hv : v.isNaN = true) (w : Value) : v.equals w = false := by
  rw [Bool.eq_false_iff]
  intro h
  have hself : v.equals v = true := equals_trans h (equals_comm v w ▸ h)
  rw [equals_self_iff, hv] at hself
  cases hself

end Value
end Dartlet
