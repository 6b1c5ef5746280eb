import Dartlet.Host.Standard
import Dartlet.Proofs.Numbers.Doubles
import Dartlet.Proofs.Numbers.IntegerTexts

/-!
# Whole numbers with fixed places

A whole number with fixed places is meant to be the number with zeros after the point, for every number of places that
passes the check. It is that for most numbers: only numbers of more than twenty-eight digits, zeros counted, are refused
in spite of the check, and zero is written with an exponent from seven places on. The message of the check names the number
of places, which the host may refuse to write.
-/

namespace Dartlet

set_option linter.unusedSectionVars false

namespace Number

theorem toDigits_mul_tenTo {n : ℕ} (hn : n ≠ 0) (places : ℕ) :
    Nat.toDigits 10 (n * tenTo places) = Nat.toDigits 10 n ++ List.replicate places '0' := by
  induction places with
  | zero => simp [tenTo]
  | succ places ih =>
    have hnext : n * tenTo (places + 1) = 10 * (n * tenTo places) + 0 := by
      simp only [tenTo, Nat.pow_eq, pow_succ]
      ring
    have hpositive : 0 < n * tenTo places := Nat.mul_pos (Nat.pos_of_ne_zero hn) (Nat.pow_pos (by decide))
    rw [hnext, ← Nat.toDigits_append_toDigits (by decide) hpositive (by decide), ih, Nat.toDigits_zero,
      List.append_assoc, ← List.replicate_succ']

/-- A whole number in units of `10 ^ -places`. -/
theorem inUnits_of_whole {n mantissa : ℕ} {exponent : ℤ} (hvalue : (mantissa : ℚ) * 2 ^ exponent = n) (places : ℕ) :
    inUnits mantissa exponent places = n * tenTo places := by
  unfold inUnits
  split
  · rename_i hexponent
    obtain ⟨k, rfl⟩ := Int.eq_ofNat_of_zero_le hexponent
    have hwhole : mantissa * 2 ^ k = n := by exact_mod_cast hvalue
    rw [Int.toNat_natCast, twoTo_eq, hwhole]
  · rename_i hexponent
    obtain ⟨k, rfl⟩ : ∃ k : ℕ, exponent = -(k : ℤ) := ⟨exponent.natAbs, by omega⟩
    have hwhole : mantissa = n * 2 ^ k := by
      rw [zpow_neg, zpow_natCast, ← div_eq_mul_inv, div_eq_iff (by positivity)] at hvalue
      exact_mod_cast hvalue
    have hpositive : 0 < 2 * 2 ^ k := by positivity
    rw [neg_neg, Int.toNat_natCast, twoTo_eq, hwhole, roundHalfUp]
    have hunits : 2 * (n * 2 ^ k * tenTo places) + 2 ^ k = 2 ^ k + n * tenTo places * (2 * 2 ^ k) := by ring
    rw [hunits, Nat.add_mul_div_right _ _ hpositive, Nat.div_eq_of_lt (by omega), Nat.zero_add]

/-- Some zeros after a point, or nothing. -/
def zerosAfterPoint (places : ℕ) : List Char := if places = 0 then [] else '.' :: List.replicate places '0'

theorem writeUnits_whole {n places : ℕ} (hplain : n ≠ 0 ∨ places ≤ 6) :
    writeUnits (n * tenTo places) places = Nat.toDigits 10 n ++ zerosAfterPoint places := by
  by_cases hplaces : places = 0
  · subst hplaces
    simp [writeUnits, zerosAfterPoint, tenTo]
  by_cases hn : n = 0
  · subst hn
    have hfew := hplain.resolve_left (absurd rfl)
    obtain ⟨places, rfl⟩ := Nat.exists_eq_succ_of_ne_zero hplaces
    have hleft : -(1 - ((places + 1 : ℕ) : ℤ)) = (places : ℕ) := by omega
    simp only [writeUnits, zerosAfterPoint, Nat.zero_mul, Nat.toDigits_zero, List.length_singleton, Nat.cast_one]
    rw [if_neg (by simp), if_neg (by omega), if_pos (by omega), if_neg (Nat.succ_ne_zero _), hleft, Int.toNat_natCast,
      List.append_assoc, ← List.replicate_succ']
    rfl
  · have hleft : ((Nat.toDigits 10 n ++ List.replicate places '0').length : ℤ) - places =
        (Nat.toDigits 10 n).length := by
      simp
    have hpositive : 0 < (Nat.toDigits 10 n).length := Nat.length_toDigits_pos
    simp only [writeUnits, zerosAfterPoint, toDigits_mul_tenTo hn, hleft]
    rw [if_neg (by simpa using hplaces), if_neg (by omega), if_neg (by omega), if_neg hplaces]
    simp

theorem writeUnits_zero {places : ℕ} (hmany : 7 ≤ places) :
    writeUnits (0 * tenTo places) places = ['0', 'E', '-'] ++ Nat.toDigits 10 places := by
  have hleft : (1 - (1 - (places : ℤ))).toNat = places := by omega
  simp only [writeUnits, Nat.zero_mul, Nat.toDigits_zero, List.length_singleton, Nat.cast_one]
  rw [if_neg (by rw [beq_iff_eq]; omega), if_pos (by omega), hleft]
  rfl

/-- Whether a whole number with some places has few enough digits, or zero has few enough places. -/
def FitsPlaces (n : ℤ) (places : ℕ) : Prop := if n = 0 then places ≤ 6 else n.natAbs * 10 ^ places < 10 ^ 28

instance (n : ℤ) (places : ℕ) : Decidable (FitsPlaces n places) :=
  inferInstanceAs (Decidable (if n = 0 then places ≤ 6 else n.natAbs * 10 ^ places < 10 ^ 28))

/-- A whole number with some zeros after the point. -/
def withZeros (n : ℤ) (places : ℕ) : String := toString n ++ String.ofList (zerosAfterPoint places)

/-- The text of a whole number with some places, or nothing if it has too many digits. -/
def wholeText? (n : ℤ) (places : ℕ) : Option String :=
  if FitsPlaces n places then some (withZeros n places)
  else if n = 0 then some ("0E-" ++ toString places)
  else none

theorem ofList_signed (n : ℤ) (text : List Char) :
    String.ofList (if n < 0 then '-' :: (Nat.toDigits 10 n.natAbs ++ text) else Nat.toDigits 10 n.natAbs ++ text) =
      toString n ++ String.ofList text := by
  rw [← String.toList_inj, String.toList_append, toList_toString]
  split <;> simp

theorem FitsPlaces.plain {n : ℤ} {places : ℕ} (h : FitsPlaces n places) : n.natAbs ≠ 0 ∨ places ≤ 6 := by
  by_cases hzero : n = 0
  · exact .inr (by rwa [FitsPlaces, if_pos hzero] at h)
  · exact .inl (Int.natAbs_ne_zero.mpr hzero)

theorem digitCount_le_limit_iff {n : ℤ} {places : ℕ} :
    digitCount (n.natAbs * tenTo places) ≤ fixedDigitLimit ↔ FitsPlaces n places ∨ n = 0 := by
  have hdigits : digitCount (n.natAbs * tenTo places) ≤ fixedDigitLimit ↔ n.natAbs * 10 ^ places < 10 ^ 28 :=
    Nat.length_toDigits_le_iff (by decide) (by decide)
  rw [hdigits, FitsPlaces]
  by_cases hzero : n = 0
  · simp [hzero]
  · rw [if_neg hzero, or_iff_left hzero]

theorem fixed?_whole {n : ℤ} {mantissa : ℕ} {exponent : ℤ} (hvalue : (mantissa : ℚ) * 2 ^ exponent = n.natAbs)
    (places : ℕ) : fixed? (n < 0) mantissa exponent places = wholeText? n places := by
  simp only [fixed?, inUnits_of_whole hvalue, wholeText?]
  by_cases hfits : FitsPlaces n places
  · simp only [if_neg (Nat.not_lt.mpr (digitCount_le_limit_iff.mpr (.inl hfits))), if_pos hfits,
      writeUnits_whole hfits.plain, decide_eq_true_eq, ofList_signed, withZeros]
  · by_cases hzero : n = 0
    · have hmany : 7 ≤ places := by
        rwa [FitsPlaces, if_pos hzero, not_le] at hfits
      have htext : "0E-" ++ toString places = String.ofList (['0', 'E', '-'] ++ Nat.toDigits 10 places) := by
        rw [String.ofList_append]
        rfl
      rw [if_neg (Nat.not_lt.mpr (digitCount_le_limit_iff.mpr (.inr hzero))), if_neg hfits, if_pos hzero, htext]
      subst hzero
      rw [Int.natAbs_zero, writeUnits_zero hmany]
      rfl
    · have hmany : ¬digitCount (n.natAbs * tenTo places) ≤ fixedDigitLimit := by
        rw [digitCount_le_limit_iff]
        exact not_or.mpr ⟨hfits, hzero⟩
      rw [if_pos (Nat.not_le.mp hmany), if_neg hfits, if_neg hzero]

end Number

open Dartlet.Action
open Dartlet.Syntax (Expr Location)

section Fixed

variable [Host]

variable {c : Context} {l : Location} {x y : Expr} {s t u : Store} {n places : ℤ}

/-- How a whole number is written with some places. -/
def writtenFixed (n places : ℤ) (s : Store) : Outcome Value :=
  if 0 ≤ places ∧ places ≤ 20 then
    match Number.wholeText? n places.toNat with
    | some text => .done (.string text) s
    | none => fail (.host .tooManyDigits) s
  else fail (.host (HostFailure.naming (.outsideRange 0 20 places) [places])) s

/-- How a whole number would be written if every number of places that passes the check were accepted. -/
def promisedFixed (n places : ℤ) (s : Store) : Outcome Value :=
  if 0 ≤ places ∧ places ≤ 20 then .done (.string (Number.withZeros n places.toNat)) s
  else fail (.host (.outsideRange 0 20 places)) s

theorem fixed_whole (hn : n.natAbs ≤ 2 ^ 53) (places : ℕ) :
    NumberMethod.fixed (.int n) places =
      match Number.wholeText? n places with
      | some text => pure (.string text)
      | none => escape .tooManyDigits := by
  obtain ⟨x, hx, mantissa, exponent, hdecode, hvalue⟩ := Number.ofInt?_of_le hn
  have hdouble : (Numeral.int n).toDouble = .ok x := by rw [Numeral.toDouble, hx]
  have hwritten := Number.fixed?_whole hvalue places
  rw [NumberMethod.fixed, hdouble, show ofExcept (.ok x) = pure x from rfl, pure_bind]
  cases htext : Number.wholeText? n places with
  | some text => simp only [hdecode, hwritten, htext]
  | none => simp only [hdecode, hwritten, htext]

theorem invokes_toStringAsFixed_iff {depth : ℕ} (hdepth : depth < Host.callLimit) (hn : n.natAbs ≤ 2 ^ 53)
    {o : Outcome Value} :
    Invokes depth (.int n) "toStringAsFixed" [.int places] s o ↔ o = writtenFixed n places s := by
  have hmethod (c : Caller) : Method.run c (.int n) [.int places] (.number .toStringAsFixed) =
      if 0 ≤ places && places ≤ 20 then NumberMethod.fixed (.int n) places.toNat
      else escape (HostFailure.naming (.outsideRange 0 20 places) [places]) := rfl
  have hends {run : Action Value}
      (hrun : ∀ c, Method.run c (.int n) [.int places] (.number .toStringAsFixed) = run) (hended : (run s).Ended) :
      Invokes depth (.int n) "toStringAsFixed" [.int places] s o ↔ o = (run s).delegated :=
    invokes_iff_of_run rfl rfl rfl hdepth hended fun c => congrFun (hrun c) s
  simp only [fixed_whole hn, Bool.and_eq_true, decide_eq_true_eq] at hmethod
  unfold writtenFixed
  by_cases hrange : 0 ≤ places ∧ places ≤ 20
  · simp only [if_pos hrange] at hmethod ⊢
    cases htext : Number.wholeText? n places.toNat with
    | some text =>
      simp only [htext] at hmethod
      exact hends hmethod nofun
    | none =>
      simp only [htext] at hmethod
      exact hends hmethod nofun
  · simp only [if_neg hrange, HostFailure.naming_singleton] at hmethod ⊢
    split at hmethod
    · rw [if_pos ‹_›]
      exact hends hmethod nofun
    · rw [if_neg ‹_›]
      exact hends hmethod nofun

/-- Zero with an exponent is not zero with zeros after the point. -/
theorem withZeros_zero_ne (places : ℕ) (text : String) : Number.withZeros 0 places ≠ "0E-" ++ text := by
  intro h
  have hletter := congrArg (fun t => t.toList[1]?) h
  rw [Number.withZeros, Number.zerosAfterPoint, show toString (0 : ℤ) = "0" from rfl] at hletter
  split at hletter <;> simp at hletter

theorem fail_inj {f g : Fault} : (fail f s : Outcome Value) = fail g s ↔ f = g := by
  simp [fail, Store.addError, Array.push_eq_push]

/-- The promise is kept but for too many digits, in the number with its places or in the number of places, and for zero
with many places. -/
theorem writtenFixed_eq_promisedFixed_iff :
    writtenFixed n places s = promisedFixed n places s ↔
      (0 ≤ places ∧ places ≤ 20 → Number.FitsPlaces n places.toNat) ∧
        (¬(0 ≤ places ∧ places ≤ 20) → places.natAbs < 10 ^ Host.digitLimit) := by
  unfold writtenFixed promisedFixed
  by_cases hrange : 0 ≤ places ∧ places ≤ 20
  · rw [if_pos hrange, if_pos hrange, imp_iff_right hrange, and_iff_left (absurd hrange), Number.wholeText?]
    by_cases hfits : Number.FitsPlaces n places.toNat
    · rw [if_pos hfits]
      exact iff_of_true rfl hfits
    · rw [if_neg hfits]
      refine iff_of_false ?_ hfits
      by_cases hzero : n = 0
      · subst hzero
        intro h
        have htext := Value.string.inj (Outcome.done.inj h).1
        exact withZeros_zero_ne _ _ htext.symm
      · rw [if_neg hzero]
        nofun
  · rw [if_neg hrange, if_neg hrange, fail_inj, imp_iff_right hrange, and_iff_right fun h => absurd h hrange,
      HostFailure.naming_singleton, ← Host.refusesNumber_eq_false_iff]
    cases Host.refusesNumber places <;> simp

/-- A whole number that is a double is written with as many zeros after the point as are asked for, or the number of
places is refused if the check does not admit it. There are three exceptions: a number of more than twenty-eight digits,
zeros counted, is an error in spite of the check, zero with seven places or more is written with an exponent, and where the
number of places has too many digits itself, the failure is that its refusal cannot be written. -/
theorem whole_numbers_with_fixed_places (hn : |n| ≤ 2 ^ 53) (hdepth : c.depth < Host.callLimit)
    (hx : Evaluates c x s (.done (.int n) t)) (hy : Evaluates c y t (.done (.int places) u)) :
    (∀ o, Evaluates c (.methodCall l x "toStringAsFixed" [.positional y]) s o ↔
        o = (writtenFixed n places u).locate l) ∧
      (writtenFixed n places u = promisedFixed n places u ↔
        (0 ≤ places ∧ places ≤ 20 → Number.FitsPlaces n places.toNat) ∧
          (¬(0 ≤ places ∧ places ≤ 20) → places.natAbs < 10 ^ Host.digitLimit)) := by
  have hsize : n.natAbs ≤ 2 ^ 53 := by
    rw [Int.abs_eq_natAbs] at hn
    exact_mod_cast hn
  refine ⟨fun o => ?_, writtenFixed_eq_promisedFixed_iff⟩
  have hcall : Evaluates c (.methodCall l x "toStringAsFixed" [.positional y]) s o ↔
      ∃ o', Invokes c.depth (.int n) "toStringAsFixed" [.int places] u o' ∧ o'.Leaves c.depth l o :=
    evaluates_methodCall_iff hx (.one hy)
  simp only [hcall, invokes_toStringAsFixed_iff hdepth hsize, exists_eq_left]
  unfold writtenFixed
  split
  · split
    · exact Outcome.leaves_of_done_iff
    · exact Outcome.leaves_fail_iff
  · exact Outcome.leaves_fail_iff

end Fixed

/-- Ten digits are written with eighteen places, but not with nineteen; zero is written with an exponent. -/
theorem whole_numbers_with_fixed_places_long :
    let c : Context := ⟨0, 0⟩
    let s : Store := {}
    let written (n places : ℤ) : Expr :=
      .methodCall none (.intLiteral none n) "toStringAsFixed" [.positional (.intLiteral none places)]
    (|1000000000| : ℤ) ≤ 2 ^ 53 ∧ c.depth < Host.callLimit ∧
      Evaluates c (written 1000000000 18) s (.done (.string "1000000000.000000000000000000") s) ∧
      Evaluates c (written 1000000000 19) s (fail (.host .tooManyDigits) s) ∧
      Evaluates c (written 1000000000 21) s (fail (.host (.outsideRange 0 20 21)) s) ∧
      Evaluates c (written 0 7) s (.done (.string "0E-7") s) ∧
      writtenFixed 0 7 s ≠ promisedFixed 0 7 s := by
  intro c s written
  have hliteral (n : ℤ) : Evaluates c (.intLiteral none n) s (.done (.int n) s) := ⟨nofun, 1, rfl⟩
  have hwritten {n : ℤ} (hn : |n| ≤ 2 ^ 53) (places : ℤ) :=
    whole_numbers_with_fixed_places (l := none) hn (by decide) (hliteral n) (hliteral places)
  have hlong : (|1000000000| : ℤ) ≤ 2 ^ 53 := by decide
  have hzero : (|0| : ℤ) ≤ 2 ^ 53 := by decide
  refine ⟨hlong, by decide, ((hwritten hlong 18).1 _).mpr ?_, ((hwritten hlong 19).1 _).mpr ?_,
    ((hwritten hlong 21).1 _).mpr ?_, ((hwritten hzero 7).1 _).mpr ?_, fun h => absurd ((hwritten hzero 7).2.mp h).1 ?_⟩
  · rfl
  · rfl
  · rfl
  · rfl
  · decide

end Dartlet
