import Mathlib
import Dartlet.Host.Standard
import Dartlet.Proofs.Program.Lexemes

/-!
# Digits that the host takes

How many digits a whole number has is told by powers of ten, so a limit on digits is one on numbers. What the host
refuses to write, it refuses to read as well.
-/

namespace Dartlet.Host

section

variable [Host]

theorem refusesNumber_eq_false_iff {n : ℤ} : refusesNumber n = false ↔ n.natAbs < 10 ^ digitLimit := by
  rw [refusesNumber, decide_eq_false_iff_not, Nat.not_lt]
  exact Nat.length_toDigits_le_iff (by decide) digitLimit_pos

/-- The least whole number that the host refuses to write. -/
theorem refusesNumber_pow_digitLimit : refusesNumber ((10 ^ digitLimit : ℕ) : ℤ) = true := by
  rw [← Bool.not_eq_false, refusesNumber_eq_false_iff, Int.natAbs_natCast]
  exact Nat.lt_irrefl _

theorem refusesNumeral_toDigits (n : ℕ) : refusesNumeral (Nat.toDigits 10 n) = refusesNumber n := by
  have hdigits : (Nat.toDigits 10 n).all Text.isDigit = true :=
    List.all_eq_true.mpr fun c hc => Syntax.isDigit_of_mem_toDigits hc
  rw [refusesNumeral, hdigits, Bool.true_and]
  rfl

end

theorem refusesNumber_standard : refusesNumber ((10 ^ 4300 : ℕ) : ℤ) = true := by
  have hlimit : digitLimit = 4300 := rfl
  rw [← hlimit]
  exact refusesNumber_pow_digitLimit

end Dartlet.Host
