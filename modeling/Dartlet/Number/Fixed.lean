import Dartlet.Number.Binary
import Dartlet.Number.Shortest

/-!
# Fixed places

A double written with a fixed number of places after the point. The exact value is rounded, a tie
going away from zero, and no more than twenty-eight digits are ever produced.
-/

namespace Dartlet.Number

/-- The most digits that a number with fixed places may have. -/
def fixedDigitLimit : Nat := 28

/-- The whole number nearest to `num / den`, a tie going up. -/
def roundHalfUp (num den : Nat) : Nat := (2 * num + den) / (2 * den)

/-- The number `mantissa * 2 ^ exponent` in units of `10 ^ -places`. -/
def inUnits (mantissa : Nat) (exponent : Int) (places : Nat) : Nat :=
  if 0 ≤ exponent then mantissa * twoTo exponent.toNat * tenTo places
  else roundHalfUp (mantissa * tenTo places) (twoTo (-exponent).toNat)

/-- The digits of a number of units of `10 ^ -places`. A small number, whose first digit is the
seventh place or later, is written with an exponent. -/
def writeUnits (units places : Nat) : List Char :=
  let digits := Nat.toDigits 10 units
  let left : Int := (digits.length : Int) - places
  if places == 0 then digits
  else if left ≤ -6 then
    let mantissa := match digits with
      | first :: second :: rest => first :: '.' :: second :: rest
      | short => short
    mantissa ++ ['E', '-'] ++ Nat.toDigits 10 (1 - left).toNat
  else if left ≤ 0 then ['0', '.'] ++ List.replicate (-left).toNat '0' ++ digits
  else digits.take left.toNat ++ '.' :: digits.drop left.toNat

/-- A finite double with the given number of places, or nothing if it has too many digits. -/
def fixed? (negative : Bool) (mantissa : Nat) (exponent : Int) (places : Nat) : Option String :=
  let units := inUnits mantissa exponent places
  if fixedDigitLimit < digitCount units then none
  else
    let text := writeUnits units places
    some (String.ofList (if negative then '-' :: text else text))

end Dartlet.Number
