import Dartlet.Number.Binary

/-!
# The shortest decimal

Among the decimals that round to a given double, the one with the fewest digits, and of those the
nearest to the double.
-/

namespace Dartlet.Number

/-- A positive decimal: the digits, first one not zero, and the power of ten of the first digit. -/
structure Decimal where
  digits : Nat
  leading : Int
  deriving DecidableEq, Repr

/-- The positive number `value / scale` with the bounds between which every number rounds to it.
The bounds belong to the interval if `closed`. -/
structure Interval where
  low : Nat
  value : Nat
  high : Nat
  scale : Nat
  closed : Bool

/-- The numbers that round to `mantissa * 2 ^ exponent`. Below a power of two the doubles lie twice
as dense, so the lower bound is nearer there. -/
def roundingInterval (mantissa : Nat) (exponent : Int) : Interval :=
  let below := if mantissa == twoTo 52 && decide (-1074 < exponent) then 1 else 2
  let unit := exponent - 2
  let grow := if 0 ≤ unit then twoTo unit.toNat else 1
  let scale := if 0 ≤ unit then 1 else twoTo (-unit).toNat
  { low := (4 * mantissa - below) * grow
    value := 4 * mantissa * grow
    high := (4 * mantissa + 2) * grow
    scale := scale
    closed := mantissa % 2 == 0 }

/-- The same interval with all numbers divided by `10 ^ power`. -/
def Interval.divide (i : Interval) (power : Int) : Interval :=
  if 0 ≤ power then { i with scale := i.scale * tenTo power.toNat }
  else
    let f := tenTo (-power).toNat
    { i with low := i.low * f, value := i.value * f, high := i.high * f }

/-- Whether a whole number lies in the interval. -/
def Interval.holds (i : Interval) (n : Nat) : Bool :=
  let scaled := n * i.scale
  if i.closed then i.low ≤ scaled && scaled ≤ i.high else i.low < scaled && scaled < i.high

/-- The whole number in the interval that is nearest to its value, of the two that enclose it. -/
def Interval.nearest? (i : Interval) : Option Nat :=
  let floor := i.value / i.scale
  let lowerHit := i.holds floor
  let upperHit := i.holds (floor + 1)
  let rest := 2 * (i.value % i.scale)
  if lowerHit && upperHit then
    some (if rest < i.scale then floor else if i.scale < rest then floor + 1
      else if floor % 2 == 0 then floor else floor + 1)
  else if lowerHit then some floor
  else if upperHit then some (floor + 1)
  else none

/-- The number of decimal digits of a number, one for zero. -/
def digitCount (n : Nat) : Nat := (Nat.toDigits 10 n).length

/-- The power of ten of the first digit of `num / den`, searching among fractions below one for at
most `limit` places. -/
def leadingPower (limit num den : Nat) : Int :=
  if den ≤ num then (digitCount (num / den) : Int) - 1
  else search limit 1 (num * 10)
where
  search : Nat → Nat → Nat → Int
    | 0, places, _ => -(places : Int)
    | n + 1, places, scaled => if den ≤ scaled then -(places : Int) else search n (places + 1) (scaled * 10)

/-- The first count of digits, from `count` on, for which the interval holds a decimal. -/
def shortestFrom (i : Interval) (leading : Int) : Nat → Nat → Decimal
  | 0, _ => ⟨0, leading⟩
  | n + 1, count =>
    match (i.divide (leading - count + 1)).nearest? with
    | some digits => if digits == tenTo count then ⟨1, leading + 1⟩ else ⟨digits, leading⟩
    | none => shortestFrom i leading n (count + 1)

/-- Drop the zeros at the end of a number's digits. -/
def dropTrailingZeros : Nat → Nat → Nat
  | 0, n => n
  | fuel + 1, n => if n != 0 && n % 10 == 0 then dropTrailingZeros fuel (n / 10) else n

/-- The shortest decimal of the positive double `mantissa * 2 ^ exponent`. Seventeen digits always
suffice. -/
def shortest (mantissa : Nat) (exponent : Int) : Decimal :=
  let i := roundingInterval mantissa exponent
  let d := shortestFrom i (leadingPower 400 i.value i.scale) 17 1
  { d with digits := dropTrailingZeros 20 d.digits }

end Dartlet.Number
