/-!
# Binary floating point

A double is a whole number times a power of two. This module takes doubles apart, and finds the
double nearest to a fraction, a tie going to the even neighbour.
-/

namespace Dartlet.Number

/-- A power of two. -/
def twoTo (n : Nat) : Nat := Nat.pow 2 n

/-- A power of ten. -/
def tenTo (n : Nat) : Nat := Nat.pow 10 n

/-- What a double stands for. -/
inductive Decoded where
  | notANumber
  | infinite (negative : Bool)
  /-- The number `mantissa * 2 ^ exponent`, negated if `negative`; zero has a sign too. -/
  | finite (negative : Bool) (mantissa : Nat) (exponent : Int)
  deriving DecidableEq, Repr

/-- Take the bits of a double apart: sign, eleven bits of exponent, fifty-two of fraction. -/
def decodeBits (bits : Nat) : Decoded :=
  let negative := bits / twoTo 63 == 1
  let exponent : Nat := bits / twoTo 52 % twoTo 11
  let fraction : Nat := bits % twoTo 52
  if exponent == 2047 then
    if fraction == 0 then .infinite negative else .notANumber
  else if exponent == 0 then .finite negative fraction (-1074)
  else .finite negative (fraction + twoTo 52) ((exponent : Int) - 1075)

/-- What a double stands for. -/
def decode (x : Float) : Decoded := decodeBits x.toBits.toNat

/-- The whole number nearest to `num / den`, a tie going to the even one. -/
def roundHalfEven (num den : Nat) : Nat :=
  let q := num / den
  let twice := 2 * (num % den)
  if twice < den then q
  else if den < twice then q + 1
  else if q % 2 == 0 then q else q + 1

/-- The exponent of the last place of the double nearest to `num / den`, for positive `num`. -/
def lastPlace (num den : Nat) : Int :=
  let guess : Int := (num.log2 : Int) - den.log2
  let reached := if 0 ≤ guess then den * twoTo guess.toNat ≤ num else den ≤ num * twoTo (-guess).toNat
  max (if reached then guess - 52 else guess - 53) (-1074)

/-- The bits of the double nearest to `num / den`. They exceed every finite double's when the
fraction is too large. -/
def nearestBits (num den : Nat) : Nat :=
  if num == 0 then 0
  else
    let place := lastPlace num den
    let mantissa :=
      if 0 ≤ place then roundHalfEven num (den * twoTo place.toNat)
      else roundHalfEven (num * twoTo (-place).toNat) den
    (place + 1074).toNat * twoTo 52 + mantissa

/-- The bits of positive infinity, just past the largest finite double. -/
def infinityBits : Nat := 2047 * twoTo 52

/-- The double nearest to `num / den`, negated if `negative`, or nothing if it is out of range. -/
def ofRatio? (negative : Bool) (num den : Nat) : Option Float :=
  let bits := nearestBits num den
  if bits < infinityBits then
    some (Float.ofBits (UInt64.ofNat (if negative then bits + twoTo 63 else bits)))
  else none

/-- The double nearest to a whole number, or nothing if it is out of range. -/
def ofInt? (n : Int) : Option Float := ofRatio? (n < 0) n.natAbs 1

/-- The double nearest to a quotient of whole numbers, or nothing if it is out of range. The
quotient of zero by a negative number is the negative zero. -/
def quotient? (a b : Int) : Option Float := ofRatio? ((a < 0) != (b < 0)) a.natAbs b.natAbs

/-- Positive infinity. -/
def infinity : Float := Float.ofBits (UInt64.ofNat infinityBits)

/-- Negative infinity. -/
def negativeInfinity : Float := Float.ofBits (UInt64.ofNat (infinityBits + twoTo 63))

/-- The double that is no number. -/
def nan : Float := Float.ofBits (UInt64.ofNat (infinityBits + twoTo 51))

/-- The largest finite double. -/
def maxFinite : Float := Float.ofBits (UInt64.ofNat (infinityBits - 1))

/-- Zero with the given sign. -/
def signedZero (negative : Bool) : Float :=
  Float.ofBits (UInt64.ofNat (if negative then twoTo 63 else 0))

/-- Whether the sign bit of a double is set. -/
def isSignNegative (x : Float) : Bool := x.toBits.toNat / twoTo 63 == 1

/-- Whether a double is no number. -/
def isNotANumber (x : Float) : Bool := decode x == .notANumber

/-- Whether a double is one of the infinities. -/
def isInfinite (x : Float) : Bool :=
  match decode x with
  | .infinite _ => true
  | _ => false

/-- A double without its fraction, or nothing for the infinities and for what is no number. -/
def truncate? (x : Float) : Option Int :=
  match decode x with
  | .finite negative mantissa exponent =>
    let size := if 0 ≤ exponent then mantissa * twoTo exponent.toNat else mantissa / twoTo (-exponent).toNat
    some (if negative then -(size : Int) else size)
  | _ => none

/-- The whole number nearest to a double, a tie going away from zero. -/
def roundAway? (x : Float) : Option Int :=
  match decode x with
  | .finite negative mantissa exponent =>
    let size :=
      if 0 ≤ exponent then mantissa * twoTo exponent.toNat
      else (2 * mantissa + twoTo (-exponent).toNat) / (2 * twoTo (-exponent).toNat)
    some (if negative then -(size : Int) else size)
  | _ => none

/-- The greatest whole number that is not above a double. -/
def floor? (x : Float) : Option Int :=
  match decode x with
  | .finite negative mantissa exponent =>
    let signed : Int := if negative then -(mantissa : Int) else mantissa
    some (if 0 ≤ exponent then signed * twoTo exponent.toNat else Int.fdiv signed (twoTo (-exponent).toNat))
  | _ => none

/-- The least whole number that is not below a double. -/
def ceil? (x : Float) : Option Int :=
  match decode x with
  | .finite negative mantissa exponent =>
    let signed : Int := if negative then -(mantissa : Int) else mantissa
    some (if 0 ≤ exponent then signed * twoTo exponent.toNat
      else -(Int.fdiv (-signed) (twoTo (-exponent).toNat)))
  | _ => none

/-- The remainder of a division of finite doubles whose quotient is cut toward zero. It is exact
and has the sign of the dividend. -/
def remainder (x y : Float) : Float :=
  match decode x, decode y with
  | .finite negative m p, .finite _ n q =>
    if n == 0 then nan
    else
      let e := min p q
      let rest := (m * twoTo (p - e).toNat) % (n * twoTo (q - e).toNat)
      let exact := if 0 ≤ e then ofRatio? negative (rest * twoTo e.toNat) 1
        else ofRatio? negative rest (twoTo (-e).toNat)
      exact.getD nan
  | .finite _ _ _, .infinite _ => x
  | _, _ => nan

end Dartlet.Number
