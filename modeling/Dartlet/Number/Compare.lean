import Dartlet.Number.Binary

/-!
# Order of whole numbers and doubles

Numbers of either kind are compared by their exact values, never by rounding one to the other kind.
-/

namespace Dartlet.Number

/-- The order of a whole number and the number `signed * 2 ^ exponent`. -/
def compareScaled (n : Int) (signed : Int) (exponent : Int) : Ordering :=
  if 0 ≤ exponent then compare n (signed * twoTo exponent.toNat)
  else compare (n * twoTo (-exponent).toNat) signed

/-- The order of a whole number and a double, if the double is a number. -/
def compareInt? (n : Int) (x : Float) : Option Ordering :=
  match decode x with
  | .notANumber => none
  | .infinite negative => some (if negative then .gt else .lt)
  | .finite negative mantissa exponent =>
    some (compareScaled n (if negative then -(mantissa : Int) else mantissa) exponent)

/-- The order of two doubles, if both are numbers. The two zeros are equal. -/
def compareFloat? (x y : Float) : Option Ordering :=
  match decode x, decode y with
  | .notANumber, _ => none
  | _, .notANumber => none
  | .infinite a, .infinite b => some (if a == b then .eq else if a then .lt else .gt)
  | .infinite a, .finite _ _ _ => some (if a then .lt else .gt)
  | .finite _ _ _, .infinite b => some (if b then .gt else .lt)
  | .finite a m p, .finite b n q =>
    let e := min p q
    let left : Int := m * twoTo (p - e).toNat
    let right : Int := n * twoTo (q - e).toNat
    some (compare (if a then -left else left) (if b then -right else right))

end Dartlet.Number
