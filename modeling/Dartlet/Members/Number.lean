import Dartlet.Arithmetic
import Dartlet.Members.Arguments
import Dartlet.Number.Fixed

/-!
# Members of numbers

Both kinds of numbers share their members; a whole number is converted only where the answer is a
double or a text with fixed places.
-/

namespace Dartlet

open Dartlet.Action

variable [Host]

/-- The value of a getter of a number. -/
def NumberGetter.read (n : Numeral) : NumberGetter → Action Value
  | isEven => pure (.bool (match n with
    | .int k => k % 2 == 0
    | .double _ => false))
  | isOdd => pure (.bool (match n with
    | .int k => k % 2 != 0
    | .double _ => false))
  | isNegative => pure (.bool (match n with
    | .int k => k < 0
    | .double x => Number.isSignNegative x && !Number.isNotANumber x))
  | isNaN => pure (.bool (match n with
    | .int _ => false
    | .double x => Number.isNotANumber x))
  | isInfinite => pure (.bool (match n with
    | .int _ => false
    | .double x => Number.isInfinite x))
  | sign => pure (match n with
    | .int k => .int k.sign
    | .double x =>
      if Number.isNotANumber x || n.isZero then .double x
      else .double (if Number.isSignNegative x then -1.0 else 1.0))

namespace NumberMethod

/-- A double as a whole number by some way of rounding. -/
def toWhole (round : Float → Option Int) (x : Float) : Action Value :=
  match round x with
  | some n => pure (.int n)
  | none => escape (.notFinite (Number.Layout.language.write x))

/-- A number as the host writes it. -/
def hostText : Value → String
  | .int n => toString n
  | .double x => Number.Layout.host.write x
  | _ => ""

/-- The whole number that a number is, if it is one. -/
def whole : Value → List Int
  | .int n => [n]
  | _ => []

/-- Whether one number is above another. -/
def above (a b : Value) : Bool := a.compareNumbers? b == some .gt

/-- The order of two numbers as a number: -1, 0 or 1. -/
def order (a b : Value) : Int :=
  match a.compareNumbers? b with
  | some .lt => -1
  | some .gt => 1
  | _ => 0

/-- A number with fixed places. -/
def fixed (n : Numeral) (places : Nat) : Action Value := do
  let x ← ofExcept n.toDouble
  match Number.decode x with
  | .finite negative mantissa exponent =>
    match Number.fixed? negative mantissa exponent places with
    | some text => pure (.string text)
    | none => escape .tooManyDigits
  | _ => pure (.string (Number.Layout.language.write x))

/-- Call a method of a number. -/
def run (n : Numeral) (arguments : List Value) : NumberMethod → Action Value
  | abs => pure (match n with
    | .int k => .int k.natAbs
    | .double x => .double (if Number.isSignNegative x then -x else x))
  | toInt | truncate => match n with
    | .int k => pure (.int k)
    | .double x => toWhole Number.truncate? x
  | toDouble => do
    let x ← ofExcept n.toDouble
    pure (.double x)
  | round => match n with
    | .int k => pure (.int k)
    | .double x => toWhole Number.roundAway? x
  | floor => match n with
    | .int k => pure (.int k)
    | .double x => toWhole Number.floor? x
  | ceil => match n with
    | .int k => pure (.int k)
    | .double x => toWhole Number.ceil? x
  | toStringAsFixed => do
    let places ← intArgument "toStringAsFixed" (argument arguments 0)
    if 0 ≤ places && places ≤ 20 then fixed n places.toNat
    else escape (HostFailure.naming (.outsideRange 0 20 places) [places])
  | compareTo => do
    let other := argument arguments 0
    numArgument "compareTo" other
    pure (.int (order n.toValue other))
  | clamp => do
    let low := argument arguments 0
    let high := argument arguments 1
    numArgument "clamp" low
    numArgument "clamp" high
    if above low high then
      escape (HostFailure.naming (.crossedBounds (hostText high) (hostText low)) (whole high ++ whole low))
    else
      let raised := if above low n.toValue then low else n.toValue
      pure (if above raised high then high else raised)
  | remainder => do
    let other := argument arguments 0
    numArgument "remainder" other
    fun s => ofExcept (binaryResult s .rem n.toValue other) s

end NumberMethod
end Dartlet
