import Dartlet.Number.Binary
import Dartlet.Text.Digit

/-!
# Reading numbers

The double nearest to a decimal text. Digits may be of any script.
-/

namespace Dartlet.Number

open Dartlet.Text

/-- The double nearest to `digits * 10 ^ power`. Powers beyond any double's reach are cut off, so
that no needless digits are computed. -/
def ofDecimal (digits : Nat) (power : Int) : Float :=
  if digits == 0 then signedZero false
  else
    let leading := (Nat.toDigits 10 digits).length + power
    if 400 < leading then infinity
    else if leading < -400 then signedZero false
    else
      let found := if 0 ≤ power then ofRatio? false (digits * tenTo power.toNat) 1
        else ofRatio? false digits (tenTo (-power).toNat)
      found.getD infinity

/-- An exponent part without its mark: an optional sign and digits. -/
def readExponent (text : List Char) : Int :=
  match text with
  | '-' :: digits => -(decimalValue digits : Int)
  | '+' :: digits => decimalValue digits
  | digits => decimalValue digits

/-- The double that an unsigned decimal text denotes: digits, a point with more digits, and an
exponent after `e` or `E`, where the last two may be missing. -/
def readDecimal (text : List Char) : Float :=
  let whole := text.takeWhile isDigit
  let rest := text.dropWhile isDigit
  let (fraction, rest) := match rest with
    | '.' :: more => (more.takeWhile isDigit, more.dropWhile isDigit)
    | _ => ([], rest)
  let exponent := match rest with
    | 'e' :: more => readExponent more
    | 'E' :: more => readExponent more
    | _ => 0
  ofDecimal (decimalValue (whole ++ fraction)) (exponent - fraction.length)

end Dartlet.Number
