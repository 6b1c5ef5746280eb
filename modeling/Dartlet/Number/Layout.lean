import Dartlet.Number.Shortest

/-!
# Decimal layouts of doubles

A layout decides which doubles are written with an exponent and how. The digits are always those
of the shortest decimal.
-/

namespace Dartlet.Number

/-- The decisions of a decimal layout. -/
structure Layout where
  /-- The least power of ten of the first digit that is written without an exponent. -/
  positionalFrom : Int
  /-- From this power of ten of the first digit on, an exponent is written. -/
  positionalBelow : Int
  /-- The least number of digits of an exponent. -/
  exponentWidth : Nat
  notANumber : String
  infinite : String

namespace Layout

/-- The decimal digits of a number. -/
def digitsOf (n : Nat) : List Char := Nat.toDigits 10 n

/-- Digits with the point placed for a first digit of the given power of ten. There is always a
digit on both sides of the point. -/
def positional (digits : List Char) (leading : Int) : List Char :=
  if leading < 0 then
    ['0', '.'] ++ List.replicate (-leading - 1).toNat '0' ++ digits
  else
    let whole := leading.toNat + 1
    let padded := digits ++ List.replicate (whole - digits.length) '0'
    let fraction := padded.drop whole
    padded.take whole ++ '.' :: (if fraction.isEmpty then ['0'] else fraction)

/-- Digits with an exponent: the point stands after the first digit and only before others. -/
def scientific (width : Nat) (digits : List Char) (leading : Int) : List Char :=
  let mantissa := match digits with
    | first :: second :: rest => first :: '.' :: second :: rest
    | short => short
  let exponent := digitsOf leading.natAbs
  mantissa ++ 'e' :: (if 0 ≤ leading then '+' else '-') ::
    (List.replicate (width - exponent.length) '0' ++ exponent)

/-- A positive decimal in the layout. -/
def writeDecimal (n : Layout) (d : Decimal) : List Char :=
  let digits := digitsOf d.digits
  if n.positionalFrom ≤ d.leading && d.leading < n.positionalBelow then positional digits d.leading
  else scientific n.exponentWidth digits d.leading

/-- A double in the layout. -/
def write (n : Layout) (x : Float) : String :=
  match decode x with
  | .notANumber => n.notANumber
  | .infinite negative => if negative then "-" ++ n.infinite else n.infinite
  | .finite negative mantissa exponent =>
    let size := if mantissa == 0 then ['0', '.', '0'] else n.writeDecimal (shortest mantissa exponent)
    String.ofList (if negative then '-' :: size else size)

/-- The layout of the language: an exponent below a millionth and from 10^21 on. -/
def language : Layout := ⟨-6, 21, 1, "NaN", "Infinity"⟩

/-- The layout of the host: an exponent below a ten-thousandth and from 10^16 on. -/
def host : Layout := ⟨-4, 16, 2, "nan", "inf"⟩

end Layout
end Dartlet.Number
