/-!
# Decimal digits

The decimal digits of every script, as Unicode 14 lists them: each script has ten in a row, from
zero to nine.
-/

namespace Dartlet.Text

/-- The digit zero of each script that has decimal digits. -/
def digitZeros : List Nat := [
    0x30, 0x660, 0x6F0, 0x7C0, 0x966, 0x9E6, 0xA66, 0xAE6, 0xB66, 0xBE6, 0xC66, 0xCE6, 0xD66,
    0xDE6, 0xE50, 0xED0, 0xF20, 0x1040, 0x1090, 0x17E0, 0x1810, 0x1946, 0x19D0, 0x1A80, 0x1A90,
    0x1B50, 0x1BB0, 0x1C40, 0x1C50, 0xA620, 0xA8D0, 0xA900, 0xA9D0, 0xA9F0, 0xAA50, 0xABF0,
    0xFF10, 0x104A0, 0x10D30, 0x11066, 0x110F0, 0x11136, 0x111D0, 0x112F0, 0x11450, 0x114D0,
    0x11650, 0x116C0, 0x11730, 0x118E0, 0x11950, 0x11C50, 0x11D50, 0x11DA0, 0x16A60, 0x16AC0,
    0x16B50, 0x1D7CE, 0x1D7D8, 0x1D7E2, 0x1D7EC, 0x1D7F6, 0x1E140, 0x1E2F0, 0x1E950, 0x1FBF0]

/-- The value of a decimal digit of any script. -/
def digitValue? (c : Char) : Option Nat :=
  match digitZeros.find? (fun nought => nought ≤ c.toNat && c.toNat ≤ nought + 9) with
  | some nought => some (c.toNat - nought)
  | none => none

/-- Whether a character is a decimal digit of some script. -/
def isDigit (c : Char) : Bool := (digitValue? c).isSome

/-- The value of a hexadecimal digit: the letters are the basic Latin ones, in either case. -/
def hexLetterValue? (c : Char) : Option Nat :=
  if 'a' ≤ c ∧ c ≤ 'f' then some (c.toNat - 'a'.toNat + 10)
  else if 'A' ≤ c ∧ c ≤ 'F' then some (c.toNat - 'A'.toNat + 10)
  else none

/-- Whether a character is one of the sixteen hexadecimal digits of basic Latin. -/
def isHexDigit (c : Char) : Bool := ('0' ≤ c && c ≤ '9') || (hexLetterValue? c).isSome

/-- The number that a run of decimal digits of any script denotes. Other characters count as
nothing. -/
def decimalValue (digits : List Char) : Nat :=
  digits.foldl (fun n c => match digitValue? c with
    | some d => 10 * n + d
    | none => n) 0

/-- The value of a hexadecimal digit, whose decimal digits may be of any script. -/
def hexDigitValue? (c : Char) : Option Nat := digitValue? c <|> hexLetterValue? c

/-- The number that a run of hexadecimal digits denotes. Other characters count as nothing. -/
def hexValue (digits : List Char) : Nat :=
  digits.foldl (fun n c => match hexDigitValue? c with
    | some d => 16 * n + d
    | none => n) 0

end Dartlet.Text
