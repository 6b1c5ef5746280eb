import Dartlet.Number.Read
import Dartlet.Text.Blank

/-!
# Numbers in texts

Which texts are numbers for a program that reads them: blanks around a number do not count, a sign
may stand in front, and digits may be of any script.
-/

namespace Dartlet.Number

open Dartlet.Text

/-- The sign of a text and the text without it. -/
def splitSign (text : List Char) : Bool × List Char :=
  match text with
  | '-' :: rest => (true, rest)
  | '+' :: rest => (false, rest)
  | _ => (false, text)

/-- Whether a text is a run of one or more characters of a class. -/
def isRun (test : Char → Bool) (text : List Char) : Bool := !text.isEmpty && text.all test

/-- The whole number that an unsigned text denotes: hexadecimal digits after `0x`, or decimal
digits. -/
def parseUnsigned? (text : List Char) : Option Nat :=
  let decimal := if isRun isDigit text then some (decimalValue text) else none
  match text with
  | '0' :: x :: digits =>
    if (x == 'x' || x == 'X') && isRun isHexDigit digits then some (hexValue digits) else decimal
  | _ => decimal

/-- The whole number that a text denotes. -/
def parseInt? (text : List Char) : Option Int :=
  let (negative, digits) := splitSign (trim text)
  match parseUnsigned? digits with
  | some n => some (if negative then -(n : Int) else n)
  | none => none

/-- Whether a text is an exponent or empty. -/
def isExponentOrEmpty (text : List Char) : Bool :=
  match text with
  | [] => true
  | mark :: rest => (mark == 'e' || mark == 'E') && isRun isDigit (splitSign rest).2

/-- Whether an unsigned text is a decimal number: digits before or after a point or both, and
perhaps an exponent. -/
def isDecimal (text : List Char) : Bool :=
  let rest := text.dropWhile isDigit
  if text.takeWhile isDigit |>.isEmpty then
    match rest with
    | '.' :: more => !(more.takeWhile isDigit).isEmpty && isExponentOrEmpty (more.dropWhile isDigit)
    | _ => false
  else
    match rest with
    | '.' :: more => isExponentOrEmpty (more.dropWhile isDigit)
    | _ => isExponentOrEmpty rest

/-- The double that an unsigned text denotes. -/
def parseMagnitude? (text : List Char) : Option Float :=
  if text == "Infinity".toList then some infinity
  else if text == "NaN".toList then some nan
  else if isDecimal text then some (readDecimal text)
  else none

/-- The double that a text denotes. -/
def parseDouble? (text : List Char) : Option Float :=
  let (negative, magnitude) := splitSign (trim text)
  match parseMagnitude? magnitude with
  | some x => some (if negative then -x else x)
  | none => none

end Dartlet.Number
