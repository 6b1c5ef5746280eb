import Dartlet.Text.Blank
import Dartlet.Text.Digit
import Dartlet.Syntax.Error
import Dartlet.Syntax.Lexer
import Dartlet.Syntax.Program

/-!
# What string literals stand for

A string literal is a sequence of text and embedded expressions. This module removes the quotes,
decodes escapes and finds the embedded expressions; how an expression text is read is left open.
-/

namespace Dartlet.Syntax

open Dartlet.Text

namespace Quotation

/-- The digits of a number in which single underscores may stand between digits. -/
def digitGroups : List Char → Option (List Char)
  | [] => none
  | [c] => if (hexDigitValue? c).isSome then some [c] else none
  | c :: '_' :: rest => if (hexDigitValue? c).isSome then (digitGroups rest).map (c :: ·) else none
  | c :: rest => if (hexDigitValue? c).isSome then (digitGroups rest).map (c :: ·) else none

/-- Whether a blank may stand around the number of an escape: all may but the information
separators. -/
def isNumberBlank (c : Char) : Bool := isBlank c && !('\x1c' ≤ c && c ≤ '\x1f')

/-- The digits after the mark of a hexadecimal number, which an underscore may follow. -/
def afterMark : List Char → List Char
  | '_' :: digits => digits
  | digits => digits

/-- The digits of a number without the mark in front of them, which is a zero of any script and an `x`. -/
def unmarked (text : List Char) : List Char :=
  match text with
  | zero :: x :: rest => if digitValue? zero == some 0 && (x == 'x' || x == 'X') then afterMark rest else text
  | _ => text

/-- The number that a text without a sign holds. -/
def unsigned? (text : List Char) : Option Nat := (digitGroups (unmarked text)).map hexValue

/-- A hexadecimal number as an escape may hold it: blanks around it, a sign, a `0x` in front and
underscores between the digits are allowed. -/
def hexNumber? (text : List Char) : Option Int :=
  match ((text.dropWhile isNumberBlank).reverse.dropWhile isNumberBlank).reverse with
  | '-' :: rest => (unsigned? rest).map (fun n => -(n : Int))
  | '+' :: rest => (unsigned? rest).map (fun n => (n : Int))
  | rest => (unsigned? rest).map (fun n => (n : Int))

/-- The code point with the number that a text holds. -/
def codePoint (letter : Char) (text : List Char) : Except Flaw Nat :=
  match hexNumber? text with
  | none => .error (.invalidEscape letter)
  | some n =>
    if n < -0x80000000 || 0x80000000 ≤ n then .error .hugeEscape
    else if n < 0 || 0x110000 ≤ n then .error (.invalidEscape letter)
    else .ok n.toNat

/-- The code points that an escape stands for, and how many characters after the backslash it takes. The text
begins after the backslash. -/
def escape (text : List Char) : Except Flaw (List Nat × Nat) :=
  match text with
  | [] => .ok ([], 0)
  | 'x' :: rest => (codePoint 'x' (rest.take 2)).map (fun n => ([n], 3))
  | 'u' :: '{' :: rest =>
    let number := rest.takeWhile (· != '}')
    if number.length == rest.length then .error (.invalidEscape 'u')
    else (codePoint 'u' number).map (fun n => ([n], number.length + 3))
  | 'u' :: rest => (codePoint 'u' (rest.take 4)).map (fun n => ([n], 5))
  | '\n' :: _ => .ok ([], 1)
  | 'n' :: _ => .ok (['\n'.toNat], 1)
  | 't' :: _ => .ok (['\t'.toNat], 1)
  | 'r' :: _ => .ok (['\r'.toNat], 1)
  | 'b' :: _ => .ok (['\x08'.toNat], 1)
  | 'f' :: _ => .ok (['\x0c'.toNat], 1)
  | 'v' :: _ => .ok (['\x0b'.toNat], 1)
  | c :: _ => .ok ([c.toNat], 1)

/-- The text up to the brace that closes an embedded expression, with the open braces so far and
the quote that is open. -/
def untilBrace : Nat → Option Char → List Char → Option (List Char)
  | _, _, [] => none
  | depth, some quote, c :: rest =>
    if c == '\\' then
      match rest with
      | [] => none
      | d :: more => (untilBrace depth (some quote) more).map (c :: d :: ·)
    else (untilBrace depth (if c == quote then none else some quote) rest).map (c :: ·)
  | depth, none, c :: rest =>
    if c == '\'' || c == '"' then (untilBrace depth (some c) rest).map (c :: ·)
    else if c == '{' then (untilBrace (depth + 1) none rest).map (c :: ·)
    else if c == '}' then
      match depth with
      | 0 => some []
      | n + 1 => (untilBrace n none rest).map (c :: ·)
    else (untilBrace depth none rest).map (c :: ·)

/-- Whether a name after a dollar sign may begin with the character. -/
def isNameStart (c : Char) : Bool :=
  ('A' ≤ c && c ≤ 'Z') || ('a' ≤ c && c ≤ 'z') || c == '_'

/-- Whether a name after a dollar sign may go on with the character. -/
def isNameRest (c : Char) : Bool := isNameStart c || ('0' ≤ c && c ≤ '9')

/-- Text that has been collected, as a part of its own. Nothing collected is no part; a collected
escape that stands for nothing is one. -/
def flush : Option (List Char) → List Part
  | none => []
  | some reversed => [.text (String.ofList reversed.reverse)]

/-- The parts of the inside of a literal. `read` reads the text of an embedded expression, `location`
is where the literal begins, and `pending` is the text collected since the last part, backwards. At
most `limit` steps are made. A text consists of characters, so a surrogate among the code points of an
escape is not kept as such: U+0000 is in its place. -/
def parts (read : String → Except SyntaxError Expr) (location : Location) :
    Nat → Option (List Char) → List Char → Except SyntaxError (List Part)
  | _, pending, [] => .ok (flush pending)
  | 0, pending, _ :: _ => .ok (flush pending)
  | limit + 1, pending, '\\' :: rest =>
    match escape rest with
    | .error flaw => .error ⟨flaw, location⟩
    | .ok (decoded, length) =>
      parts read location limit (some ((decoded.map Char.ofNat).reverse ++ pending.getD [])) (rest.drop length)
  | limit + 1, pending, '$' :: '{' :: rest =>
    match untilBrace 0 none rest with
    | none => .error ⟨.unterminatedInterpolation, location⟩
    | some code =>
      match read (String.ofList code) with
      | .error e => .error e
      | .ok expression =>
        (parts read location limit none (rest.drop (code.length + 1))).map
          (fun more => flush pending ++ .code expression :: more)
  | limit + 1, pending, '$' :: rest =>
    match rest with
    | [] => .error ⟨.danglingDollar, location⟩
    | c :: more =>
      if isNameStart c then
        let name := c :: more.takeWhile isNameRest
        (parts read location limit none (rest.drop name.length)).map
          (fun following => flush pending ++ .code (.identifier location (String.ofList name)) :: following)
      else .error ⟨.danglingDollar, location⟩
  | limit + 1, pending, c :: rest => parts read location limit (some (c :: pending.getD [])) rest

/-- The inside of a literal in triple quotes without a line end right after the opening quotes. -/
def dropLineEnd : List Char → List Char
  | '\r' :: '\n' :: rest => rest
  | '\n' :: rest => rest
  | text => text

/-- The inside of a literal without its quotes, the mark of a raw literal already removed. -/
def inside (text : List Char) : List Char :=
  match text with
  | a :: b :: c :: rest =>
    if (a == '"' || a == '\'') && b == a && c == a then dropLineEnd (rest.take (rest.length - 3))
    else (b :: c :: rest).dropLast
  | _ :: rest => rest.dropLast
  | [] => []

/-- The parts of one string token. -/
def ofToken (read : String → Except SyntaxError Expr) (token : Token) : Except SyntaxError (List Part) :=
  match token.text.toList with
  | 'r' :: text => .ok [.text (String.ofList (inside text))]
  | text =>
    let body := inside text
    parts read (some token.position) body.length none body

/-- Join neighbouring texts. -/
def joinTexts : List Part → List Part
  | .text a :: rest =>
    match joinTexts rest with
    | .text b :: more => .text (a ++ b) :: more
    | more => .text a :: more
  | part :: rest => part :: joinTexts rest
  | [] => []

/-- The text of parts that hold no expression. -/
def plainText? : List Part → Option String
  | [] => some ""
  | .text a :: rest => (plainText? rest).map (a ++ ·)
  | .code _ :: _ => none

/-- The expression that neighbouring string tokens form together. -/
def literal (read : String → Except SyntaxError Expr) (location : Location) (tokens : List Token) :
    Except SyntaxError Expr :=
  match tokens.mapM (ofToken read) with
  | .error e => .error e
  | .ok found =>
    let joined := joinTexts found.flatten
    match plainText? joined with
    | some text => .ok (.stringLiteral location text)
    | none => .ok (.interpolation location joined)

end Quotation
end Dartlet.Syntax
