import Dartlet.Text.Pattern
import Dartlet.Text.Digit
import Dartlet.Syntax.Token

/-!
# Cutting a text into lexemes

At each place a string literal is tried first, then a number with a fraction or an exponent, then
words, whole numbers, blanks and comments, and last the symbols, the longest first.
-/

namespace Dartlet.Syntax

open Dartlet.Text

namespace Lexer

/-- The inside of a string literal up to its closing quote: escapes, embedded expressions and plain
characters. An embedded expression may hold quoted texts and one level of braces; a dollar sign
that does not begin one stands for itself. -/
def quotedBody (quote : Char) : Pattern :=
  let escape := .seq (.char '\\') (.noneOf ['\n'])
  let inner := fun (q : Char) =>
    Pattern.word [q] (.seq (.many (.choice (.noneOf [q, '\\', '\n']) escape)) (.char q))
  let braces := Pattern.word ['{'] (.seq (.many (.noneOf ['{', '}', '\n'])) (.char '}'))
  let embedded := Pattern.word ['$', '{']
    (.seq (.many (.firstOf [.noneOf ['{', '}', '"', '\'', '\n'], inner '"', inner '\''] braces)) (.char '}'))
  .seq (.many (.firstOf [.noneOf [quote, '\\', '\n', '$'], escape, embedded] (.char '$'))) (.char quote)

/-- The inside of a literal in triple quotes, up to the first three quotes that no escape hides. -/
def tripleBody (quote : Char) : Pattern :=
  .seq (.few (.choice (.noneOf ['\\']) (.seq (.char '\\') .any))) (.word [quote, quote] (.char quote))

/-- The inside of a raw literal in triple quotes, up to the first three quotes. -/
def rawTripleBody (quote : Char) : Pattern :=
  .seq (.few .any) (.word [quote, quote] (.char quote))

/-- The inside of a raw literal on one line, up to the closing quote. -/
def rawBody (quote : Char) : Pattern :=
  .seq (.many (.noneOf [quote, '\n'])) (.char quote)

/-- String literals. -/
def stringLiteral : Pattern :=
  .firstOf [
    .word ['r', '"', '"', '"'] (rawTripleBody '"'),
    .word ['r', '\'', '\'', '\''] (rawTripleBody '\''),
    .word ['"', '"', '"'] (tripleBody '"'),
    .word ['\'', '\'', '\''] (tripleBody '\''),
    .word ['r', '"'] (rawBody '"'),
    .word ['r', '\''] (rawBody '\''),
    .word ['"'] (quotedBody '"')]
    (.word ['\''] (quotedBody '\''))

/-- Whether a word may begin with the character. -/
def isWordStart (c : Char) : Bool :=
  ('A' ≤ c && c ≤ 'Z') || ('a' ≤ c && c ≤ 'z') || c == '_' || c == '$'

/-- Whether a word may go on with the character. -/
def isWordRest (c : Char) : Bool := isWordStart c || ('0' ≤ c && c ≤ '9')

/-- Whether a character separates tokens. -/
def isSpace (c : Char) : Bool :=
  c == ' ' || c == '\t' || c == '\x0c' || c == '\r' || c == '\n'

/-- The length of an exponent: its mark, an optional sign and digits; zero if there is none. -/
def exponentLength (text : List Char) : Nat :=
  match text with
  | [] => 0
  | mark :: rest =>
    if mark == 'e' || mark == 'E' then
      match rest with
      | [] => 0
      | sign :: more =>
        if sign == '+' || sign == '-' then
          let digits := (more.takeWhile isDigit).length
          if digits == 0 then 0 else digits + 2
        else
          let digits := (rest.takeWhile isDigit).length
          if digits == 0 then 0 else digits + 1
    else 0

/-- The length of a number with a fraction or an exponent or both at the front of a text. -/
def doubleLength? (text : List Char) : Option Nat :=
  let whole := (text.takeWhile isDigit).length
  let rest := text.dropWhile isDigit
  if whole == 0 then none
  else
    match rest with
    | '.' :: more =>
      let fraction := (more.takeWhile isDigit).length
      if fraction == 0 then none
      else some (whole + 1 + fraction + exponentLength (more.dropWhile isDigit))
    | _ =>
      let exponent := exponentLength rest
      if exponent == 0 then none else some (whole + exponent)

/-- The length of a whole number at the front of a text: hexadecimal digits after `0x`, or decimal
digits. -/
def integerLength? (text : List Char) : Option Nat :=
  let decimal := (text.takeWhile isDigit).length
  let hexadecimal := match text with
    | '0' :: x :: rest => if x == 'x' || x == 'X' then (rest.takeWhile isHexDigit).length else 0
    | _ => 0
  if hexadecimal != 0 then some (hexadecimal + 2)
  else if decimal != 0 then some decimal
  else none

/-- The length of a text up to and including the first `*/`. -/
def blockCommentRest? : List Char → Option Nat
  | [] => none
  | '*' :: '/' :: _ => some 2
  | _ :: rest => (blockCommentRest? rest).map (· + 1)

/-- The length of a comment at the front of a text: to the end of the line, or to the closing mark. -/
def commentLength? (text : List Char) : Option Nat :=
  match text with
  | '/' :: '/' :: rest => some (2 + (rest.takeWhile (· != '\n')).length)
  | '/' :: '*' :: rest => (blockCommentRest? rest).map (· + 2)
  | _ => none

/-- The symbol at the front of a text. -/
def symbol? (text : List Char) : Option (Terminal × Nat) :=
  match Terminal.symbols.find? (fun entry => entry.1.toList.isPrefixOf text) with
  | some entry => some (entry.2, entry.1.length)
  | none => none

/-- The kind and length of the lexeme at the front of a text. -/
def next? (text : List Char) : Option (Option Terminal × Nat) :=
  match stringLiteral.matchLength? text with
  | some n => some (some .string, n)
  | none =>
    match doubleLength? text with
    | some n => some (some .double, n)
    | none =>
      match integerLength? text with
      | some n => some (some .integer, n)
      | none =>
        match commentLength? text with
        | some n => some (none, n)
        | none =>
          match text with
          | [] => none
          | c :: rest =>
            if isWordStart c then
              let word := c :: rest.takeWhile isWordRest
              some (some (Terminal.ofWord (String.ofList word)), word.length)
            else if isSpace c then some (none, 1 + (rest.takeWhile isSpace).length)
            else (symbol? text).map (fun (t, n) => (some t, n))

/-- Cut a text into at most `limit` lexemes. -/
def scan : Nat → Position → List Char → Lexed
  | _, _, [] => ⟨[], none⟩
  | 0, position, c :: _ => ⟨[], some ⟨c, position⟩⟩
  | limit + 1, position, c :: rest =>
    match next? (c :: rest) with
    | none => ⟨[], some ⟨c, position⟩⟩
    | some (terminal?, length) =>
      let text := (c :: rest).take length
      let more := scan limit (position.after text) ((c :: rest).drop length)
      ⟨⟨terminal?, text, position⟩ :: more.lexemes, more.stop⟩

end Lexer

/-- Cut a text into lexemes. Each has at least one character, so the length of the text bounds
their number. -/
def lex (text : String) : Lexed :=
  let chars := text.toList
  Lexer.scan chars.length Position.start chars

end Dartlet.Syntax
