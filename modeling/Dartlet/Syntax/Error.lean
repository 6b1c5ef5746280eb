import Dartlet.Text.Quoted
import Dartlet.Syntax.Position

/-!
# Errors in program texts

Why a text is not a program, and where.
-/

namespace Dartlet.Syntax

/-- The causes for which a text is refused. -/
inductive Flaw where
  | unexpectedCharacter (c : Char)
  | unexpectedToken (text : String)
  | unexpectedEnd
  | illegalAssignmentTarget
  | illegalPrefixOperand (op : String)
  | illegalPostfixOperand (op : String)
  | tryAlone
  | invalidEscape (letter : Char)
  /-- An escape whose number does not even fit a machine word. -/
  | hugeEscape
  /-- A whole number with more decimal digits than the host reads. -/
  | longNumeral
  | danglingDollar
  | unterminatedInterpolation
  | jumpOutsideLoop (keyword : String)
  | rethrowOutsideCatch
  deriving DecidableEq, Repr

def Flaw.message : Flaw → String
  | .unexpectedCharacter c => "Unexpected character " ++ Text.quoted (String.singleton c)
  | .unexpectedToken text => "Unexpected token " ++ Text.quoted text
  | .unexpectedEnd => "Unexpected end of input"
  | .illegalAssignmentTarget => "Illegal assignment target"
  | .illegalPrefixOperand op => "Illegal operand for prefix " ++ op
  | .illegalPostfixOperand op => "Illegal operand for postfix " ++ op
  | .tryAlone => "try requires a catch or finally clause"
  | .invalidEscape letter => "Invalid escape sequence \\" ++ String.singleton letter
  | .hugeEscape => "Escape sequence out of range"
  | .longNumeral => "Too many digits"
  | .danglingDollar => "Expected an identifier or '\x7b' after '$'"
  | .unterminatedInterpolation => "Unterminated string interpolation"
  | .jumpOutsideLoop keyword => keyword ++ " outside of a loop"
  | .rethrowOutsideCatch => "rethrow outside of a catch clause"

/-- A flaw with its place, if it has one. -/
structure SyntaxError where
  flaw : Flaw
  location : Location
  deriving DecidableEq, Repr

/-- Whether a flaw is one of which nothing can be said: it ends whatever was reading the text. -/
def SyntaxError.isFatal (e : SyntaxError) : Bool := e.flaw == .hugeEscape || e.flaw == .longNumeral

/-- The text of an error: the message, then the place. -/
def SyntaxError.text (e : SyntaxError) : String :=
  match e.location with
  | none => e.flaw.message
  | some p =>
    e.flaw.message ++ " (line " ++ toString p.line ++ ", col " ++ toString p.column ++ ")"

end Dartlet.Syntax
