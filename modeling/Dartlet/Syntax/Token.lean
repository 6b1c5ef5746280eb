import Dartlet.Syntax.Position
import Dartlet.Syntax.Terminal

/-!
# Tokens

A program text falls into lexemes: tokens, and blanks and comments that are skipped.
-/

namespace Dartlet.Syntax

/-- A token of a program text. -/
structure Token where
  terminal : Terminal
  text : String
  position : Position
  deriving DecidableEq, Repr

/-- A piece of a program text: a token of the given terminal, or a piece that is skipped. -/
structure Lexeme where
  terminal? : Option Terminal
  text : List Char
  position : Position
  deriving DecidableEq, Repr

/-- The token that a lexeme is, unless it is skipped. -/
def Lexeme.token? (l : Lexeme) : Option Token :=
  l.terminal?.map (fun t => ⟨t, String.ofList l.text, l.position⟩)

/-- A place at which no lexeme begins, with the character that stands there. -/
structure BadCharacter where
  char : Char
  position : Position
  deriving DecidableEq, Repr

/-- A text cut into lexemes up to its end, or up to a character at which none begins. -/
structure Lexed where
  lexemes : List Lexeme
  stop : Option BadCharacter
  deriving DecidableEq, Repr

/-- The tokens of a text, in order. -/
def Lexed.tokens (l : Lexed) : List Token := l.lexemes.filterMap Lexeme.token?

end Dartlet.Syntax
