import Dartlet.Syntax.Assembly
import Dartlet.Syntax.Jumps

/-!
# Reading program texts

A text is cut into tokens, the tokens are read as a sentence of the grammar, the program is built
from the derivation, and last its jumps are checked. Of a bad character and a token that does not
fit, the one that comes first in the text is the error.
-/

namespace Dartlet.Syntax

/-- An `import`, `export`, `library` or `part` line, which has no effect: its keyword, and the
words and strings after it. -/
structure Directive where
  keyword : String
  words : List String
  deriving DecidableEq, Repr

namespace Directive

/-- The directive that a derivation of one stands for. -/
def ofDerivation (d : Derivation) : Option Directive :=
  match d.tokens with
  | [] => none
  | keyword :: rest =>
    some ⟨keyword.text,
      (rest.filter (fun t => t.terminal == .string || t.terminal == .identifier)).map Token.text⟩

mutual

/-- The directives in a derivation, in order. -/
def allIn : Derivation → List Directive
  | .leaf _ => []
  | .node rule location parts =>
    match rule.head with
    | .directive => (ofDerivation (.node rule location parts)).toList
    | .unit | .directives => allInParts parts
    | _ => []

/-- The directives in several derivations, in order. -/
def allInParts : List Derivation → List Directive
  | [] => []
  | d :: rest => allIn d ++ allInParts rest

end

end Directive

/-- A derivation of a text, nothing for the empty sentence, or why there is none. -/
def derive (start : Category) (text : String) : Except SyntaxError (Option Derivation) :=
  let lexed := lex text
  match readTokens start lexed.tokens, lexed.stop with
  | .unexpectedToken t, _ => .error ⟨.unexpectedToken t.text, some t.position⟩
  | _, some bad => .error ⟨.unexpectedCharacter bad.char, some bad.position⟩
  | .unexpectedEnd, none => .error ⟨.unexpectedEnd, none⟩
  | .sentence d, none => .ok d

variable [Host]

/-- The piece of a program that a text stands for, before its jumps are checked. -/
def readPiece (read : String → Except SyntaxError Expr) (start : Category) (text : String) :
    Except SyntaxError Piece :=
  match derive start text with
  | .error e => .error e
  | .ok none => .ok (.many [])
  | .ok (some d) => d.build read

/-- An expression whose jumps are checked. -/
def checkedExpr (piece : Piece) : Except SyntaxError Expr :=
  match piece with
  | .expr e =>
    match e.jumpError .nothing with
    | some error => .error error
    | none => .ok e
  | _ => .error ⟨.unexpectedEnd, none⟩

/-- Read an expression. Texts embedded in its strings are read the same way; they are shorter, so
`depth` levels suffice. -/
def readExpr : Nat → String → Except SyntaxError Expr
  | 0, _ => .error ⟨.unexpectedEnd, none⟩
  | depth + 1, text =>
    match readPiece (readExpr depth) .expression text with
    | .error e => .error e
    | .ok piece => checkedExpr piece

/-- The levels of embedded texts that a text may have. -/
def embeddingLimit (text : String) : Nat := text.length + 1

/-- Read the text of an expression. -/
def parseExpression (text : String) : Except SyntaxError Expr := readExpr (embeddingLimit text) text

/-- Read the text of a list of statements. -/
def parseStatements (text : String) : Except SyntaxError (List Stmt) :=
  match readPiece (readExpr (embeddingLimit text)) .script text with
  | .error e => .error e
  | .ok piece =>
    let statements := piece.flatten.filterMap Piece.stmt?
    match jumpErrorStmts .nothing statements with
    | some error => .error error
    | none => .ok statements

/-- Read the text of a whole program. The empty program has no place. -/
def parseUnit (text : String) : Except SyntaxError Stmt :=
  match readPiece (readExpr (embeddingLimit text)) .unit text with
  | .error e => .error e
  | .ok piece =>
    let unit := (piece.stmt?).getD (.unit none [])
    match unit.jumpError .nothing with
    | some error => .error error
    | none => .ok unit

/-- The directives of a program text, if it is a sentence of the grammar. -/
def directives (text : String) : List Directive :=
  match derive .unit text with
  | .ok (some d) => Directive.allIn d
  | _ => []

/-- The brackets left open at the end of a text. A text that does not fall into tokens, or that
closes more than it opens, has none. -/
def bracketDepth (text : String) : Nat :=
  let lexed := lex text
  match lexed.stop with
  | some _ => 0
  | none =>
    let opened := lexed.tokens.countP (fun t => [.leftParen, .leftBracket, .leftBrace].contains t.terminal)
    let closed := lexed.tokens.countP (fun t => [.rightParen, .rightBracket, .rightBrace].contains t.terminal)
    opened - closed

end Dartlet.Syntax
