import Dartlet.Syntax.Grammar

/-!
# The grammar in extended notation

The grammar as it is usually written: each category by a phrase with parts that are optional,
repeated or in a list with commas. The terminals that the phrase of a category matches are its
sentences. This is the reference for the rules that charts work with, which know none of these means.
-/

namespace Dartlet.Syntax

/-- The right side of a rule in extended notation. -/
inductive Phrase where
  | tok (t : Terminal)
  | cat (c : Category)
  | seq (a b : Phrase)
  | alt (a b : Phrase)
  /-- At most one. -/
  | opt (a : Phrase)
  /-- Any number, one after the other. -/
  | many (a : Phrase)
  /-- One or more, one after the other. -/
  | several (a : Phrase)
  /-- One or more, with commas between them. -/
  | list (a : Phrase)
  deriving DecidableEq, Repr

namespace Phrase

instance : Append Phrase := ⟨seq⟩

instance : OrOp Phrase := ⟨alt⟩

/-- A phrase in parentheses. -/
def parens (a : Phrase) : Phrase := tok .leftParen ++ a ++ tok .rightParen

/-- A list between two terminals that may be empty and may end in a comma. -/
def enclosed (left right : Terminal) (a : Phrase) : Phrase :=
  tok left ++ opt (list a ++ opt (tok .comma)) ++ tok right

end Phrase

namespace Grammar

open Phrase

/-- The phrase of a category. Those at the end are parts of the others, named because the rules of
charts need names for them. -/
def phrase : Category → Phrase
  -- entry points
  | .unit => many (cat .directive) ++
      many (cat .functionDeclaration ||| cat .variableDeclarations ++ tok .semicolon)
  | .script => many (cat .statement)
  | .expression => cat .expr
  | .directive => (tok .kwImport ||| tok .kwExport ||| tok .kwLibrary ||| tok .kwPart) ++
      many (cat .directivePart) ++ tok .semicolon
  | .directivePart => tok .string ||| tok .identifier ||| tok .comma ||| tok .dot
  -- declarations
  | .functionDeclaration => opt (cat .type) ++ tok .identifier ++ cat .formals ++ cat .functionBody
  | .functionBody => cat .block ||| tok .arrow ++ cat .expr ++ tok .semicolon
  | .formals => tok .leftParen ++ tok .rightParen ||| parens (cat .normals ++ opt (tok .comma)) |||
      parens (cat .optionals) ||| parens (cat .normals ++ tok .comma ++ cat .optionals)
  | .normals => list (cat .normal)
  | .normal => many (tok .kwFinal ||| tok .kwVar) ++ opt (cat .type) ++ tok .identifier
  | .optionals =>
      tok .leftBracket ++ list (cat .defaulted) ++ opt (tok .comma) ++ tok .rightBracket |||
      tok .leftBrace ++ list (cat .defaulted) ++ opt (tok .comma) ++ tok .rightBrace
  | .defaulted => opt (tok .kwRequired) ++ cat .normal ++ opt (tok .assign ++ cat .expr)
  | .variableDeclarations => cat .declarationWord ++ opt (cat .type) ++ cat .variables |||
      cat .type ++ cat .variables
  | .declarationWord => opt (tok .kwLate) ++ (tok .kwVar ||| tok .kwFinal ||| tok .kwConst) ||| tok .kwLate
  | .variables => list (cat .variable)
  | .variable => tok .identifier ++ opt (tok .assign ++ cat .expr)
  | .type => tok .kwVoid ||| tok .identifier ++ opt (cat .typeArguments) ++ opt (tok .question)
  | .typeArguments => tok .lt ++ list (cat .type) ++ tok .gt
  -- statements
  | .statement => cat .openStatement ||| cat .closedStatement
  | .closedStatement => cat .simpleStatement |||
      tok .kwIf ++ parens (cat .expr) ++ cat .closedStatement ++ tok .kwElse ++ cat .closedStatement |||
      tok .kwWhile ++ parens (cat .expr) ++ cat .closedStatement |||
      tok .kwFor ++ parens (cat .forParts) ++ cat .closedStatement
  | .openStatement => tok .kwIf ++ parens (cat .expr) ++ cat .statement |||
      tok .kwIf ++ parens (cat .expr) ++ cat .closedStatement ++ tok .kwElse ++ cat .openStatement |||
      tok .kwWhile ++ parens (cat .expr) ++ cat .openStatement |||
      tok .kwFor ++ parens (cat .forParts) ++ cat .openStatement
  | .simpleStatement => cat .block ||| cat .functionDeclaration |||
      cat .variableDeclarations ++ tok .semicolon ||| cat .expr ++ tok .semicolon |||
      tok .kwReturn ++ opt (cat .expr) ++ tok .semicolon ||| tok .kwBreak ++ tok .semicolon |||
      tok .kwContinue ++ tok .semicolon ||| tok .kwRethrow ++ tok .semicolon |||
      tok .kwDo ++ cat .statement ++ tok .kwWhile ++ parens (cat .expr) ++ tok .semicolon |||
      cat .tryStatement ||| tok .semicolon
  | .block => tok .leftBrace ++ many (cat .statement) ++ tok .rightBrace
  | .tryStatement => tok .kwTry ++ cat .block ++ many (cat .catchPart) ++ opt (cat .finallyPart)
  | .catchPart =>
      tok .kwOn ++ cat .type ++ tok .kwCatch ++
        parens (tok .identifier ++ opt (tok .comma ++ tok .identifier)) ++ cat .block |||
      tok .kwOn ++ cat .type ++ cat .block |||
      tok .kwCatch ++ parens (tok .identifier ++ opt (tok .comma ++ tok .identifier)) ++ cat .block
  | .finallyPart => tok .kwFinally ++ cat .block
  | .forParts =>
      opt (cat .forStart) ++ tok .semicolon ++ opt (cat .expr) ++ tok .semicolon ++ opt (cat .expressionList) |||
      cat .loopVariable ++ tok .kwIn ++ cat .expr
  | .forStart => cat .variableDeclarations ||| cat .expressionList
  | .expressionList => list (cat .expr)
  | .loopVariable => cat .declarationWord ++ opt (cat .type) ++ tok .identifier |||
      cat .type ++ tok .identifier ||| tok .identifier
  -- expressions
  | .expr => cat .assignmentExpr ||| cat .formals ++ tok .arrow ++ cat .expr ||| tok .kwThrow ++ cat .expr
  | .assignmentExpr => cat .conditionalExpr ||| cat .postfixExpr ++ cat .assignOp ++ cat .expr
  | .assignOp => tok .assign ||| tok .plusAssign ||| tok .minusAssign ||| tok .starAssign |||
      tok .slashAssign ||| tok .truncAssign ||| tok .percentAssign
  | .conditionalExpr => cat .orExpr ||| cat .orExpr ++ tok .question ++ cat .expr ++ tok .colon ++ cat .expr
  | .orExpr => cat .andExpr ||| cat .orExpr ++ tok .or ++ cat .andExpr
  | .andExpr => cat .equalityExpr ||| cat .andExpr ++ tok .and ++ cat .equalityExpr
  | .equalityExpr => cat .relationalExpr |||
      cat .relationalExpr ++ (tok .eq ||| tok .ne) ++ cat .relationalExpr
  | .relationalExpr => cat .additiveExpr |||
      cat .additiveExpr ++ (tok .lt ||| tok .le ||| tok .gt ||| tok .ge) ++ cat .additiveExpr
  | .additiveExpr => cat .multiplicativeExpr |||
      cat .additiveExpr ++ (tok .plus ||| tok .minus) ++ cat .multiplicativeExpr
  | .multiplicativeExpr => cat .unaryExpr |||
      cat .multiplicativeExpr ++ (tok .star ||| tok .slash ||| tok .tildeSlash ||| tok .percent) ++ cat .unaryExpr
  | .unaryExpr => cat .postfixExpr |||
      (tok .minus ||| tok .bang ||| tok .inc ||| tok .dec) ++ cat .unaryExpr
  | .postfixExpr => cat .primary ||| cat .postfixExpr ++ tok .dot ++ tok .identifier |||
      cat .postfixExpr ++ cat .arguments |||
      cat .postfixExpr ++ tok .leftBracket ++ cat .expr ++ tok .rightBracket |||
      cat .postfixExpr ++ (tok .inc ||| tok .dec)
  | .arguments => enclosed .leftParen .rightParen (cat .argument)
  | .argument => cat .expr ||| tok .identifier ++ tok .colon ++ cat .expr
  | .primary => cat .literal ||| tok .identifier ||| parens (cat .expr) ||| cat .formals ++ cat .block |||
      cat .listLiteral ||| cat .setOrMapLiteral ||| tok .kwConst ++ (cat .listLiteral ||| cat .setOrMapLiteral)
  | .literal => tok .kwNull ||| tok .kwTrue ||| tok .kwFalse ||| tok .integer ||| tok .double |||
      several (tok .string)
  | .listLiteral => opt (cat .typeArguments) ++ enclosed .leftBracket .rightBracket (cat .element)
  | .setOrMapLiteral => opt (cat .typeArguments) ++ enclosed .leftBrace .rightBrace (cat .element)
  | .element => cat .expr ||| cat .mapEntry ||| tok .spread ++ cat .expr ||| tok .spreadQuestion ++ cat .expr |||
      tok .question ++ cat .expr |||
      tok .kwIf ++ parens (cat .expr) ++ cat .element ++ opt (tok .kwElse ++ cat .element) |||
      tok .kwFor ++ parens (cat .forParts) ++ cat .element
  | .mapEntry => opt (tok .question) ++ cat .expr ++ tok .colon ++ opt (tok .question) ++ cat .expr
  -- parts of the above
  | .directives => several (cat .directive)
  | .directiveWord => tok .kwImport ||| tok .kwExport ||| tok .kwLibrary ||| tok .kwPart
  | .directiveParts => several (cat .directivePart)
  | .declarations => several (cat .functionDeclaration ||| cat .variableDeclarations ++ tok .semicolon)
  | .declaration => cat .functionDeclaration ||| cat .variableDeclarations ++ tok .semicolon
  | .modifiers => several (tok .kwFinal ||| tok .kwVar)
  | .modifier => tok .kwFinal ||| tok .kwVar
  | .defaults => list (cat .defaulted)
  | .types => list (cat .type)
  | .statements => several (cat .statement)
  | .catches => several (cat .catchPart)
  | .equalityOp => tok .eq ||| tok .ne
  | .relationalOp => tok .lt ||| tok .le ||| tok .gt ||| tok .ge
  | .additiveOp => tok .plus ||| tok .minus
  | .multiplicativeOp => tok .star ||| tok .slash ||| tok .tildeSlash ||| tok .percent
  | .unaryOp => tok .minus ||| tok .bang ||| tok .inc ||| tok .dec
  | .stepOp => tok .inc ||| tok .dec
  | .argumentList => list (cat .argument)
  | .strings => several (tok .string)
  | .elements => list (cat .element)

/-- The terminals that a phrase matches. -/
inductive Matches : Phrase → List Terminal → Prop
  | tok (t : Terminal) : Matches (.tok t) [t]
  | cat {c : Category} {w : List Terminal} : Matches (phrase c) w → Matches (.cat c) w
  | seq {a b : Phrase} {v w : List Terminal} : Matches a v → Matches b w → Matches (.seq a b) (v ++ w)
  | left {a b : Phrase} {w : List Terminal} : Matches a w → Matches (.alt a b) w
  | right {a b : Phrase} {w : List Terminal} : Matches b w → Matches (.alt a b) w
  | missing {a : Phrase} : Matches (.opt a) []
  | given {a : Phrase} {w : List Terminal} : Matches a w → Matches (.opt a) w
  | none {a : Phrase} : Matches (.many a) []
  | any {a : Phrase} {w : List Terminal} : Matches (.several a) w → Matches (.many a) w
  | one {a : Phrase} {w : List Terminal} : Matches a w → Matches (.several a) w
  | more {a : Phrase} {v w : List Terminal} :
    Matches (.several a) v → Matches a w → Matches (.several a) (v ++ w)
  | first {a : Phrase} {w : List Terminal} : Matches a w → Matches (.list a) w
  | next {a : Phrase} {v w : List Terminal} :
    Matches (.list a) v → Matches a w → Matches (.list a) (v ++ .comma :: w)

/-- The sentences of a category. -/
def Sentence (c : Category) (w : List Terminal) : Prop := Matches (phrase c) w

end Grammar
end Dartlet.Syntax
