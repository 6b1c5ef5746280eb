import Dartlet.Syntax.Terminal

/-!
# The grammar

The grammar of programs as data: a list of rules, each with the construct that it builds. No rule
has an empty body; the two entry points that accept the empty text are marked apart.

Some texts have more than one reading. The order of the rules and the choice of the last part of a
rule settle which one counts: a loop that may begin with a declaration does, a statement list whose
first statement may be an expression statement begins with it, and the last `else` among collection
elements belongs to the outermost `if` that can take it.
-/

namespace Dartlet.Syntax

/-- The categories of the grammar. -/
inductive Category where
  | unit | script | expression
  | directives | directive | directiveWord | directiveParts | directivePart
  | declarations | declaration | functionDeclaration | functionBody
  | formals | normals | normal | modifiers | modifier | optionals | defaults | defaulted
  | variableDeclarations | declarationWord | variables | variable | type | typeArguments | types
  | statements | statement | closedStatement | openStatement | simpleStatement | block
  | tryStatement | catches | catchPart | finallyPart
  | forParts | forStart | expressionList | loopVariable
  | expr | assignmentExpr | assignOp | conditionalExpr | orExpr | andExpr | equalityExpr | equalityOp
  | relationalExpr | relationalOp | additiveExpr | additiveOp | multiplicativeExpr | multiplicativeOp
  | unaryExpr | unaryOp | postfixExpr | stepOp | arguments | argumentList | argument
  | primary | literal | strings | listLiteral | setOrMapLiteral | elements | element | mapEntry
  deriving DecidableEq, Repr

/-- What a rule's body is made of. -/
inductive Symbol where
  | tok (terminal : Terminal)
  | cat (category : Category)
  deriving DecidableEq, Repr

/-- What a rule builds from its parts. -/
inductive Construct where
  /-- The only part that is not a token, or the only part. -/
  | same
  /-- A list of one part. -/
  | single
  /-- The list that comes first, with the last part added. -/
  | appended
  | unit | directive
  | function | blockBody | expressionBody
  | formals | normal | defaulted | optionalParameters | namedParameters
  | declarationWord | variableDeclarations | variable | type | typeArguments
  | conditionalStmt | whileStmt | forStmt | variablesStmt | expressionStmt | returnStmt | breakStmt
  | continueStmt | rethrowStmt | doStmt | emptyStmt | block | tryStmt | catchClause
  | forClassic | forEach | startDeclarations | startExpressions | declaredVariable | existingVariable
  | arrowFunction | throwing | assignment | conditional | binary | unary | postfixed
  | property | call | index | arguments | positional | named
  | identifier | parenthesized | functionLiteral | nullLiteral | trueLiteral | falseLiteral
  | intLiteral | doubleLiteral | stringLiteral
  | listLiteral | setOrMapLiteral | plainElement | mapEntry | spread | nullAwareSpread
  | nullAwareElement | elementIf | elementFor
  deriving DecidableEq, Repr

/-- Which of several possible last parts of a rule counts. -/
inductive LastPart where
  /-- The longest one. -/
  | longest
  /-- The shortest one. -/
  | shortest
  /-- The longest one, unless it is nothing but braces and a semicolon; then the shortest. -/
  | longestUnlessHollow
  deriving DecidableEq, Repr

/-- A rule of the grammar. -/
structure Rule where
  head : Category
  construct : Construct
  body : List Symbol
  lastPart : LastPart := .longest
  deriving DecidableEq, Repr

namespace Grammar

open Dartlet.Syntax.Symbol

/-- A rule whose last part, if there are several readings, is the longest. -/
def rule (head : Category) (construct : Construct) (body : List Symbol) : Rule :=
  ⟨head, construct, body, .longest⟩

/-- A rule that passes one category on as another. -/
def passes (head category : Category) : Rule := rule head .same [cat category]

/-- The rules of a category that is one of several terminals. -/
def oneOf (head : Category) (terminals : List Terminal) : List Rule :=
  terminals.map (fun t => rule head .same [tok t])

/-- The rules of a list of parts that follow each other. -/
def sequence (head part : Category) : List Rule :=
  [rule head .single [cat part], rule head .appended [cat head, cat part]]

/-- The rules of a list of parts with commas between them. -/
def commaList (head part : Category) : List Rule :=
  [rule head .single [cat part], rule head .appended [cat head, tok .comma, cat part]]

/-- Both versions of a part that may be missing. -/
def maybe (part : List Symbol) : List (List Symbol) := [[], part]

/-- All bodies that take one version of each part. -/
def bodies : List (List (List Symbol)) → List (List Symbol)
  | [] => [[]]
  | versions :: rest => versions.flatMap (fun v => (bodies rest).map (v ++ ·))

/-- The rules with one construct for all bodies that take one version of each part. -/
def variants (head : Category) (construct : Construct) (parts : List (List (List Symbol))) : List Rule :=
  (bodies parts).map (rule head construct)

/-- The entry points and the directives. -/
def unitRules : List Rule :=
  [rule .unit .unit [cat .directives],
    rule .unit .unit [cat .declarations],
    rule .unit .unit [cat .directives, cat .declarations],
    passes .script .statements,
    passes .expression .expr] ++
  sequence .directives .directive ++
  [rule .directive .directive [cat .directiveWord, tok .semicolon],
    rule .directive .directive [cat .directiveWord, cat .directiveParts, tok .semicolon]] ++
  oneOf .directiveWord [.kwImport, .kwExport, .kwLibrary, .kwPart] ++
  sequence .directiveParts .directivePart ++
  oneOf .directivePart [.string, .identifier, .comma, .dot] ++
  sequence .declarations .declaration ++
  [passes .declaration .functionDeclaration,
    rule .declaration .variablesStmt [cat .variableDeclarations, tok .semicolon]]

/-- Functions, parameters, variables and types. -/
def declarationRules : List Rule :=
  [rule .functionDeclaration .function [cat .type, tok .identifier, cat .formals, cat .functionBody],
    rule .functionDeclaration .function [tok .identifier, cat .formals, cat .functionBody],
    rule .functionBody .blockBody [cat .block],
    rule .functionBody .expressionBody [tok .arrow, cat .expr, tok .semicolon],
    rule .formals .formals [tok .leftParen, tok .rightParen],
    rule .formals .formals [tok .leftParen, cat .normals, tok .rightParen],
    rule .formals .formals [tok .leftParen, cat .normals, tok .comma, tok .rightParen],
    rule .formals .formals [tok .leftParen, cat .optionals, tok .rightParen],
    rule .formals .formals [tok .leftParen, cat .normals, tok .comma, cat .optionals, tok .rightParen]] ++
  commaList .normals .normal ++
  variants .normal .normal [maybe [cat .modifiers], maybe [cat .type], [[tok .identifier]]] ++
  sequence .modifiers .modifier ++
  oneOf .modifier [.kwFinal, .kwVar] ++
  variants .optionals .optionalParameters
    [[[tok .leftBracket, cat .defaults]], maybe [tok .comma], [[tok .rightBracket]]] ++
  variants .optionals .namedParameters
    [[[tok .leftBrace, cat .defaults]], maybe [tok .comma], [[tok .rightBrace]]] ++
  commaList .defaults .defaulted ++
  variants .defaulted .defaulted
    [maybe [tok .kwRequired], [[cat .normal]], maybe [tok .assign, cat .expr]] ++
  [rule .variableDeclarations .variableDeclarations [cat .declarationWord, cat .variables],
    rule .variableDeclarations .variableDeclarations [cat .declarationWord, cat .type, cat .variables],
    rule .variableDeclarations .variableDeclarations [cat .type, cat .variables]] ++
  variants .declarationWord .declarationWord
    [maybe [tok .kwLate], [[tok .kwVar], [tok .kwFinal], [tok .kwConst]]] ++
  [rule .declarationWord .declarationWord [tok .kwLate]] ++
  commaList .variables .variable ++
  variants .variable .variable [[[tok .identifier]], maybe [tok .assign, cat .expr]] ++
  [rule .type .type [tok .kwVoid]] ++
  variants .type .type [[[tok .identifier]], maybe [cat .typeArguments], maybe [tok .question]] ++
  [rule .typeArguments .typeArguments [tok .lt, cat .types, tok .gt]] ++
  commaList .types .type

/-- Statements. Those that end in an `if` without `else` are kept apart, so that an `else` belongs
to the nearest `if`. -/
def statementRules : List Rule :=
  [rule .statements .single [cat .statement],
    ⟨.statements, .appended, [cat .statements, cat .statement], .longestUnlessHollow⟩,
    passes .statement .openStatement,
    passes .statement .closedStatement,
    passes .closedStatement .simpleStatement,
    rule .closedStatement .conditionalStmt [tok .kwIf, tok .leftParen, cat .expr, tok .rightParen, cat .closedStatement, tok .kwElse,
        cat .closedStatement],
    rule .closedStatement .whileStmt [tok .kwWhile, tok .leftParen, cat .expr, tok .rightParen, cat .closedStatement],
    rule .closedStatement .forStmt [tok .kwFor, tok .leftParen, cat .forParts, tok .rightParen, cat .closedStatement],
    rule .openStatement .conditionalStmt [tok .kwIf, tok .leftParen, cat .expr, tok .rightParen, cat .statement],
    rule .openStatement .conditionalStmt [tok .kwIf, tok .leftParen, cat .expr, tok .rightParen, cat .closedStatement, tok .kwElse,
        cat .openStatement],
    rule .openStatement .whileStmt [tok .kwWhile, tok .leftParen, cat .expr, tok .rightParen, cat .openStatement],
    rule .openStatement .forStmt [tok .kwFor, tok .leftParen, cat .forParts, tok .rightParen, cat .openStatement],
    passes .simpleStatement .block,
    passes .simpleStatement .functionDeclaration,
    rule .simpleStatement .variablesStmt [cat .variableDeclarations, tok .semicolon],
    rule .simpleStatement .expressionStmt [cat .expr, tok .semicolon],
    rule .simpleStatement .returnStmt [tok .kwReturn, tok .semicolon],
    rule .simpleStatement .returnStmt [tok .kwReturn, cat .expr, tok .semicolon],
    rule .simpleStatement .breakStmt [tok .kwBreak, tok .semicolon],
    rule .simpleStatement .continueStmt [tok .kwContinue, tok .semicolon],
    rule .simpleStatement .rethrowStmt [tok .kwRethrow, tok .semicolon],
    rule .simpleStatement .doStmt [tok .kwDo, cat .statement, tok .kwWhile, tok .leftParen, cat .expr, tok .rightParen,
        tok .semicolon],
    passes .simpleStatement .tryStatement,
    rule .simpleStatement .emptyStmt [tok .semicolon]] ++
  variants .block .block [[[tok .leftBrace]], maybe [cat .statements], [[tok .rightBrace]]] ++
  variants .tryStatement .tryStmt
    [[[tok .kwTry, cat .block]], maybe [cat .catches], maybe [cat .finallyPart]] ++
  sequence .catches .catchPart ++
  variants .catchPart .catchClause
    [maybe [tok .kwOn, cat .type], [[tok .kwCatch, tok .leftParen, tok .identifier]],
      maybe [tok .comma, tok .identifier], [[tok .rightParen, cat .block]]] ++
  [rule .catchPart .catchClause [tok .kwOn, cat .type, cat .block],
    rule .finallyPart .same [tok .kwFinally, cat .block]] ++
  variants .forParts .forClassic
    [maybe [cat .forStart], [[tok .semicolon]], maybe [cat .expr], [[tok .semicolon]],
      maybe [cat .expressionList]] ++
  [rule .forParts .forEach [cat .loopVariable, tok .kwIn, cat .expr],
    rule .forStart .startDeclarations [cat .variableDeclarations],
    rule .forStart .startExpressions [cat .expressionList]] ++
  commaList .expressionList .expr ++
  [rule .loopVariable .declaredVariable [cat .declarationWord, tok .identifier],
    rule .loopVariable .declaredVariable [cat .declarationWord, cat .type, tok .identifier],
    rule .loopVariable .declaredVariable [cat .type, tok .identifier],
    rule .loopVariable .existingVariable [tok .identifier]]

/-- Expressions, from the loosest binding to the tightest. Equality and order do not chain. -/
def expressionRules : List Rule :=
  [passes .expr .assignmentExpr,
    rule .expr .arrowFunction [cat .formals, tok .arrow, cat .expr],
    rule .expr .throwing [tok .kwThrow, cat .expr],
    passes .assignmentExpr .conditionalExpr,
    rule .assignmentExpr .assignment [cat .postfixExpr, cat .assignOp, cat .expr]] ++
  oneOf .assignOp [.assign, .plusAssign, .minusAssign, .starAssign, .slashAssign, .truncAssign,
    .percentAssign] ++
  [passes .conditionalExpr .orExpr,
    rule .conditionalExpr .conditional [cat .orExpr, tok .question, cat .expr, tok .colon, cat .expr],
    passes .orExpr .andExpr,
    rule .orExpr .binary [cat .orExpr, tok .or, cat .andExpr],
    passes .andExpr .equalityExpr,
    rule .andExpr .binary [cat .andExpr, tok .and, cat .equalityExpr],
    passes .equalityExpr .relationalExpr,
    rule .equalityExpr .binary [cat .relationalExpr, cat .equalityOp, cat .relationalExpr],
    passes .relationalExpr .additiveExpr,
    rule .relationalExpr .binary [cat .additiveExpr, cat .relationalOp, cat .additiveExpr],
    passes .additiveExpr .multiplicativeExpr,
    rule .additiveExpr .binary [cat .additiveExpr, cat .additiveOp, cat .multiplicativeExpr],
    passes .multiplicativeExpr .unaryExpr,
    rule .multiplicativeExpr .binary [cat .multiplicativeExpr, cat .multiplicativeOp, cat .unaryExpr]] ++
  oneOf .equalityOp [.eq, .ne] ++
  oneOf .relationalOp [.lt, .le, .gt, .ge] ++
  oneOf .additiveOp [.plus, .minus] ++
  oneOf .multiplicativeOp [.star, .slash, .tildeSlash, .percent] ++
  [passes .unaryExpr .postfixExpr,
    rule .unaryExpr .unary [cat .unaryOp, cat .unaryExpr]] ++
  oneOf .unaryOp [.minus, .bang, .inc, .dec] ++
  [passes .postfixExpr .primary,
    rule .postfixExpr .property [cat .postfixExpr, tok .dot, tok .identifier],
    rule .postfixExpr .call [cat .postfixExpr, cat .arguments],
    rule .postfixExpr .index [cat .postfixExpr, tok .leftBracket, cat .expr, tok .rightBracket],
    rule .postfixExpr .postfixed [cat .postfixExpr, cat .stepOp]] ++
  oneOf .stepOp [.inc, .dec] ++
  [rule .arguments .arguments [tok .leftParen, tok .rightParen],
    rule .arguments .arguments [tok .leftParen, cat .argumentList, tok .rightParen],
    rule .arguments .arguments [tok .leftParen, cat .argumentList, tok .comma, tok .rightParen]] ++
  commaList .argumentList .argument ++
  [rule .argument .positional [cat .expr],
    rule .argument .named [tok .identifier, tok .colon, cat .expr]]

/-- Literals and the elements of collections. -/
def literalRules : List Rule :=
  [passes .primary .literal,
    rule .primary .identifier [tok .identifier],
    rule .primary .parenthesized [tok .leftParen, cat .expr, tok .rightParen],
    rule .primary .functionLiteral [cat .formals, cat .block],
    passes .primary .listLiteral,
    passes .primary .setOrMapLiteral,
    rule .primary .same [tok .kwConst, cat .listLiteral],
    rule .primary .same [tok .kwConst, cat .setOrMapLiteral],
    rule .literal .nullLiteral [tok .kwNull],
    rule .literal .trueLiteral [tok .kwTrue],
    rule .literal .falseLiteral [tok .kwFalse],
    rule .literal .intLiteral [tok .integer],
    rule .literal .doubleLiteral [tok .double],
    rule .literal .stringLiteral [cat .strings],
    rule .strings .single [tok .string],
    rule .strings .appended [cat .strings, tok .string]] ++
  variants .listLiteral .listLiteral
    [maybe [cat .typeArguments], [[tok .leftBracket]],
      [[], [cat .elements], [cat .elements, tok .comma]], [[tok .rightBracket]]] ++
  variants .setOrMapLiteral .setOrMapLiteral
    [maybe [cat .typeArguments], [[tok .leftBrace]],
      [[], [cat .elements], [cat .elements, tok .comma]], [[tok .rightBrace]]] ++
  commaList .elements .element ++
  [rule .element .plainElement [cat .expr],
    passes .element .mapEntry,
    rule .element .spread [tok .spread, cat .expr],
    rule .element .nullAwareSpread [tok .spreadQuestion, cat .expr],
    rule .element .nullAwareElement [tok .question, cat .expr],
    ⟨.element, .elementIf,
      [tok .kwIf, tok .leftParen, cat .expr, tok .rightParen, cat .element, tok .kwElse, cat .element],
      .shortest⟩,
    rule .element .elementIf [tok .kwIf, tok .leftParen, cat .expr, tok .rightParen, cat .element],
    rule .element .elementFor [tok .kwFor, tok .leftParen, cat .forParts, tok .rightParen, cat .element]] ++
  variants .mapEntry .mapEntry
    [maybe [tok .question], [[cat .expr, tok .colon]], maybe [tok .question], [[cat .expr]]]

/-- All rules of the grammar. -/
def rules : List Rule :=
  unitRules ++ declarationRules ++ statementRules ++ expressionRules ++ literalRules

/-- The entry points that accept the empty text. -/
def acceptsEmpty : Category → Bool
  | .unit | .script => true
  | _ => false

end Grammar
end Dartlet.Syntax
