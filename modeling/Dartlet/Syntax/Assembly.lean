import Dartlet.Host.Limits
import Dartlet.Number.Read
import Dartlet.Syntax.Derivation
import Dartlet.Syntax.Quotation

/-!
# From derivations to programs

Each rule of a derivation builds one piece of a program from the pieces of its parts, from the
leaves up and from left to right. A few rules check their pieces, and the first check that fails
decides the error.
-/

namespace Dartlet.Syntax

open Dartlet.Text

/-- What stands between the parentheses of a loop. -/
inductive LoopHeader where
  | classic (start : LoopStart) (condition : Option Expr) (updaters : List Expr)
  | each (name : String) (declares : Bool) (iterable : Expr)

/-- The statement with a loop header and a body. -/
def LoopHeader.loop (location : Location) (body : Stmt) : LoopHeader → Stmt
  | .classic start condition updaters => .forLoop location start condition updaters body
  | .each name declares iterable => .forIn location name iterable body declares

/-- A piece of a program under construction. -/
inductive Piece where
  | token (t : Token)
  | expr (e : Expr)
  | stmt (s : Stmt)
  | element (e : Element)
  | argument (a : Argument)
  | body (b : FunctionBody)
  | parameter (p : Parameter)
  | variable (v : Variable)
  | clause (c : CatchClause)
  | typeName (name : String)
  | words (ws : List String)
  | start (s : LoopStart)
  | header (h : LoopHeader)
  | loopVariable (name : String) (declares : Bool)
  | many (pieces : List Piece)
  | nothing

namespace Piece

def token? : Piece → Option Token
  | token t => some t
  | _ => none

def expr? : Piece → Option Expr
  | expr e => some e
  | _ => none

def stmt? : Piece → Option Stmt
  | stmt s => some s
  | _ => none

def element? : Piece → Option Element
  | element e => some e
  | _ => none

def argument? : Piece → Option Argument
  | argument a => some a
  | _ => none

def parameter? : Piece → Option Parameter
  | parameter p => some p
  | _ => none

def variableIn? : Piece → Option Variable
  | .variable v => some v
  | _ => none

def clause? : Piece → Option CatchClause
  | clause c => some c
  | _ => none

def typeName? : Piece → Option String
  | typeName name => some name
  | _ => none

/-- The pieces of a list; any other piece counts as a list of itself. -/
def flatten : Piece → List Piece
  | many pieces => pieces
  | piece => [piece]

/-- Whether a piece is a token of the given terminal. -/
def isToken (terminal : Terminal) : Piece → Bool
  | token t => t.terminal == terminal
  | _ => false

end Piece

/-- All pieces, those of lists taken apart. -/
def flattenPieces (pieces : List Piece) : List Piece := pieces.flatMap Piece.flatten

/-- The identifiers among pieces, in order. -/
def identifiers (pieces : List Piece) : List String :=
  pieces.filterMap (fun p => match p with
    | .token t => if t.terminal == .identifier then some t.text else none
    | _ => none)

/-- The name of a type from its pieces. -/
def typeText (pieces : List Piece) : String :=
  String.join (pieces.map (fun p => match p with
    | .token t => t.text
    | .many arguments => "<" ++ ", ".intercalate (arguments.filterMap Piece.typeName?) ++ ">"
    | _ => ""))

/-- The type arguments of a collection literal, if the pieces begin with any. -/
def typeArgumentsOf (pieces : List Piece) : List String :=
  match pieces with
  | .many found :: _ => found.filterMap Piece.typeName?
  | _ => []

/-- The parts of a classic loop header around its two semicolons. -/
def classicHeader (pieces : List Piece) : LoopHeader :=
  let start := match pieces with
    | .start s :: _ => s
    | _ => .nothing
  let afterStart := (pieces.dropWhile (fun p => !p.isToken .semicolon)).drop 1
  let condition := afterStart.head?.bind Piece.expr?
  let updaters := (afterStart.dropWhile (fun p => !p.isToken .semicolon)).drop 1
  .classic start condition ((flattenPieces updaters).filterMap Piece.expr?)

/-- A map entry from its pieces, where a question mark concerns the expression after it. -/
def entryElement (location : Location) (pieces : List Piece) : Option Element :=
  let nullAwareKey := (pieces.head?.map (Piece.isToken .question)).getD false
  let afterColon := (pieces.dropWhile (fun p => !p.isToken .colon)).drop 1
  let nullAwareValue := (afterColon.head?.map (Piece.isToken .question)).getD false
  match pieces.filterMap Piece.expr? with
  | [key, value] => some (.entry location key value nullAwareKey nullAwareValue)
  | _ => none

/-- The value of a whole number literal. -/
def integerValue (text : String) : Int :=
  match text.toList with
  | '0' :: x :: digits => if x == 'x' || x == 'X' then hexValue digits else decimalValue ('0' :: x :: digits)
  | digits => decimalValue digits

/-- The value of a number literal with a fraction or an exponent. -/
def doubleValue (text : String) : Float := Number.readDecimal text.toList

/-- An expression that must name a place. -/
def requirePlace (target : Expr) (location : Location) (flaw : Flaw) (result : Expr) :
    Except SyntaxError Piece :=
  if target.isPlace then .ok (.expr result) else .error ⟨flaw, location⟩

/-- The call of an expression. A call of a property is a method call. -/
def callOf (location : Location) (callee : Expr) (arguments : List Argument) : Expr :=
  match callee with
  | .property _ target name => .methodCall location target name arguments
  | _ => .call location callee arguments

variable [Host]

/-- A whole number literal, if the host reads as many digits. -/
def integerLiteral (text : String) (location : Location) : Except SyntaxError Piece :=
  if Host.refusesNumeral text.toList then .error ⟨.longNumeral, location⟩
  else .ok (.expr (.intLiteral location (integerValue text)))

/-- Build a piece of a program from the pieces of a rule's parts. Derivations only bring pieces
that fit the rule; for others there is nothing to build. -/
def assemble (read : String → Except SyntaxError Expr) (construct : Construct) (location : Location)
    (pieces : List Piece) : Except SyntaxError Piece :=
  match construct, pieces with
  | .same, [p] => .ok p
  | .same, [_, p] => .ok p
  | .single, [p] => .ok (.many [p])
  | .appended, [.many ps, p] => .ok (.many (ps ++ [p]))
  | .appended, [.many ps, _, p] => .ok (.many (ps ++ [p]))
  | .unit, ps => .ok (.stmt (.unit location ((flattenPieces ps).filterMap Piece.stmt?)))
  | .directive, _ => .ok .nothing
  -- declarations
  | .function, [.typeName type, .token name, .many parameters, .body body] =>
    .ok (.stmt (.function location name.text (parameters.filterMap Piece.parameter?) body (some type)))
  | .function, [.token name, .many parameters, .body body] =>
    .ok (.stmt (.function location name.text (parameters.filterMap Piece.parameter?) body none))
  | .blockBody, [.stmt block] => .ok (.body (.block location block))
  | .expressionBody, [_, .expr e, _] => .ok (.body (.expression location e))
  | .formals, ps =>
    .ok (.many ((flattenPieces ps).filter (fun p => p.parameter?.isSome)))
  | .normal, ps =>
    match ps.getLast? with
    | some (.token name) =>
      .ok (.parameter { location := location, name := name.text, typeName := (ps.filterMap Piece.typeName?).head? })
    | _ => .ok .nothing
  | .defaulted, ps =>
    match ps.filterMap Piece.parameter? with
    | p :: _ => .ok (.parameter p)
    | [] => .ok .nothing
  | .optionalParameters, ps =>
    .ok (.many (((flattenPieces ps).filterMap Piece.parameter?).map
      (fun p => .parameter { p with kind := .optional })))
  | .namedParameters, ps =>
    .ok (.many (((flattenPieces ps).filterMap Piece.parameter?).map
      (fun p => .parameter { p with kind := .named })))
  | .declarationWord, ps => .ok (.words ((ps.filterMap Piece.token?).map Token.text))
  | .variableDeclarations, ps =>
    let keyword := match ps with
      | .words ws :: _ => some (" ".intercalate ws)
      | _ => none
    .ok (.stmt (.variables location ((flattenPieces ps).filterMap Piece.variableIn?) keyword
      (ps.filterMap Piece.typeName?).head?))
  | .variable, [.token name] => .ok (.variable (.mk location name.text none))
  | .variable, [.token name, _, .expr e] => .ok (.variable (.mk location name.text (some e)))
  | .type, ps => .ok (.typeName (typeText ps))
  | .typeArguments, [_, .many types, _] => .ok (.many types)
  -- statements
  | .conditionalStmt, [_, _, .expr c, _, .stmt t] => .ok (.stmt (.conditional location c t none))
  | .conditionalStmt, [_, _, .expr c, _, .stmt t, _, .stmt e] =>
    .ok (.stmt (.conditional location c t (some e)))
  | .whileStmt, [_, _, .expr c, _, .stmt body] => .ok (.stmt (.whileLoop location c body))
  | .forStmt, [_, _, .header h, _, .stmt body] => .ok (.stmt (h.loop location body))
  | .variablesStmt, [.stmt s, _] => .ok (.stmt s)
  | .expressionStmt, [.expr e, _] => .ok (.stmt (.expression location e))
  | .returnStmt, [_, _] => .ok (.stmt (.returning location none))
  | .returnStmt, [_, .expr e, _] => .ok (.stmt (.returning location (some e)))
  | .breakStmt, _ => .ok (.stmt (.breaking location))
  | .continueStmt, _ => .ok (.stmt (.continuing location))
  | .rethrowStmt, _ => .ok (.stmt (.rethrowing location))
  | .doStmt, [_, .stmt body, _, _, .expr c, _, _] => .ok (.stmt (.doLoop location body c))
  | .emptyStmt, _ => .ok (.stmt (.empty location))
  | .block, ps => .ok (.stmt (.block location ((flattenPieces ps).filterMap Piece.stmt?)))
  | .tryStmt, _ :: .stmt body :: rest =>
    let clauses := (flattenPieces rest).filterMap Piece.clause?
    let finallyBlock := (rest.filterMap Piece.stmt?).head?
    if clauses.isEmpty && finallyBlock.isNone then .error ⟨.tryAlone, location⟩
    else .ok (.stmt (.trying location body clauses finallyBlock))
  | .catchClause, ps =>
    match ps.getLast? with
    | some (.stmt body) =>
      let names := identifiers ps
      .ok (.clause (.mk location body (ps.filterMap Piece.typeName?).head? names[0]? names[1]?))
    | _ => .ok .nothing
  | .forClassic, ps => .ok (.header (classicHeader ps))
  | .forEach, [.loopVariable name declares, _, .expr e] => .ok (.header (.each name declares e))
  | .startDeclarations, [.stmt s] => .ok (.start (.declarations s))
  | .startExpressions, [.many es] => .ok (.start (.expressions (es.filterMap Piece.expr?)))
  | .declaredVariable, ps =>
    match ps.getLast? with
    | some (.token name) => .ok (.loopVariable name.text true)
    | _ => .ok .nothing
  | .existingVariable, [.token name] => .ok (.loopVariable name.text false)
  -- expressions
  | .arrowFunction, [.many parameters, _, .expr e] =>
    .ok (.expr (.functionLiteral location (parameters.filterMap Piece.parameter?) (.expression location e)))
  | .throwing, [_, .expr e] => .ok (.expr (.throwing location e))
  | .assignment, [.expr target, .token op, .expr value] =>
    requirePlace target location .illegalAssignmentTarget
      (.assignment location (.ofSpelling op.text) target value)
  | .conditional, [.expr c, _, .expr t, _, .expr e] => .ok (.expr (.conditional location c t e))
  | .binary, [.expr l, .token op, .expr r] => .ok (.expr (.binary location (.ofSpelling op.text) l r))
  | .unary, [.token op, .expr e] =>
    let result := Expr.unary location (.ofSpelling op.text) e
    if (UnaryOp.ofSpelling op.text).isStep then
      requirePlace e location (.illegalPrefixOperand op.text) result
    else .ok (.expr result)
  | .postfixed, [.expr e, .token op] =>
    requirePlace e location (.illegalPostfixOperand op.text)
      (.postfixed location (.ofSpelling op.text) e)
  | .property, [.expr target, _, .token name] => .ok (.expr (.property location target name.text))
  | .call, [.expr callee, .many arguments] =>
    .ok (.expr (callOf location callee (arguments.filterMap Piece.argument?)))
  | .index, [.expr target, _, .expr key, _] => .ok (.expr (.index location target key))
  | .arguments, ps => .ok (.many ((flattenPieces ps).filter (fun p => p.argument?.isSome)))
  | .positional, [.expr e] => .ok (.argument (.positional e))
  | .named, [.token name, _, .expr e] => .ok (.argument (.named location name.text e))
  | .identifier, [.token name] => .ok (.expr (.identifier location name.text))
  | .parenthesized, [_, .expr e, _] => .ok (.expr (.parenthesized location e))
  | .functionLiteral, [.many parameters, .stmt block] =>
    .ok (.expr (.functionLiteral location (parameters.filterMap Piece.parameter?) (.block location block)))
  -- literals
  | .nullLiteral, _ => .ok (.expr (.nullLiteral location))
  | .trueLiteral, _ => .ok (.expr (.boolLiteral location true))
  | .falseLiteral, _ => .ok (.expr (.boolLiteral location false))
  | .intLiteral, [.token t] => integerLiteral t.text location
  | .doubleLiteral, [.token t] => .ok (.expr (.doubleLiteral location (doubleValue t.text)))
  | .stringLiteral, [.many tokens] =>
    (Quotation.literal read location (tokens.filterMap Piece.token?)).map Piece.expr
  | .listLiteral, ps =>
    .ok (.expr (.listLiteral location ((flattenPieces ps).filterMap Piece.element?) (typeArgumentsOf ps)))
  | .setOrMapLiteral, ps =>
    .ok (.expr (.setOrMapLiteral location ((flattenPieces ps).filterMap Piece.element?) (typeArgumentsOf ps)))
  | .plainElement, [.expr e] => .ok (.element (.plain e))
  | .mapEntry, ps => .ok ((entryElement location ps).elim .nothing Piece.element)
  | .spread, [_, .expr e] => .ok (.element (.spread location e false))
  | .nullAwareSpread, [_, .expr e] => .ok (.element (.spread location e true))
  | .nullAwareElement, [_, .expr e] => .ok (.element (.nullAware location e))
  | .elementIf, [_, _, .expr c, _, .element t] => .ok (.element (.conditional location c t none))
  | .elementIf, [_, _, .expr c, _, .element t, _, .element e] =>
    .ok (.element (.conditional location c t (some e)))
  | .elementFor, [_, _, .header h, _, .element body] =>
    .ok (.element (.loop location (h.loop location (.empty location)) body))
  | _, _ => .ok .nothing

namespace Derivation

mutual

/-- The piece of a program that a derivation stands for. -/
def build (read : String → Except SyntaxError Expr) : Derivation → Except SyntaxError Piece
  | .leaf t => .ok (.token t)
  | .node rule location parts =>
    match buildAll read parts with
    | .error e => .error e
    | .ok pieces => assemble read rule.construct location pieces

/-- The pieces of several derivations. -/
def buildAll (read : String → Except SyntaxError Expr) : List Derivation → Except SyntaxError (List Piece)
  | [] => .ok []
  | d :: rest =>
    match build read d with
    | .error e => .error e
    | .ok piece =>
      match buildAll read rest with
      | .error e => .error e
      | .ok pieces => .ok (piece :: pieces)

end

end Derivation
end Dartlet.Syntax
