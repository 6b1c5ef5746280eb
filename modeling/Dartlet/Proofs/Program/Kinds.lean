import Dartlet.Proofs.Program.Regular
import Dartlet.Proofs.Program.Spelling
import Dartlet.Syntax.Assembly

/-!
# Kinds of pieces

Every category of the grammar stands for pieces of one kind, and every construct builds a piece of
one kind from pieces of certain kinds. The rules of the grammar respect the kinds: what a rule's parts
stand for is what its construct expects, and what the construct builds is what the rule's category
stands for.
-/

namespace Dartlet.Syntax

/-- What a piece of a program can be. -/
inductive Kind where
  /-- A token with one of some terminals. -/
  | token (terminals : List Terminal)
  | expr | stmt
  /-- A statement that declares functions or variables. -/
  | declaration
  /-- A whole program. -/
  | unit
  | element | argument | body | parameter | variable | clause | typeName | words | start | header
  | loopVariable
  | nothing
  | list (k : Kind)
  deriving DecidableEq

/-- Whether every piece of one kind is also of another one. -/
def Kind.le : Kind → Kind → Bool
  | .token ts, .token us => ts.all us.contains
  | .declaration, .stmt => true
  | k, k' => k == k'

/-- Whether a statement declares functions or variables. -/
def Stmt.isDeclaration : Stmt → Bool
  | .function .. | .variables .. => true
  | _ => false

/-- A loop header that makes a regular loop around every regular body. -/
def LoopHeader.IsRegular (h : LoopHeader) : Prop :=
  ∀ l body, (Node.stmt body).Regular → (Node.stmt (h.loop l body)).Regular

/-- A piece of a kind, in which nothing is out of place. -/
def Piece.Fits : Kind → Piece → Prop
  | .token ts, p => ∃ t, p = .token t ∧ t.terminal ∈ ts ∧ t.Spelled
  | .expr, p => ∃ x, p = .expr x ∧ (Node.expr x).Regular
  | .stmt, p => ∃ x, p = .stmt x ∧ (Node.stmt x).Regular
  | .declaration, p => ∃ x, p = .stmt x ∧ (Node.stmt x).Regular ∧ x.isDeclaration = true
  | .unit, p => ∃ l xs, p = .stmt (.unit l xs) ∧ (Node.stmt (.unit l xs)).Regular ∧ ∀ x ∈ xs, x.isDeclaration = true
  | .element, p => ∃ x, p = .element x ∧ (Node.element x).Regular
  | .argument, p => ∃ a, p = .argument a ∧ (Node.argument a).Regular
  | .body, p => ∃ b, p = .body b ∧ (Node.body b).Regular
  | .parameter, p => ∃ q, p = .parameter q ∧ q.IsKnown
  | .variable, p => ∃ v, p = .variable v ∧ (Node.var v).Regular
  | .clause, p => ∃ c, p = .clause c ∧ (Node.clause c).Regular
  | .typeName, p => ∃ name, p = .typeName name
  | .words, p => ∃ ws, p = .words ws
  | .start, p => ∃ s, p = .start s ∧ (Node.start s).Regular
  | .header, p => ∃ h, p = .header h ∧ h.IsRegular
  | .loopVariable, p => ∃ name declares, p = .loopVariable name declares
  | .nothing, p => p = .nothing
  | .list k, p => ∃ ps, p = .many ps ∧ ∀ q ∈ ps, Fits k q

/-- The kind of the pieces that a category stands for. -/
def Category.kind : Category → Kind
  | .unit => .unit
  | .directives => .list .nothing
  | .directive => .nothing
  | .directiveWord => .token [.kwImport, .kwExport, .kwLibrary, .kwPart]
  | .directiveParts => .list (.token [.string, .identifier, .comma, .dot])
  | .directivePart => .token [.string, .identifier, .comma, .dot]
  | .declarations => .list .declaration
  | .declaration | .functionDeclaration | .variableDeclarations => .declaration
  | .functionBody => .body
  | .formals | .normals | .optionals | .defaults => .list .parameter
  | .normal | .defaulted => .parameter
  | .modifiers => .list (.token [.kwFinal, .kwVar])
  | .modifier => .token [.kwFinal, .kwVar]
  | .declarationWord => .words
  | .variables => .list .variable
  | .variable => .variable
  | .type => .typeName
  | .typeArguments | .types => .list .typeName
  | .script | .statements => .list .stmt
  | .statement | .closedStatement | .openStatement | .simpleStatement | .block | .tryStatement
  | .finallyPart => .stmt
  | .catches => .list .clause
  | .catchPart => .clause
  | .forParts => .header
  | .forStart => .start
  | .expressionList => .list .expr
  | .loopVariable => .loopVariable
  | .expression | .expr | .assignmentExpr | .conditionalExpr | .orExpr | .andExpr | .equalityExpr
  | .relationalExpr | .additiveExpr | .multiplicativeExpr | .unaryExpr | .postfixExpr | .primary | .literal
  | .listLiteral | .setOrMapLiteral => .expr
  | .assignOp => .token [.assign, .plusAssign, .minusAssign, .starAssign, .slashAssign, .truncAssign,
      .percentAssign]
  | .equalityOp => .token [.eq, .ne]
  | .relationalOp => .token [.lt, .le, .gt, .ge]
  | .additiveOp => .token [.plus, .minus]
  | .multiplicativeOp => .token [.star, .slash, .tildeSlash, .percent]
  | .unaryOp => .token [.minus, .bang, .inc, .dec]
  | .stepOp => .token [.inc, .dec]
  | .arguments | .argumentList => .list .argument
  | .argument => .argument
  | .strings => .list (.token [.string])
  | .elements => .list .element
  | .element | .mapEntry => .element

/-- The kind of the piece that a symbol stands for. -/
def Symbol.kind : Symbol → Kind
  | .tok t => .token [t]
  | .cat c => c.kind

namespace Construct

/-- The kind of what a construct builds. Those that pass on or collect what they are given are not
told by this. -/
def result : Construct → Kind
  | .same | .single | .appended | .directive => .nothing
  | .unit => .unit
  | .function | .variableDeclarations | .variablesStmt => .declaration
  | .blockBody | .expressionBody => .body
  | .formals | .optionalParameters | .namedParameters => .list .parameter
  | .normal | .defaulted => .parameter
  | .declarationWord => .words
  | .variable => .variable
  | .type => .typeName
  | .typeArguments => .list .typeName
  | .conditionalStmt | .whileStmt | .forStmt | .expressionStmt | .returnStmt | .breakStmt | .continueStmt
  | .rethrowStmt | .doStmt | .emptyStmt | .block | .tryStmt => .stmt
  | .catchClause => .clause
  | .forClassic | .forEach => .header
  | .startDeclarations | .startExpressions => .start
  | .declaredVariable | .existingVariable => .loopVariable
  | .arguments => .list .argument
  | .positional | .named => .argument
  | .plainElement | .mapEntry | .spread | .nullAwareSpread | .nullAwareElement | .elementIf | .elementFor => .element
  | _ => .expr

/-- The terminals of binary operators. -/
def binaryTerminals : List Terminal :=
  [.or, .and, .eq, .ne, .lt, .le, .gt, .ge, .plus, .minus, .star, .slash, .tildeSlash, .percent]

/-- The pieces that a construct expects, where it looks at them one by one. A piece may be of any
kind where none is given. -/
def shapes : Construct → List (List (Option Kind))
  | .unit => [[some (.list .nothing)], [some (.list .declaration)],
      [some (.list .nothing), some (.list .declaration)]]
  | .function => [[some .typeName, some (.token [.identifier]), some (.list .parameter), some .body],
      [some (.token [.identifier]), some (.list .parameter), some .body]]
  | .blockBody => [[some .stmt]]
  | .expressionBody => [[none, some .expr, none]]
  | .normal => [[some (.token [.identifier])], [none, some (.token [.identifier])],
      [none, none, some (.token [.identifier])]]
  | .defaulted => [[some .parameter], [none, some .parameter], [some .parameter, none, none],
      [none, some .parameter, none, none]]
  | .variable => [[some (.token [.identifier])], [some (.token [.identifier]), none, some .expr]]
  | .typeArguments => [[none, some (.list .typeName), none]]
  | .conditionalStmt => [[none, none, some .expr, none, some .stmt],
      [none, none, some .expr, none, some .stmt, none, some .stmt]]
  | .whileStmt => [[none, none, some .expr, none, some .stmt]]
  | .forStmt => [[none, none, some .header, none, some .stmt]]
  | .variablesStmt => [[some .declaration, none]]
  | .expressionStmt => [[some .expr, none]]
  | .returnStmt => [[none, none], [none, some .expr, none]]
  | .doStmt => [[none, some .stmt, none, none, some .expr, none, none]]
  | .tryStmt => [[none, some .stmt], [none, some .stmt, none], [none, some .stmt, none, none]]
  | .catchClause => [[none, none, some .stmt], [none, none, none, none, some .stmt],
      [none, none, none, none, none, none, some .stmt],
      [none, none, none, none, none, none, none, none, some .stmt]]
  | .forEach => [[some .loopVariable, none, some .expr]]
  | .startDeclarations => [[some .stmt]]
  | .startExpressions => [[some (.list .expr)]]
  | .declaredVariable => [[none, some (.token [.identifier])], [none, none, some (.token [.identifier])]]
  | .existingVariable => [[some (.token [.identifier])]]
  | .arrowFunction => [[some (.list .parameter), none, some .expr]]
  | .throwing => [[none, some .expr]]
  | .assignment => [[some .expr, some Category.assignOp.kind, some .expr]]
  | .conditional => [[some .expr, none, some .expr, none, some .expr]]
  | .binary => [[some .expr, some (.token binaryTerminals), some .expr]]
  | .unary => [[some Category.unaryOp.kind, some .expr]]
  | .postfixed => [[some .expr, some Category.stepOp.kind]]
  | .property => [[some .expr, none, some (.token [.identifier])]]
  | .call => [[some .expr, some (.list .argument)]]
  | .index => [[some .expr, none, some .expr, none]]
  | .positional => [[some .expr]]
  | .named => [[some (.token [.identifier]), none, some .expr]]
  | .identifier => [[some (.token [.identifier])]]
  | .parenthesized => [[none, some .expr, none]]
  | .functionLiteral => [[some (.list .parameter), some .stmt]]
  | .intLiteral => [[some (.token [.integer])]]
  | .doubleLiteral => [[some (.token [.double])]]
  | .stringLiteral => [[some (.list (.token [.string]))]]
  | .plainElement => [[some .expr]]
  | .mapEntry => [[some .expr, some (.token [.colon]), some .expr],
      [some (.token [.question]), some .expr, some (.token [.colon]), some .expr],
      [some .expr, some (.token [.colon]), some (.token [.question]), some .expr],
      [some (.token [.question]), some .expr, some (.token [.colon]), some (.token [.question]), some .expr]]
  | .spread | .nullAwareSpread | .nullAwareElement => [[none, some .expr]]
  | .elementIf => [[none, none, some .expr, none, some .element],
      [none, none, some .expr, none, some .element, none, some .element]]
  | .elementFor => [[none, none, some .header, none, some .element]]
  | _ => []

/-- Whether a construct takes any pieces and uses those that it can. -/
def isFree : Construct → Bool
  | .directive | .formals | .optionalParameters | .namedParameters | .declarationWord | .variableDeclarations
  | .type | .breakStmt | .continueStmt | .rethrowStmt | .emptyStmt | .block | .forClassic | .arguments
  | .nullLiteral | .trueLiteral | .falseLiteral | .listLiteral | .setOrMapLiteral => true
  | _ => false

end Construct

/-- Whether pieces of some kinds are what is expected. -/
def matchesShape : List (Option Kind) → List Kind → Bool
  | [], [] => true
  | none :: shape, _ :: ks => matchesShape shape ks
  | some k :: shape, k' :: ks => k'.le k && matchesShape shape ks
  | _, _ => false

/-- Whether a rule respects the kinds. -/
def Rule.respectsKinds (r : Rule) : Bool :=
  match r.construct with
  | .same =>
    match r.body.map Symbol.kind with
    | [k] | [_, k] => k.le r.head.kind
    | _ => false
  | .single =>
    match r.body.map Symbol.kind with
    | [k] => r.head.kind == .list k
    | _ => false
  | .appended =>
    match r.body.map Symbol.kind with
    | [.list k, k'] | [.list k, _, k'] => r.head.kind == .list k && k'.le k
    | _ => false
  | c =>
    c.result.le r.head.kind &&
      (c.isFree || c.shapes.any (fun shape => matchesShape shape (r.body.map Symbol.kind)))

theorem Grammar.respectsKinds : ∀ r ∈ rules, r.respectsKinds = true := by
  decide +kernel

end Dartlet.Syntax
