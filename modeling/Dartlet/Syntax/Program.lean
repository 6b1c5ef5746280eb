import Dartlet.Syntax.Operator
import Dartlet.Syntax.Position

/-!
# Programs as trees

Expressions, statements and the parts of which they consist. Every construct carries the place
where it begins, if it came from a text. A tree built by hand may have something in the place of an
expression, a statement or a function body that does not belong there; such a thing is kept as its
kind alone, for the message that refuses it.
-/

namespace Dartlet.Syntax

/-- How a parameter takes its argument. -/
inductive ParameterKind where
  | required | optional | named
  | other (label : String)
  deriving DecidableEq, Repr

def ParameterKind.label : ParameterKind → String
  | .required => "required"
  | .optional => "optional"
  | .named => "named"
  | .other label => label

/-- A parameter of a function. -/
structure Parameter where
  location : Location
  name : String
  kind : ParameterKind := .required
  typeName : Option String := none
  deriving DecidableEq, Repr

mutual

/-- Expressions: each has one value. -/
inductive Expr where
  | identifier (location : Location) (name : String)
  | nullLiteral (location : Location)
  | boolLiteral (location : Location) (value : Bool)
  | intLiteral (location : Location) (value : Int)
  | doubleLiteral (location : Location) (value : Float)
  | stringLiteral (location : Location) (value : String)
  | interpolation (location : Location) (parts : List Part)
  | binary (location : Location) (op : BinaryOp) (left right : Expr)
  | unary (location : Location) (op : UnaryOp) (operand : Expr)
  | postfixed (location : Location) (op : UnaryOp) (operand : Expr)
  | conditional (location : Location) (condition thenExpr elseExpr : Expr)
  | assignment (location : Location) (op : AssignOp) (target value : Expr)
  | parenthesized (location : Location) (inner : Expr)
  | functionLiteral (location : Location) (parameters : List Parameter) (body : FunctionBody)
  | call (location : Location) (function : Expr) (arguments : List Argument)
  | methodCall (location : Location) (target : Expr) (name : String) (arguments : List Argument)
  | property (location : Location) (target : Expr) (name : String)
  | index (location : Location) (target : Expr) (key : Expr)
  | throwing (location : Location) (value : Expr)
  | listLiteral (location : Location) (elements : List Element) (typeArguments : List String)
  | setOrMapLiteral (location : Location) (elements : List Element) (typeArguments : List String)
  | misplaced (location : Location) (kind : String)

/-- A part of a string with embedded expressions. -/
inductive Part where
  | text (value : String)
  | code (expression : Expr)

/-- An argument of a call. -/
inductive Argument where
  | positional (value : Expr)
  | named (location : Location) (name : String) (value : Expr)

/-- An element of a collection literal. -/
inductive Element where
  | plain (value : Expr)
  | entry (location : Location) (key value : Expr) (nullAwareKey nullAwareValue : Bool)
  | spread (location : Location) (source : Expr) (nullAware : Bool)
  | nullAware (location : Location) (value : Expr)
  | conditional (location : Location) (condition : Expr) (thenElement : Element)
      (elseElement : Option Element)
  | loop (location : Location) (header : Stmt) (body : Element)

/-- The body of a function. -/
inductive FunctionBody where
  | block (location : Location) (body : Stmt)
  | expression (location : Location) (value : Expr)
  | misplaced (location : Location) (kind : String)

/-- One variable of a declaration. -/
inductive Variable where
  | mk (location : Location) (name : String) (initializer : Option Expr)

/-- What a loop does before its first round. -/
inductive LoopStart where
  | nothing
  | declarations (declared : Stmt)
  | expressions (values : List Expr)

/-- A clause that handles errors. -/
inductive CatchClause where
  | mk (location : Location) (body : Stmt) (exceptionType exceptionName traceName : Option String)

/-- Statements: each completes in one of four ways. -/
inductive Stmt where
  | unit (location : Location) (declarations : List Stmt)
  | block (location : Location) (statements : List Stmt)
  | expression (location : Location) (value : Expr)
  | variables (location : Location) (declared : List Variable) (keyword typeName : Option String)
  | function (location : Location) (name : String) (parameters : List Parameter) (body : FunctionBody)
      (returnType : Option String)
  | returning (location : Location) (value : Option Expr)
  | conditional (location : Location) (condition : Expr) (thenStmt : Stmt) (elseStmt : Option Stmt)
  | whileLoop (location : Location) (condition : Expr) (body : Stmt)
  | doLoop (location : Location) (body : Stmt) (condition : Expr)
  | forLoop (location : Location) (start : LoopStart) (condition : Option Expr) (updaters : List Expr)
      (body : Stmt)
  | forIn (location : Location) (name : String) (iterable : Expr) (body : Stmt) (declares : Bool)
  | breaking (location : Location)
  | continuing (location : Location)
  | trying (location : Location) (body : Stmt) (clauses : List CatchClause) (finallyBlock : Option Stmt)
  | rethrowing (location : Location)
  | empty (location : Location)
  | misplaced (location : Location) (kind : String)

end

namespace Expr

/-- Where an expression begins. -/
def location : Expr → Location
  | identifier l _ | nullLiteral l | boolLiteral l _ | intLiteral l _ | doubleLiteral l _
  | stringLiteral l _ | interpolation l _ | binary l _ _ _ | unary l _ _ | postfixed l _ _
  | conditional l _ _ _ | assignment l _ _ _ | parenthesized l _ | functionLiteral l _ _
  | call l _ _ | methodCall l _ _ _ | property l _ _ | index l _ _ | throwing l _
  | listLiteral l _ _ | setOrMapLiteral l _ _ | misplaced l _ => l

/-- The name of an expression's kind in messages. -/
def kind : Expr → String
  | identifier .. => "Identifier"
  | nullLiteral .. => "NullLiteral"
  | boolLiteral .. => "BooleanLiteral"
  | intLiteral .. => "IntegerLiteral"
  | doubleLiteral .. => "DoubleLiteral"
  | stringLiteral .. => "StringLiteral"
  | interpolation .. => "StringInterpolation"
  | binary .. => "BinaryExpression"
  | unary .. => "PrefixExpression"
  | postfixed .. => "PostfixExpression"
  | conditional .. => "ConditionalExpression"
  | assignment .. => "AssignmentExpression"
  | parenthesized .. => "ParenthesizedExpression"
  | functionLiteral .. => "FunctionLiteral"
  | call .. => "FunctionInvocation"
  | methodCall .. => "MethodInvocation"
  | property .. => "PropertyAccess"
  | index .. => "IndexExpression"
  | throwing .. => "ThrowExpression"
  | listLiteral .. => "ListLiteral"
  | setOrMapLiteral .. => "SetOrMapLiteral"
  | misplaced _ kind => kind

/-- Whether an expression names a place that can be assigned to. -/
def isPlace : Expr → Bool
  | identifier .. | property .. | index .. => true
  | _ => false

end Expr

namespace Stmt

/-- Where a statement begins. -/
def location : Stmt → Location
  | .unit l _ | .block l _ | .expression l _ | .variables l _ _ _ | .function l _ _ _ _ | .returning l _
  | .conditional l _ _ _ | .whileLoop l _ _ | .doLoop l _ _ | .forLoop l _ _ _ _ | .forIn l _ _ _ _
  | .breaking l | .continuing l | .trying l _ _ _ | .rethrowing l | .empty l | .misplaced l _ => l

end Stmt
end Dartlet.Syntax
