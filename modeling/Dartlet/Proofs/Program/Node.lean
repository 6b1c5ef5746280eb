import Dartlet.Fault
import Dartlet.Syntax.Program

/-!
# The nodes of a program tree

All constructs of a program as one type, with the constructs of which each consists and the errors
that each raises by its form alone, whatever the values are.
-/

namespace Dartlet.Syntax

/-- A construct of a program. -/
inductive Node where
  | expr (e : Expr)
  | part (p : Part)
  | argument (a : Argument)
  | element (e : Element)
  | body (b : FunctionBody)
  | parameter (p : Parameter)
  | var (v : Variable)
  | start (s : LoopStart)
  | clause (c : CatchClause)
  | stmt (s : Stmt)

/-- The constructs directly inside an expression. -/
def Expr.children : Expr → List Node
  | .identifier .. | .nullLiteral .. | .boolLiteral .. | .intLiteral .. | .doubleLiteral ..
  | .stringLiteral .. | .misplaced .. => []
  | .interpolation _ parts => parts.map .part
  | .binary _ _ l r => [.expr l, .expr r]
  | .unary _ _ x => [.expr x]
  | .postfixed _ _ x => [.expr x]
  | .conditional _ x t e => [.expr x, .expr t, .expr e]
  | .assignment _ _ t v => [.expr t, .expr v]
  | .parenthesized _ x => [.expr x]
  | .functionLiteral _ parameters body => parameters.map .parameter ++ [.body body]
  | .call _ f arguments => .expr f :: arguments.map .argument
  | .methodCall _ t _ arguments => .expr t :: arguments.map .argument
  | .property _ t _ => [.expr t]
  | .index _ t k => [.expr t, .expr k]
  | .throwing _ x => [.expr x]
  | .listLiteral _ elements _ => elements.map .element
  | .setOrMapLiteral _ elements _ => elements.map .element

/-- The constructs directly inside an element of a collection. -/
def Element.children : Element → List Node
  | .plain x => [.expr x]
  | .entry _ k v _ _ => [.expr k, .expr v]
  | .spread _ x _ => [.expr x]
  | .nullAware _ x => [.expr x]
  | .conditional _ x t e => .expr x :: .element t :: e.toList.map .element
  | .loop _ header body => [.stmt header, .element body]

/-- The constructs directly inside a statement. -/
def Stmt.children : Stmt → List Node
  | .unit _ ss => ss.map .stmt
  | .block _ ss => ss.map .stmt
  | .expression _ x => [.expr x]
  | .variables _ vs _ _ => vs.map .var
  | .function _ _ parameters body _ => parameters.map .parameter ++ [.body body]
  | .returning _ x => x.toList.map .expr
  | .conditional _ x t e => .expr x :: .stmt t :: e.toList.map .stmt
  | .whileLoop _ x body => [.expr x, .stmt body]
  | .doLoop _ body x => [.stmt body, .expr x]
  | .forLoop _ start x updaters body =>
    .start start :: x.toList.map .expr ++ updaters.map .expr ++ [.stmt body]
  | .forIn _ _ x body _ => [.expr x, .stmt body]
  | .trying _ body clauses finallyBlock =>
    .stmt body :: clauses.map .clause ++ finallyBlock.toList.map .stmt
  | .breaking .. | .continuing .. | .rethrowing .. | .empty .. | .misplaced .. => []

/-- The constructs directly inside another one. -/
def Node.children : Node → List Node
  | .expr x => x.children
  | .part (.text _) => []
  | .part (.code x) => [.expr x]
  | .argument (.positional x) => [.expr x]
  | .argument (.named _ _ x) => [.expr x]
  | .element x => x.children
  | .body (.block _ s) => [.stmt s]
  | .body (.expression _ x) => [.expr x]
  | .body (.misplaced ..) => []
  | .parameter _ => []
  | .var (.mk _ _ x) => x.toList.map .expr
  | .start .nothing => []
  | .start (.declarations s) => [.stmt s]
  | .start (.expressions xs) => xs.map .expr
  | .clause (.mk _ handler _ _ _) => [.stmt handler]
  | .stmt s => s.children

/-! The constructs inside another one are smaller. -/

theorem Expr.sizeOf_lt_of_mem_children {x : Expr} {m : Node} (h : m ∈ x.children) : sizeOf m < sizeOf (Node.expr x) := by
  rw [Node.expr.sizeOf_spec]
  cases x <;>
    simp only [Expr.children, List.mem_append, List.mem_cons, List.mem_map, List.not_mem_nil, or_false] at h <;>
    grind [→ List.sizeOf_lt_of_mem]

theorem Element.sizeOf_lt_of_mem_children {e : Element} {m : Node} (h : m ∈ e.children) :
    sizeOf m < sizeOf (Node.element e) := by
  rw [Node.element.sizeOf_spec]
  cases e <;>
    simp only [Element.children, List.mem_cons, List.mem_map, Option.mem_toList, List.not_mem_nil, or_false] at h <;>
    grind [→ List.sizeOf_lt_of_mem]

theorem Stmt.sizeOf_lt_of_mem_children {s : Stmt} {m : Node} (h : m ∈ s.children) : sizeOf m < sizeOf (Node.stmt s) := by
  rw [Node.stmt.sizeOf_spec]
  cases s <;>
    simp only [Stmt.children, List.cons_append, List.mem_append, List.mem_cons, List.mem_map, Option.mem_toList,
      List.not_mem_nil, or_false] at h <;>
    grind [→ List.sizeOf_lt_of_mem]

theorem Node.sizeOf_lt_of_mem_children {n m : Node} (h : m ∈ n.children) : sizeOf m < sizeOf n := by
  cases n with
  | expr x => exact x.sizeOf_lt_of_mem_children h
  | element e => exact e.sizeOf_lt_of_mem_children h
  | stmt s => exact s.sizeOf_lt_of_mem_children h
  | part p => cases p <;> grind [Node.children]
  | argument a => cases a <;> grind [Node.children]
  | body b => cases b <;> grind [Node.children]
  | parameter p => cases h
  | var v => cases v; grind [Node.children]
  | start s => cases s <;> grind [Node.children, → List.sizeOf_lt_of_mem]
  | clause k => cases k; grind [Node.children]

/-- What holds of a construct whenever it holds of the constructs directly inside it holds of all. -/
theorem Node.induction {P : Node → Prop} (step : ∀ n : Node, (∀ m ∈ n.children, P m) → P n) (n : Node) : P n :=
  step n (fun m _ => Node.induction step m)
termination_by sizeOf n
decreasing_by exact Node.sizeOf_lt_of_mem_children ‹_›

/-- The name of a variable. -/
def Variable.name : Variable → String
  | .mk _ name _ => name

/-- What a catch clause runs. -/
def CatchClause.body : CatchClause → Stmt
  | .mk _ body _ _ _ => body

namespace Stmt

/-- The names that a statement itself binds in the scope where it runs. -/
def names : Stmt → List String
  | .variables _ vs _ _ => vs.map Variable.name
  | .function _ name _ _ _ => [name]
  | _ => []

/-- The statements inside another one that run in the same scope. -/
def openParts : Stmt → List Stmt
  | .unit _ ss => ss
  | .conditional _ _ t e => t :: e.toList
  | .whileLoop _ _ body => [body]
  | .doLoop _ body _ => [body]
  | .forIn _ _ _ body false => [body]
  | .trying _ body _ finallyBlock => body :: finallyBlock.toList
  | _ => []

/-- The statements inside another one whose abrupt completions become its own. Loops end jumps, so
their bodies are not among them. -/
def throughParts : Stmt → List Stmt
  | .unit _ ss => ss
  | .block _ ss => ss
  | .conditional _ _ t e => t :: e.toList
  | .trying _ body clauses finallyBlock =>
    body :: clauses.map CatchClause.body ++ finallyBlock.toList
  | _ => []

/-- Whether a statement is a loop. -/
def isLoop : Stmt → Bool
  | .whileLoop .. | .doLoop .. | .forLoop .. | .forIn .. => true
  | _ => false

end Stmt

/-- The errors that constructs raise by their form alone. -/
inductive Node.Raises : Node → Fault → Prop
  | expression (l : Location) (kind : String) :
    Raises (.expr (.misplaced l kind)) (.unsupported (.expression kind))
  | operator (l : Location) (spelling : String) (x : Expr) :
    Raises (.expr (.unary l (.other spelling) x)) (.mismatch (.unknownUnary spelling))
  | target (l : Location) (op : AssignOp) (t v : Expr) :
    t.isPlace = false → Raises (.expr (.assignment l op t v)) (.unsupported (.assignment t.kind))
  | stepped (l : Location) (op : UnaryOp) (x : Expr) :
    op.isStep = true → x.isPlace = false →
      Raises (.expr (.unary l op x)) (.unsupported (.assignment x.kind))
  | postfixed (l : Location) (op : UnaryOp) (x : Expr) :
    x.isPlace = false → Raises (.expr (.postfixed l op x)) (.unsupported (.assignment x.kind))
  | literal (l : Location) (parameters : List Parameter) (body : FunctionBody) (p : Parameter) :
    p ∈ parameters → p.kind ≠ .required →
      Raises (.expr (.functionLiteral l parameters body)) (.unsupported (.parameter p.kind.label p.name none))
  | function (l : Location) (name : String) (parameters : List Parameter) (body : FunctionBody)
    (returnType : Option String) (p : Parameter) :
    p ∈ parameters → p.kind ≠ .required →
      Raises (.stmt (.function l name parameters body returnType))
        (.unsupported (.parameter p.kind.label p.name (some name)))
  | named (l : Location) (name : String) (x : Expr) :
    Raises (.argument (.named l name x)) (.unsupported (.namedArgument name))
  | loop (l : Location) (header : Stmt) (body : Element) :
    Raises (.element (.loop l header body)) (.unsupported .collectionFor)
  | body (l : Location) (kind : String) : Raises (.body (.misplaced l kind)) (.unsupported (.functionBody kind))
  | clause (l : Location) (body : Stmt) (type : String) (exceptionName traceName : Option String) :
    Raises (.clause (.mk l body (some type) exceptionName traceName)) (.unsupported (.typedCatch type))
  | statement (l : Location) (kind : String) :
    Raises (.stmt (.misplaced l kind)) (.unsupported (.statement kind))
  | rethrowing (l : Location) : Raises (.stmt (.rethrowing l)) .rethrowOutsideCatch

end Dartlet.Syntax
