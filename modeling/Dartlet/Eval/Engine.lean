import Dartlet.Arithmetic
import Dartlet.Members.Arguments
import Dartlet.Scope

/-!
# The engine

The parts of the evaluator call each other through an engine: it evaluates expressions, executes
statements and calls functions, each time with one level of nesting less than itself.
-/

namespace Dartlet

open Dartlet.Syntax (Expr Stmt)

variable [Host]

/-- Where code runs: its scope, and how many calls of functions and methods are under way. -/
structure Context where
  scope : Address
  depth : Nat

/-- How a statement completes. -/
inductive Completion where
  | normal
  | breaking
  | continuing
  | returning (v : Value)

/-- Whether a completion ends the statement list that it occurs in. -/
def Completion.isAbrupt : Completion → Bool
  | .normal => false
  | _ => true

/-- What the parts of the evaluator may call, and how many rounds their loops may run. -/
structure Engine where
  eval : Context → Expr → Action Value
  exec : Context → Stmt → Action Completion
  /-- Call a function value while some number of calls is under way. -/
  call : Nat → Value → List Value → Action Value
  rounds : Nat

/-- What members may call while some number of calls is under way. -/
def Engine.caller (e : Engine) (depth : Nat) : Caller := ⟨e.call depth, e.rounds⟩

/-- Code in another scope. -/
def Context.at (c : Context) (scope : Address) : Context := { c with scope := scope }

namespace Action

/-- The truth value that a value must be. -/
def requireBool (v : Value) (context : String) : Action Bool :=
  match v with
  | .bool b => pure b
  | _ => fun s => mismatch (.notBool context (v.typeName s)) s

/-- A value that must be a number. -/
def requireNumber (v : Value) (context : String) : Action Unit :=
  if v.isNumber then pure ()
  else fun s => mismatch (.notNum context (v.typeName s)) s

/-- The result of a binary operator. -/
def applyBinary (op : Syntax.BinaryOp) (left right : Value) : Action Value :=
  fun s => ofExcept (binaryResult s op left right) s

/-- The result of an operator with one operand. -/
def applyUnary (op : Syntax.UnaryOp) (operand : Value) : Action Value :=
  fun s => ofExcept (unaryResult s op operand) s

/-- A new scope inside another one. -/
def enterScope (parent : Address) : Action Address := update (fun s => s.enter parent)

/-- Bind a name. -/
def declare (scope : Address) (name : String) (value : Value) : Action Unit :=
  modify (fun s => s.declare scope name value)

/-- Assign to a name. -/
def assign (scope : Address) (name : String) (value : Value) : Action Value := fun s =>
  match s.update? scope name value with
  | some s' => .done value s'
  | none => fail (.unbound name) s

/-- Check the number of arguments of a call. -/
def checkArity (label : Option String) (arity : Arity) (count : Nat) : Action Unit :=
  if arity.accepts count then pure () else fail (.wrongCount label arity.low arity.high count)

end Action
end Dartlet
