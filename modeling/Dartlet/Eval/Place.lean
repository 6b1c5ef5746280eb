import Dartlet.Eval.Call

/-!
# Places

What can stand on the left of an assignment: a name, a member or an indexed element. Receivers and
indices are evaluated once, however often the place is then read and written.
-/

namespace Dartlet

open Dartlet.Action
open Dartlet.Syntax (AssignOp BinaryOp Expr UnaryOp)

variable [Host]

/-- A place that can be read and written. -/
inductive Place where
  | named (target : Expr) (name : String)
  | member (receiver : Value) (name : String)
  | element (receiver key : Value)

namespace Place

/-- The place that an expression names. -/
def resolve (e : Engine) (c : Context) (target : Expr) : Action Place :=
  match target with
  | .identifier _ name => pure (.named target name)
  | .property _ receiver name => do
    let v ← e.eval c receiver
    pure (.member v name)
  | .index _ receiver key => do
    let v ← e.eval c receiver
    let k ← e.eval c key
    pure (.element v k)
  | other => fail (.unsupported (.assignment other.kind))

/-- The value in a place. -/
def read (e : Engine) (c : Context) : Place → Action Value
  | named target _ => e.eval c target
  | member receiver name => getMember receiver name
  | element receiver key => invokeMember e c.depth receiver "[]" [key]

/-- Write a value to a place. -/
def write (e : Engine) (c : Context) (v : Value) : Place → Action Value
  | named _ name => assign c.scope name v
  | member receiver name => setMember receiver name v
  | element receiver key => do
    let _ ← invokeMember e c.depth receiver "[]=" [key, v]
    pure v

end Place

/-- Evaluate an assignment. A combined one reads the place before it evaluates the value. -/
def evalAssignment (e : Engine) (c : Context) (op : AssignOp) (target value : Expr) : Action Value := do
  let place ← Place.resolve e c target
  match op with
  | .plain => do
    let v ← e.eval c value
    place.write e c v
  | .compound op => do
    let current ← place.read e c
    let operand ← e.eval c value
    let v ← applyBinary op current operand
    place.write e c v

/-- A number one step on. -/
def stepped (op : UnaryOp) (current : Value) : Action Value := do
  requireNumber current ("operand of '" ++ op.spelling ++ "'")
  applyBinary (if op == .increment then .add else .sub) current (.int 1)

/-- Evaluate an operator before its operand. -/
def evalUnary (e : Engine) (c : Context) (op : UnaryOp) (operand : Expr) : Action Value :=
  if op.isStep then do
    let place ← Place.resolve e c operand
    let current ← place.read e c
    let v ← stepped op current
    place.write e c v
  else do
    let v ← e.eval c operand
    applyUnary op v

/-- Evaluate an operator after its operand: the place is written, and the value is the one before. -/
def evalPostfixed (e : Engine) (c : Context) (op : UnaryOp) (operand : Expr) : Action Value := do
  let place ← Place.resolve e c operand
  let current ← place.read e c
  let v ← stepped op current
  let _ ← place.write e c v
  pure current

end Dartlet
