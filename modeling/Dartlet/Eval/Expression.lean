import Dartlet.Eval.Collection
import Dartlet.Eval.Place

/-!
# Expressions

One definition for each kind of expression, and the one that chooses among them.
-/

namespace Dartlet

open Dartlet.Action
open Dartlet.Syntax (Argument BinaryOp Expr)

variable [Host]

/-- The value of a name: its nearest binding, or what the host provides behind all scopes. -/
def evalIdentifier (c : Context) (name : String) : Action Value := fun s =>
  match s.lookup? c.scope name with
  | some v => .done v s
  | none =>
    match tableFind? s.globals name with
    | some v => .done v s
    | none => fail (.unbound name) s

/-- Evaluate a binary operator. The logical ones evaluate their right operand only if they need it. -/
def evalBinary (e : Engine) (c : Context) (op : BinaryOp) (left right : Expr) : Action Value := do
  let l ← e.eval c left
  match op with
  | .and => do
    if ← requireBool l "left operand of '&&'" then
      let r ← e.eval c right
      let b ← requireBool r "right operand of '&&'"
      pure (.bool b)
    else pure (.bool false)
  | .or => do
    if ← requireBool l "left operand of '||'" then pure (.bool true)
    else
      let r ← e.eval c right
      let b ← requireBool r "right operand of '||'"
      pure (.bool b)
  | op => do
    let r ← e.eval c right
    applyBinary op l r

/-- Evaluate a choice between two expressions. -/
def evalConditional (e : Engine) (c : Context) (condition thenExpr elseExpr : Expr) : Action Value := do
  let v ← e.eval c condition
  if ← requireBool v "conditional expression condition" then e.eval c thenExpr else e.eval c elseExpr

/-- Evaluate the arguments of a call, left to right. -/
def evalArguments (e : Engine) (c : Context) : List Argument → Action (List Value)
  | [] => pure []
  | .named _ name _ :: _ => fail (.unsupported (.namedArgument name))
  | .positional value :: rest => do
    let v ← e.eval c value
    let vs ← evalArguments e c rest
    pure (v :: vs)

/-- Throw a value. A caught error is raised again as it is. -/
def throwValue {α : Type} (v : Value) : Action α :=
  match v with
  | .error a => raise a
  | .null => mismatch .throwOfNull
  | v => do
    let shown ← textOf v
    fail (.thrown v shown)

/-- Evaluate an expression, without regard to its place. -/
def evalForm (e : Engine) (c : Context) : Expr → Action Value
  | .identifier _ name => evalIdentifier c name
  | .nullLiteral _ => pure .null
  | .boolLiteral _ b => pure (.bool b)
  | .intLiteral _ n => pure (.int n)
  | .doubleLiteral _ x => pure (.double x)
  | .stringLiteral _ t => pure (.string t)
  | .interpolation _ parts => do
    let text ← evalParts e c parts
    pure (.string text)
  | .binary _ op left right => evalBinary e c op left right
  | .unary _ op operand => evalUnary e c op operand
  | .postfixed _ op operand => evalPostfixed e c op operand
  | .conditional _ condition thenExpr elseExpr => evalConditional e c condition thenExpr elseExpr
  | .assignment _ op target value => evalAssignment e c op target value
  | .parenthesized _ inner => e.eval c inner
  | .functionLiteral _ parameters body => makeClosure none parameters body c.scope
  | .call _ function arguments => do
    let f ← e.eval c function
    let values ← evalArguments e c arguments
    e.call c.depth f values
  | .methodCall _ target name arguments => do
    let receiver ← e.eval c target
    let values ← evalArguments e c arguments
    invokeMember e c.depth receiver name values
  | .property _ target name => do
    let receiver ← e.eval c target
    getMember receiver name
  | .index _ target key => do
    let receiver ← e.eval c target
    let k ← e.eval c key
    invokeMember e c.depth receiver "[]" [k]
  | .throwing _ value => do
    let v ← e.eval c value
    throwValue v
  | .listLiteral _ elements _ => evalList e c elements
  | .setOrMapLiteral _ elements typeArguments => evalSetOrMap e c elements typeArguments
  | .misplaced _ kind => fail (.unsupported (.expression kind))

/-- Evaluate an expression. An error that leaves it is told its place. -/
def evalExpr (e : Engine) (c : Context) (x : Expr) : Action Value :=
  within (e.caller c.depth) x.location (evalForm e c x)

end Dartlet
