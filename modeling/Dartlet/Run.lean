import Dartlet.Eval.Interpreter
import Dartlet.Host.Globals
import Dartlet.Syntax.Parse

/-!
# Running programs

The ways into the language: a program whose `main` is called, a single expression, and the input of
an interactive session, which may be either statements or an expression.
-/

namespace Dartlet

open Dartlet.Action
open Dartlet.Syntax (Expr Stmt SyntaxError)

variable [Host]

/-- Why a run has no result. -/
inductive Stop where
  /-- The text was refused before anything ran. -/
  | refused (e : SyntaxError)
  /-- An error of the language was not caught. -/
  | raised (error : Address)
  /-- A failure outside the language ended the run. -/
  | escaped (f : HostFailure)
  /-- The interpreter's levels did not suffice. -/
  | exhausted

/-- The end of a run: its result, or why there is none, and the store. -/
structure Run (α : Type) where
  result : Except Stop α
  store : Store

namespace Run

/-- The end of an action. -/
def ofOutcome {α : Type} : Outcome α → Run α
  | .done a s => ⟨.ok a, s⟩
  | .raised e s => ⟨.error (.raised e), s⟩
  | .escaped f s => ⟨.error (.escaped f), s⟩
  | .exhausted s => ⟨.error .exhausted, s⟩

/-- Read a text and perform the action that it stands for. -/
def reading {α β : Type} (read : Except SyntaxError α) (perform : α → Action β) (s : Store) : Run β :=
  match read with
  | .error e => ⟨.error (.refused e), s⟩
  | .ok a => ofOutcome (perform a s)

end Run

/-- Evaluate an expression at the outermost level. -/
def evalIn (scope : Address) (x : Expr) : Action Value := engine.eval ⟨scope, 0⟩ x

/-- Execute a statement at the outermost level. -/
def execIn (scope : Address) (x : Stmt) : Action Completion := engine.exec ⟨scope, 0⟩ x

/-- Run the body of a function at the outermost level. -/
def runBodyIn (scope : Address) (body : Syntax.FunctionBody) : Action Value := runBody engine ⟨scope, 0⟩ body

/-- Execute the declarations of a program in a new scope inside the outermost one. -/
def declareUnit (unit : Stmt) : Action Address := do
  let scope ← enterScope rootScope
  let _ ← execIn scope unit
  pure scope

/-- Run the declarations of a program text. The result is their scope. -/
def runUnit (source : String) (s : Store) : Run Address :=
  Run.reading (Syntax.parseUnit source) declareUnit s

/-- The function with which a program begins, and how many parameters it declares. -/
structure Entry where
  function : Value
  parameters : Nat

/-- The name of the function with which a program begins. -/
def entryName : String := "main"

/-- The number of parameters that a function declares. Native functions declare none. -/
def parameterCount (s : Store) : Value → Nat
  | .closure a =>
    match s.closures[a]? with
    | some f => f.parameters.length
    | none => 0
  | _ => 0

/-- Find the function with which a program begins. -/
def findEntry (scope : Address) : Action Entry := fun s =>
  match s.lookup? scope entryName with
  | some v => if v.isFunction then .done ⟨v, parameterCount s v⟩ s else fail .missingMain s
  | none => fail .missingMain s

/-- Begin a program with its arguments, which are a list of texts for a function with one
parameter. -/
def callEntry (entry : Entry) (arguments : List String) : Action Value :=
  match entry.parameters with
  | 0 => engine.call 0 entry.function []
  | 1 => do
    let texts ← newList (arguments.map Value.string).toArray
    engine.call 0 entry.function [texts]
  | n => fail (.mainParameters n)

/-- Run the declarations of a program text and find the function with which it begins. -/
def loadMain (source : String) (s : Store) : Run Entry :=
  Run.reading (Syntax.parseUnit source) (fun unit => do
    let scope ← declareUnit unit
    findEntry scope) s

/-- Run a program text. The result is that of its `main`. -/
def runMain (source : String) (arguments : List String) (s : Store) : Run Value :=
  match loadMain source s with
  | ⟨.ok entry, s'⟩ => Run.ofOutcome (callEntry entry arguments s')
  | ⟨.error stop, s'⟩ => ⟨.error stop, s'⟩

/-- Evaluate the text of an expression in a new scope inside the outermost one. -/
def evalText (source : String) (s : Store) : Run Value :=
  Run.reading (Syntax.parseExpression source) (fun x => do
    let scope ← enterScope rootScope
    evalIn scope x) s

/-- What the input of a session yields: a value, and whether it is to be shown. -/
structure Reply where
  value : Value
  echo : Bool

/-- Execute statements in a scope. If the last one is an expression, its value is shown. -/
def replyStatements (scope : Address) : List Stmt → Action Reply
  | [] => pure ⟨.null, false⟩
  | [.expression _ x] => do
    let v ← evalIn scope x
    pure ⟨v, true⟩
  | statement :: rest => do
    let _ ← execIn scope statement
    replyStatements scope rest

/-- Evaluate an expression in a scope and show its value. -/
def replyExpression (scope : Address) (x : Expr) : Action Reply := do
  let v ← evalIn scope x
  pure ⟨v, true⟩

/-- Run the input of a session in a scope. What cannot be read as statements may still be an
expression; if it is neither, the first complaint counts. -/
def runInput (scope : Address) (text : String) (s : Store) : Run Reply :=
  match Syntax.parseStatements text with
  | .ok statements => Run.ofOutcome (replyStatements scope statements s)
  | .error complaint =>
    if complaint.isFatal then ⟨.error (.refused complaint), s⟩
    else
      match Syntax.parseExpression text with
      | .ok x => Run.ofOutcome (replyExpression scope x s)
      | .error second => ⟨.error (.refused (if second.isFatal then second else complaint)), s⟩

end Dartlet
