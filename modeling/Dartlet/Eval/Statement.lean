import Dartlet.Eval.Expression

/-!
# Statements

One definition for each kind of statement, and the one that chooses among them.
-/

namespace Dartlet

open Dartlet.Action
open Dartlet.Syntax (CatchClause Expr LoopStart Stmt Variable)

variable [Host]

/-- Execute statements in order, up to the first abrupt completion. -/
def execAll (e : Engine) (c : Context) : List Stmt → Action Completion
  | [] => pure .normal
  | statement :: rest => do
    let completion ← e.exec c statement
    if completion.isAbrupt then pure completion else execAll e c rest

/-- Evaluate expressions for their effects. -/
def evalAll (e : Engine) (c : Context) : List Expr → Action Unit
  | [] => pure ()
  | value :: rest => do
    let _ ← e.eval c value
    evalAll e c rest

/-- Declare variables in order; one without an initializer is null. -/
def declareVariables (e : Engine) (c : Context) : List Variable → Action Unit
  | [] => pure ()
  | .mk _ name initializer :: rest => do
    let v ← match initializer with
      | some value => e.eval c value
      | none => pure .null
    declare c.scope name v
    declareVariables e c rest

/-- How a loop completes because of its body, if it does. -/
def loopExit? : Completion → Option Completion
  | .breaking => some .normal
  | .returning v => some (.returning v)
  | .normal | .continuing => none

/-- Run rounds of a loop that tests before each round. -/
def whileRounds (e : Engine) (c : Context) (condition : Expr) (body : Stmt) : Nat → Action Completion
  | 0 => exhaust
  | rounds + 1 => do
    let v ← e.eval c condition
    if ← requireBool v "while condition" then
      let completion ← e.exec c body
      match loopExit? completion with
      | some done => pure done
      | none => whileRounds e c condition body rounds
    else pure .normal

/-- Run rounds of a loop that tests after each round. -/
def doRounds (e : Engine) (c : Context) (body : Stmt) (condition : Expr) : Nat → Action Completion
  | 0 => exhaust
  | rounds + 1 => do
    let completion ← e.exec c body
    match loopExit? completion with
    | some done => pure done
    | none =>
      let v ← e.eval c condition
      if ← requireBool v "do-while condition" then doRounds e c body condition rounds
      else pure .normal

/-- Whether a counting loop goes on. Without a condition it does. -/
def forCondition (e : Engine) (c : Context) : Option Expr → Action Bool
  | none => pure true
  | some condition => do
    let v ← e.eval c condition
    requireBool v "for condition"

/-- Run rounds of a counting loop. -/
def forRounds (e : Engine) (c : Context) (condition : Option Expr) (updaters : List Expr) (body : Stmt) :
    Nat → Action Completion
  | 0 => exhaust
  | rounds + 1 => do
    if ← forCondition e c condition then
      let completion ← e.exec c body
      match loopExit? completion with
      | some done => pure done
      | none =>
        evalAll e c updaters
        forRounds e c condition updaters body rounds
    else pure .normal

/-- Begin a counting loop. -/
def startLoop (e : Engine) (c : Context) : LoopStart → Action Unit
  | .nothing => pure ()
  | .declarations declared => do
    let _ ← e.exec c declared
    pure ()
  | .expressions values => evalAll e c values

/-- Execute a counting loop. All rounds share one scope for its variables. -/
def execFor (e : Engine) (c : Context) (start : LoopStart) (condition : Option Expr) (updaters : List Expr)
    (body : Stmt) : Action Completion := do
  let scope ← enterScope c.scope
  startLoop e (c.at scope) start
  forRounds e (c.at scope) condition updaters body e.rounds

/-- The scope of one round of a loop over elements, with the element bound: a new scope if the loop
declares its variable, else the one around the loop. -/
def bindElement (c : Context) (name : String) (declares : Bool) (item : Value) : Action Context :=
  if declares then do
    let scope ← enterScope c.scope
    declare scope name item
    pure (c.at scope)
  else do
    let _ ← assign c.scope name item
    pure c

/-- Run a loop over elements. -/
def forInRounds (e : Engine) (c : Context) (name : String) (declares : Bool) (body : Stmt) :
    List Value → Action Completion
  | [] => pure .normal
  | item :: rest => do
    let round ← bindElement c name declares item
    let completion ← e.exec round body
    match loopExit? completion with
    | some done => pure done
    | none => forInRounds e c name declares body rest

/-- Execute a loop over elements. -/
def execForIn (e : Engine) (c : Context) (name : String) (iterable : Expr) (body : Stmt) (declares : Bool) :
    Action Completion := do
  let v ← e.eval c iterable
  match ← elementsOf? v with
  | some items => forInRounds e c name declares body items
  | none => fun s => mismatch (.notIterable (v.typeName s)) s

/-- Execute a choice between two statements. -/
def execConditional (e : Engine) (c : Context) (condition : Expr) (thenStmt : Stmt) (elseStmt : Option Stmt) :
    Action Completion := do
  let v ← e.eval c condition
  if ← requireBool v "if condition" then e.exec c thenStmt
  else
    match elseStmt with
    | some statement => e.exec c statement
    | none => pure .normal

/-- What a catch clause binds for an error: the value that was thrown, or the error itself. -/
def caughtValue (s : Store) (error : Address) : Value :=
  match s.fault error with
  | .thrown v _ => v
  | _ => .error error

/-- What a catch clause binds for the stack trace. -/
def stackTrace : Value := .string Host.trace

/-- The names that a catch clause binds. -/
def catchBindings (s : Store) (error : Address) (exceptionName traceName : Option String) :
    List (String × Value) :=
  (exceptionName.toList.map (fun n => (n, caughtValue s error))) ++
    (traceName.toList.map (fun n => (n, stackTrace)))

/-- Handle an error by a clause, in a scope of its own that remembers the error. -/
def runClause (e : Engine) (c : Context) (error : Address) : CatchClause → Action Completion
  | .mk _ _ (some type) _ _ => fail (.unsupported (.typedCatch type))
  | .mk _ body none exceptionName traceName => do
    let scope ← enterScope c.scope
    modify (fun s => s.setActiveError scope error)
    modify (fun s => s.declareAll scope (catchBindings s error exceptionName traceName))
    e.exec (c.at scope) body

/-- Run the first clause if an action raises an error. -/
def handling (e : Engine) (c : Context) (clauses : List CatchClause) (x : Action Completion) :
    Action Completion := fun s =>
  match x s with
  | .raised error s' =>
    match clauses with
    | [] => .raised error s'
    | clause :: _ => runClause e c error clause s'
  | o => o

/-- Run a block after an action that completes or raises an error. If the block completes abruptly,
that is the completion. -/
def ensuring (e : Engine) (c : Context) (block : Option Stmt) (x : Action Completion) :
    Action Completion :=
  match block with
  | none => x
  | some statement => fun s =>
    match x s with
    | .done completion s' =>
      (do
        let last ← e.exec c statement
        pure (if last.isAbrupt then last else completion)) s'
    | .raised error s' =>
      (do
        let last ← e.exec c statement
        if last.isAbrupt then pure last else raise error) s'
    | o => o

/-- Raise the error again that the nearest clause around is handling. -/
def execRethrow (c : Context) : Action Completion := fun s =>
  match s.handledError? c.scope with
  | some error => raise error s
  | none => fail .rethrowOutsideCatch s

/-- Execute a statement, without regard to its place. -/
def execForm (e : Engine) (c : Context) : Stmt → Action Completion
  | .unit _ declarations => execAll e c declarations
  | .block _ statements => do
    let scope ← enterScope c.scope
    execAll e (c.at scope) statements
  | .expression _ value => do
    let _ ← e.eval c value
    pure .normal
  | .variables _ vs _ _ => do
    declareVariables e c vs
    pure .normal
  | .function _ name parameters body _ => do
    let f ← makeClosure (some name) parameters body c.scope
    declare c.scope name f
    pure .normal
  | .returning _ none => pure (.returning .null)
  | .returning _ (some value) => do
    let v ← e.eval c value
    pure (.returning v)
  | .conditional _ condition thenStmt elseStmt => execConditional e c condition thenStmt elseStmt
  | .whileLoop _ condition body => whileRounds e c condition body e.rounds
  | .doLoop _ body condition => doRounds e c body condition e.rounds
  | .forLoop _ start condition updaters body => execFor e c start condition updaters body
  | .forIn _ name iterable body declares => execForIn e c name iterable body declares
  | .breaking _ => pure .breaking
  | .continuing _ => pure .continuing
  | .trying _ body clauses finallyBlock =>
    ensuring e c finallyBlock (handling e c clauses (e.exec c body))
  | .rethrowing _ => execRethrow c
  | .empty _ => pure .normal
  | .misplaced _ kind => fail (.unsupported (.statement kind))

/-- Execute a statement. An error that leaves it is told its place. -/
def execStmt (e : Engine) (c : Context) (x : Stmt) : Action Completion :=
  within (e.caller c.depth) x.location (execForm e c x)

end Dartlet
