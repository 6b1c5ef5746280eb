import Dartlet.Syntax.Error
import Dartlet.Syntax.Program

/-!
# Jumps have a target

A `break` or `continue` needs a loop around it, and a `rethrow` a catch clause, within the same
function. The first one that has none, in the order of the text, is the error.
-/

namespace Dartlet.Syntax

/-- What encloses a construct within its function. -/
structure Enclosing where
  inLoop : Bool
  inCatch : Bool
  deriving DecidableEq, Repr

namespace Enclosing

/-- Nothing encloses the beginning of a text or of a function body. -/
def nothing : Enclosing := ⟨false, false⟩

/-- Inside a loop. -/
def loop (c : Enclosing) : Enclosing := { c with inLoop := true }

/-- Inside a catch clause. -/
def clause (c : Enclosing) : Enclosing := { c with inCatch := true }

end Enclosing

/-- The first of two errors. -/
def firstError (a b : Option SyntaxError) : Option SyntaxError :=
  match a with
  | some e => some e
  | none => b

mutual

/-- The first jump without a target in an expression. -/
def Expr.jumpError (c : Enclosing) : Expr → Option SyntaxError
  | .identifier .. | .nullLiteral .. | .boolLiteral .. | .intLiteral .. | .doubleLiteral ..
  | .stringLiteral .. | .misplaced .. => none
  | .interpolation _ parts => jumpErrorParts c parts
  | .binary _ _ l r => firstError (l.jumpError c) (r.jumpError c)
  | .unary _ _ e => e.jumpError c
  | .postfixed _ _ e => e.jumpError c
  | .conditional _ x t e => firstError (x.jumpError c) (firstError (t.jumpError c) (e.jumpError c))
  | .assignment _ _ t v => firstError (t.jumpError c) (v.jumpError c)
  | .parenthesized _ e => e.jumpError c
  | .functionLiteral _ _ body => body.jumpError
  | .call _ f arguments => firstError (f.jumpError c) (jumpErrorArguments c arguments)
  | .methodCall _ t _ arguments => firstError (t.jumpError c) (jumpErrorArguments c arguments)
  | .property _ t _ => t.jumpError c
  | .index _ t k => firstError (t.jumpError c) (k.jumpError c)
  | .throwing _ e => e.jumpError c
  | .listLiteral _ elements _ => jumpErrorElements c elements
  | .setOrMapLiteral _ elements _ => jumpErrorElements c elements

def jumpErrorParts (c : Enclosing) : List Part → Option SyntaxError
  | [] => none
  | .text _ :: rest => jumpErrorParts c rest
  | .code e :: rest => firstError (e.jumpError c) (jumpErrorParts c rest)

def jumpErrorArguments (c : Enclosing) : List Argument → Option SyntaxError
  | [] => none
  | .positional e :: rest => firstError (e.jumpError c) (jumpErrorArguments c rest)
  | .named _ _ e :: rest => firstError (e.jumpError c) (jumpErrorArguments c rest)

def Element.jumpError (c : Enclosing) : Element → Option SyntaxError
  | .plain e => e.jumpError c
  | .entry _ k v _ _ => firstError (k.jumpError c) (v.jumpError c)
  | .spread _ e _ => e.jumpError c
  | .nullAware _ e => e.jumpError c
  | .conditional _ x t none => firstError (x.jumpError c) (t.jumpError c)
  | .conditional _ x t (some e) =>
    firstError (x.jumpError c) (firstError (t.jumpError c) (e.jumpError c))
  | .loop _ header body => firstError (header.jumpError c) (body.jumpError c)

def jumpErrorElements (c : Enclosing) : List Element → Option SyntaxError
  | [] => none
  | e :: rest => firstError (e.jumpError c) (jumpErrorElements c rest)

/-- The first jump without a target in the body of a function, which nothing outside encloses. -/
def FunctionBody.jumpError : FunctionBody → Option SyntaxError
  | .block _ s => s.jumpError .nothing
  | .expression _ e => e.jumpError .nothing
  | .misplaced .. => none

def jumpErrorVariables (c : Enclosing) : List Variable → Option SyntaxError
  | [] => none
  | .mk _ _ none :: rest => jumpErrorVariables c rest
  | .mk _ _ (some e) :: rest => firstError (e.jumpError c) (jumpErrorVariables c rest)

def LoopStart.jumpError (c : Enclosing) : LoopStart → Option SyntaxError
  | .nothing => none
  | .declarations s => s.jumpError c
  | .expressions es => jumpErrorExprs c es

def jumpErrorExprs (c : Enclosing) : List Expr → Option SyntaxError
  | [] => none
  | e :: rest => firstError (e.jumpError c) (jumpErrorExprs c rest)

def jumpErrorClauses (c : Enclosing) : List CatchClause → Option SyntaxError
  | [] => none
  | .mk _ body _ _ _ :: rest => firstError (body.jumpError c.clause) (jumpErrorClauses c rest)

/-- The first jump without a target in a statement. -/
def Stmt.jumpError (c : Enclosing) : Stmt → Option SyntaxError
  | .unit _ ss => jumpErrorStmts c ss
  | .block _ ss => jumpErrorStmts c ss
  | .expression _ e => e.jumpError c
  | .variables _ vs _ _ => jumpErrorVariables c vs
  | .function _ _ _ body _ => body.jumpError
  | .returning _ none => none
  | .returning _ (some e) => e.jumpError c
  | .conditional _ x t none => firstError (x.jumpError c) (t.jumpError c)
  | .conditional _ x t (some e) =>
    firstError (x.jumpError c) (firstError (t.jumpError c) (e.jumpError c))
  | .whileLoop _ x body => firstError (x.jumpError c.loop) (body.jumpError c.loop)
  | .doLoop _ body x => firstError (body.jumpError c.loop) (x.jumpError c.loop)
  | .forLoop _ start none updaters body =>
    firstError (start.jumpError c.loop)
      (firstError (jumpErrorExprs c.loop updaters) (body.jumpError c.loop))
  | .forLoop _ start (some x) updaters body =>
    firstError (start.jumpError c.loop) (firstError (x.jumpError c.loop)
      (firstError (jumpErrorExprs c.loop updaters) (body.jumpError c.loop)))
  | .forIn _ _ e body _ => firstError (e.jumpError c.loop) (body.jumpError c.loop)
  | .breaking l => if c.inLoop then none else some ⟨.jumpOutsideLoop "break", l⟩
  | .continuing l => if c.inLoop then none else some ⟨.jumpOutsideLoop "continue", l⟩
  | .trying _ body clauses none => firstError (body.jumpError c) (jumpErrorClauses c clauses)
  | .trying _ body clauses (some f) =>
    firstError (body.jumpError c) (firstError (jumpErrorClauses c clauses) (f.jumpError c))
  | .rethrowing l => if c.inCatch then none else some ⟨.rethrowOutsideCatch, l⟩
  | .empty .. | .misplaced .. => none

def jumpErrorStmts (c : Enclosing) : List Stmt → Option SyntaxError
  | [] => none
  | s :: rest => firstError (s.jumpError c) (jumpErrorStmts c rest)

end

end Dartlet.Syntax
