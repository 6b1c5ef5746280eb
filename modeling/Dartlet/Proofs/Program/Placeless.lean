import Dartlet.Syntax.Assembly
import Dartlet.Syntax.Jumps

/-!
# Programs without places

Trees, pieces, derivations and errors from which all places are taken away. Two of them are the same up to
places if they are the same without them. Whether a jump has a target does not depend on places.
-/

namespace Dartlet.Syntax

/-- A parameter without its place. -/
def Parameter.placeless (q : Parameter) : Parameter := { q with location := none }

mutual

/-- An expression without places. -/
def Expr.placeless : Expr → Expr
  | .identifier _ name => .identifier none name
  | .nullLiteral _ => .nullLiteral none
  | .boolLiteral _ value => .boolLiteral none value
  | .intLiteral _ value => .intLiteral none value
  | .doubleLiteral _ value => .doubleLiteral none value
  | .stringLiteral _ value => .stringLiteral none value
  | .interpolation _ parts => .interpolation none (placelessParts parts)
  | .binary _ op x y => .binary none op x.placeless y.placeless
  | .unary _ op x => .unary none op x.placeless
  | .postfixed _ op x => .postfixed none op x.placeless
  | .conditional _ c t e => .conditional none c.placeless t.placeless e.placeless
  | .assignment _ op x y => .assignment none op x.placeless y.placeless
  | .parenthesized _ x => .parenthesized none x.placeless
  | .functionLiteral _ parameters body => .functionLiteral none (parameters.map Parameter.placeless) body.placeless
  | .call _ f arguments => .call none f.placeless (placelessArguments arguments)
  | .methodCall _ x name arguments => .methodCall none x.placeless name (placelessArguments arguments)
  | .property _ x name => .property none x.placeless name
  | .index _ x key => .index none x.placeless key.placeless
  | .throwing _ x => .throwing none x.placeless
  | .listLiteral _ elements types => .listLiteral none (placelessElements elements) types
  | .setOrMapLiteral _ elements types => .setOrMapLiteral none (placelessElements elements) types
  | .misplaced _ kind => .misplaced none kind

def Part.placeless : Part → Part
  | .text value => .text value
  | .code x => .code x.placeless

def placelessParts : List Part → List Part
  | [] => []
  | p :: rest => p.placeless :: placelessParts rest

def Argument.placeless : Argument → Argument
  | .positional x => .positional x.placeless
  | .named _ name x => .named none name x.placeless

def placelessArguments : List Argument → List Argument
  | [] => []
  | a :: rest => a.placeless :: placelessArguments rest

def Element.placeless : Element → Element
  | .plain x => .plain x.placeless
  | .entry _ k v nullAwareKey nullAwareValue => .entry none k.placeless v.placeless nullAwareKey nullAwareValue
  | .spread _ x nullAware => .spread none x.placeless nullAware
  | .nullAware _ x => .nullAware none x.placeless
  | .conditional _ c t none => .conditional none c.placeless t.placeless none
  | .conditional _ c t (some e) => .conditional none c.placeless t.placeless (some e.placeless)
  | .loop _ header body => .loop none header.placeless body.placeless

def placelessElements : List Element → List Element
  | [] => []
  | e :: rest => e.placeless :: placelessElements rest

def FunctionBody.placeless : FunctionBody → FunctionBody
  | .block _ s => .block none s.placeless
  | .expression _ x => .expression none x.placeless
  | .misplaced _ kind => .misplaced none kind

def Variable.placeless : Variable → Variable
  | .mk _ name none => .mk none name none
  | .mk _ name (some x) => .mk none name (some x.placeless)

def placelessVariables : List Variable → List Variable
  | [] => []
  | v :: rest => v.placeless :: placelessVariables rest

def LoopStart.placeless : LoopStart → LoopStart
  | .nothing => .nothing
  | .declarations s => .declarations s.placeless
  | .expressions xs => .expressions (placelessExprs xs)

def placelessExprs : List Expr → List Expr
  | [] => []
  | x :: rest => x.placeless :: placelessExprs rest

def CatchClause.placeless : CatchClause → CatchClause
  | .mk _ body exceptionType exceptionName traceName => .mk none body.placeless exceptionType exceptionName traceName

def placelessClauses : List CatchClause → List CatchClause
  | [] => []
  | c :: rest => c.placeless :: placelessClauses rest

/-- A statement without places. -/
def Stmt.placeless : Stmt → Stmt
  | .unit _ ss => .unit none (placelessStmts ss)
  | .block _ ss => .block none (placelessStmts ss)
  | .expression _ x => .expression none x.placeless
  | .variables _ vs keyword typeName => .variables none (placelessVariables vs) keyword typeName
  | .function _ name parameters body returnType =>
    .function none name (parameters.map Parameter.placeless) body.placeless returnType
  | .returning _ none => .returning none none
  | .returning _ (some x) => .returning none (some x.placeless)
  | .conditional _ c t none => .conditional none c.placeless t.placeless none
  | .conditional _ c t (some e) => .conditional none c.placeless t.placeless (some e.placeless)
  | .whileLoop _ c body => .whileLoop none c.placeless body.placeless
  | .doLoop _ body c => .doLoop none body.placeless c.placeless
  | .forLoop _ start none updaters body => .forLoop none start.placeless none (placelessExprs updaters) body.placeless
  | .forLoop _ start (some c) updaters body =>
    .forLoop none start.placeless (some c.placeless) (placelessExprs updaters) body.placeless
  | .forIn _ name x body declares => .forIn none name x.placeless body.placeless declares
  | .breaking _ => .breaking none
  | .continuing _ => .continuing none
  | .trying _ body clauses none => .trying none body.placeless (placelessClauses clauses) none
  | .trying _ body clauses (some f) => .trying none body.placeless (placelessClauses clauses) (some f.placeless)
  | .rethrowing _ => .rethrowing none
  | .empty _ => .empty none
  | .misplaced _ kind => .misplaced none kind

def placelessStmts : List Stmt → List Stmt
  | [] => []
  | s :: rest => s.placeless :: placelessStmts rest

end

/-! ### Lists -/

/-- What goes through a list part by part maps it. -/
private theorem eq_map_of_cons {α β : Type} {f : List α → List β} {g : α → β} (hnil : f [] = [])
    (hcons : ∀ a as, f (a :: as) = g a :: f as) (as : List α) : f as = as.map g := by
  induction as with
  | nil => exact hnil
  | cons a as ih => rw [hcons, ih, List.map_cons]

@[simp] theorem placelessParts_eq (ps : List Part) : placelessParts ps = ps.map Part.placeless :=
  eq_map_of_cons rfl (fun _ _ => rfl) ps

@[simp] theorem placelessArguments_eq (as : List Argument) : placelessArguments as = as.map Argument.placeless :=
  eq_map_of_cons rfl (fun _ _ => rfl) as

@[simp] theorem placelessElements_eq (es : List Element) : placelessElements es = es.map Element.placeless :=
  eq_map_of_cons rfl (fun _ _ => rfl) es

@[simp] theorem placelessVariables_eq (vs : List Variable) : placelessVariables vs = vs.map Variable.placeless :=
  eq_map_of_cons rfl (fun _ _ => rfl) vs

@[simp] theorem placelessExprs_eq (xs : List Expr) : placelessExprs xs = xs.map Expr.placeless :=
  eq_map_of_cons rfl (fun _ _ => rfl) xs

@[simp] theorem placelessClauses_eq (cs : List CatchClause) : placelessClauses cs = cs.map CatchClause.placeless :=
  eq_map_of_cons rfl (fun _ _ => rfl) cs

@[simp] theorem placelessStmts_eq (ss : List Stmt) : placelessStmts ss = ss.map Stmt.placeless :=
  eq_map_of_cons rfl (fun _ _ => rfl) ss

/-! ### Jumps -/

/-- An error without its place. -/
def SyntaxError.placeless (e : SyntaxError) : SyntaxError := { e with location := none }

theorem firstError_placeless {a b a' b' : Option SyntaxError} (ha : a' = a.map SyntaxError.placeless)
    (hb : b' = b.map SyntaxError.placeless) : firstError a' b' = (firstError a b).map SyntaxError.placeless := by
  subst ha hb
  cases a <;> rfl

theorem errorUnless_placeless (inside : Bool) (flaw : Flaw) (l : Location) :
    (if inside then none else some ⟨flaw, none⟩ : Option SyntaxError) =
      (if inside then none else some ⟨flaw, l⟩ : Option SyntaxError).map SyntaxError.placeless := by
  cases inside <;> rfl

mutual

/-- The first jump without a target is the same one up to its place. -/
theorem Expr.jumpError_placeless (c : Enclosing) (x : Expr) :
    x.placeless.jumpError c = (x.jumpError c).map SyntaxError.placeless := by
  match x with
  | .identifier .. | .nullLiteral .. | .boolLiteral .. | .intLiteral .. | .doubleLiteral .. | .stringLiteral ..
  | .misplaced .. => rfl
  | .interpolation _ ps => exact jumpErrorParts_placeless c ps
  | .binary _ _ x y | .assignment _ _ x y | .index _ x y =>
    exact firstError_placeless (x.jumpError_placeless c) (y.jumpError_placeless c)
  | .unary _ _ x | .postfixed _ _ x | .parenthesized _ x | .property _ x _ | .throwing _ x =>
    exact x.jumpError_placeless c
  | .conditional _ x y z =>
    exact firstError_placeless (x.jumpError_placeless c)
      (firstError_placeless (y.jumpError_placeless c) (z.jumpError_placeless c))
  | .functionLiteral _ _ body => exact body.jumpError_placeless
  | .call _ f arguments => exact firstError_placeless (f.jumpError_placeless c) (jumpErrorArguments_placeless c arguments)
  | .methodCall _ x _ arguments =>
    exact firstError_placeless (x.jumpError_placeless c) (jumpErrorArguments_placeless c arguments)
  | .listLiteral _ elements _ | .setOrMapLiteral _ elements _ => exact jumpErrorElements_placeless c elements

theorem jumpErrorParts_placeless (c : Enclosing) (ps : List Part) :
    jumpErrorParts c (placelessParts ps) = (jumpErrorParts c ps).map SyntaxError.placeless := by
  match ps with
  | [] => rfl
  | .text _ :: rest => exact jumpErrorParts_placeless c rest
  | .code x :: rest => exact firstError_placeless (x.jumpError_placeless c) (jumpErrorParts_placeless c rest)

theorem jumpErrorArguments_placeless (c : Enclosing) (as : List Argument) :
    jumpErrorArguments c (placelessArguments as) = (jumpErrorArguments c as).map SyntaxError.placeless := by
  match as with
  | [] => rfl
  | .positional x :: rest | .named _ _ x :: rest =>
    exact firstError_placeless (x.jumpError_placeless c) (jumpErrorArguments_placeless c rest)

theorem Element.jumpError_placeless (c : Enclosing) (e : Element) :
    e.placeless.jumpError c = (e.jumpError c).map SyntaxError.placeless := by
  match e with
  | .plain x | .spread _ x _ | .nullAware _ x => exact x.jumpError_placeless c
  | .entry _ k v _ _ => exact firstError_placeless (k.jumpError_placeless c) (v.jumpError_placeless c)
  | .conditional _ x t none => exact firstError_placeless (x.jumpError_placeless c) (t.jumpError_placeless c)
  | .conditional _ x t (some e) =>
    exact firstError_placeless (x.jumpError_placeless c)
      (firstError_placeless (t.jumpError_placeless c) (e.jumpError_placeless c))
  | .loop _ header body => exact firstError_placeless (header.jumpError_placeless c) (body.jumpError_placeless c)

theorem jumpErrorElements_placeless (c : Enclosing) (es : List Element) :
    jumpErrorElements c (placelessElements es) = (jumpErrorElements c es).map SyntaxError.placeless := by
  match es with
  | [] => rfl
  | e :: rest => exact firstError_placeless (e.jumpError_placeless c) (jumpErrorElements_placeless c rest)

theorem FunctionBody.jumpError_placeless (b : FunctionBody) :
    b.placeless.jumpError = b.jumpError.map SyntaxError.placeless := by
  match b with
  | .block _ s => exact s.jumpError_placeless .nothing
  | .expression _ x => exact x.jumpError_placeless .nothing
  | .misplaced .. => rfl

theorem jumpErrorVariables_placeless (c : Enclosing) (vs : List Variable) :
    jumpErrorVariables c (placelessVariables vs) = (jumpErrorVariables c vs).map SyntaxError.placeless := by
  match vs with
  | [] => rfl
  | .mk _ _ none :: rest => exact jumpErrorVariables_placeless c rest
  | .mk _ _ (some x) :: rest => exact firstError_placeless (x.jumpError_placeless c) (jumpErrorVariables_placeless c rest)

theorem LoopStart.jumpError_placeless (c : Enclosing) (s : LoopStart) :
    s.placeless.jumpError c = (s.jumpError c).map SyntaxError.placeless := by
  match s with
  | .nothing => rfl
  | .declarations s => exact s.jumpError_placeless c
  | .expressions xs => exact jumpErrorExprs_placeless c xs

theorem jumpErrorExprs_placeless (c : Enclosing) (xs : List Expr) :
    jumpErrorExprs c (placelessExprs xs) = (jumpErrorExprs c xs).map SyntaxError.placeless := by
  match xs with
  | [] => rfl
  | x :: rest => exact firstError_placeless (x.jumpError_placeless c) (jumpErrorExprs_placeless c rest)

theorem jumpErrorClauses_placeless (c : Enclosing) (ks : List CatchClause) :
    jumpErrorClauses c (placelessClauses ks) = (jumpErrorClauses c ks).map SyntaxError.placeless := by
  match ks with
  | [] => rfl
  | .mk _ body _ _ _ :: rest =>
    exact firstError_placeless (body.jumpError_placeless c.clause) (jumpErrorClauses_placeless c rest)

theorem Stmt.jumpError_placeless (c : Enclosing) (s : Stmt) :
    s.placeless.jumpError c = (s.jumpError c).map SyntaxError.placeless := by
  match s with
  | .unit _ ss | .block _ ss => exact jumpErrorStmts_placeless c ss
  | .expression _ x | .returning _ (some x) => exact x.jumpError_placeless c
  | .variables _ vs _ _ => exact jumpErrorVariables_placeless c vs
  | .function _ _ _ body _ => exact body.jumpError_placeless
  | .returning _ none | .empty _ | .misplaced .. => rfl
  | .conditional _ x t none => exact firstError_placeless (x.jumpError_placeless c) (t.jumpError_placeless c)
  | .conditional _ x t (some e) =>
    exact firstError_placeless (x.jumpError_placeless c)
      (firstError_placeless (t.jumpError_placeless c) (e.jumpError_placeless c))
  | .whileLoop _ x body => exact firstError_placeless (x.jumpError_placeless c.loop) (body.jumpError_placeless c.loop)
  | .doLoop _ body x => exact firstError_placeless (body.jumpError_placeless c.loop) (x.jumpError_placeless c.loop)
  | .forLoop _ start none updaters body =>
    exact firstError_placeless (start.jumpError_placeless c.loop)
      (firstError_placeless (jumpErrorExprs_placeless c.loop updaters) (body.jumpError_placeless c.loop))
  | .forLoop _ start (some x) updaters body =>
    exact firstError_placeless (start.jumpError_placeless c.loop) (firstError_placeless (x.jumpError_placeless c.loop)
      (firstError_placeless (jumpErrorExprs_placeless c.loop updaters) (body.jumpError_placeless c.loop)))
  | .forIn _ _ x body _ => exact firstError_placeless (x.jumpError_placeless c.loop) (body.jumpError_placeless c.loop)
  | .breaking _ | .continuing _ => exact errorUnless_placeless c.inLoop _ _
  | .trying _ body clauses none =>
    exact firstError_placeless (body.jumpError_placeless c) (jumpErrorClauses_placeless c clauses)
  | .trying _ body clauses (some f) =>
    exact firstError_placeless (body.jumpError_placeless c)
      (firstError_placeless (jumpErrorClauses_placeless c clauses) (f.jumpError_placeless c))
  | .rethrowing _ => exact errorUnless_placeless c.inCatch _ _

theorem jumpErrorStmts_placeless (c : Enclosing) (ss : List Stmt) :
    jumpErrorStmts c (placelessStmts ss) = (jumpErrorStmts c ss).map SyntaxError.placeless := by
  match ss with
  | [] => rfl
  | s :: rest => exact firstError_placeless (s.jumpError_placeless c) (jumpErrorStmts_placeless c rest)

end

/-! ### Pieces and derivations -/

/-- A token without its place. -/
def Token.placeless (t : Token) : Token := { t with position := default }

def LoopHeader.placeless : LoopHeader → LoopHeader
  | .classic start condition updaters =>
    .classic start.placeless (condition.map Expr.placeless) (updaters.map Expr.placeless)
  | .each name declares x => .each name declares x.placeless

mutual

/-- A piece of a program without places. -/
def Piece.placeless : Piece → Piece
  | .token t => .token t.placeless
  | .expr x => .expr x.placeless
  | .stmt s => .stmt s.placeless
  | .element e => .element e.placeless
  | .argument a => .argument a.placeless
  | .body b => .body b.placeless
  | .parameter q => .parameter q.placeless
  | .variable v => .variable v.placeless
  | .clause c => .clause c.placeless
  | .typeName name => .typeName name
  | .words ws => .words ws
  | .start s => .start s.placeless
  | .header h => .header h.placeless
  | .loopVariable name declares => .loopVariable name declares
  | .many pieces => .many (placelessPieces pieces)
  | .nothing => .nothing

def placelessPieces : List Piece → List Piece
  | [] => []
  | p :: rest => p.placeless :: placelessPieces rest

end

mutual

/-- A derivation without places. -/
def Derivation.placeless : Derivation → Derivation
  | .leaf t => .leaf t.placeless
  | .node rule _ parts => .node rule none (placelessDerivations parts)

def placelessDerivations : List Derivation → List Derivation
  | [] => []
  | d :: rest => d.placeless :: placelessDerivations rest

end

@[simp] theorem placelessPieces_eq (ps : List Piece) : placelessPieces ps = ps.map Piece.placeless :=
  eq_map_of_cons rfl (fun _ _ => rfl) ps

@[simp] theorem placelessDerivations_eq (ds : List Derivation) : placelessDerivations ds = ds.map Derivation.placeless :=
  eq_map_of_cons rfl (fun _ _ => rfl) ds

/-- A result without places, be it a piece of a program or an error. -/
def placelessResult {α β : Type} (placeless : α → β) : Except SyntaxError α → Except SyntaxError β
  | .error e => .error e.placeless
  | .ok x => .ok (placeless x)

/-- Two results that are the same up to places are both errors or both pieces of programs. -/
theorem placelessResult_cases {α β γ : Type} {f : α → γ} {g : β → γ} {r : Except SyntaxError α} {r' : Except SyntaxError β}
    (h : placelessResult f r = placelessResult g r') :
    (∃ e e', r = .error e ∧ r' = .error e' ∧ e.placeless = e'.placeless) ∨
      ∃ x x', r = .ok x ∧ r' = .ok x' ∧ f x = g x' := by
  cases r with
  | error e =>
    cases r' with
    | error e' => exact .inl ⟨e, e', rfl, rfl, Except.error.inj h⟩
    | ok _ => cases h
  | ok x =>
    cases r' with
    | error _ => cases h
    | ok x' => exact .inr ⟨x, x', rfl, rfl, Except.ok.inj h⟩

end Dartlet.Syntax
