import Dartlet.Proofs.Program.Node
import Dartlet.Syntax.Jumps

/-!
# Where jumps have a target

The check of jumps passes a construct exactly if the construct is not itself a jump without a target
and the check passes all constructs directly inside it, with what encloses them there. What passes
keeps passing when more encloses it.
-/

namespace Dartlet.Syntax

namespace Node

/-- The first jump without a target in a construct. -/
def jumpError (c : Enclosing) : Node → Option SyntaxError
  | .expr x => x.jumpError c
  | .part (.text _) => none
  | .part (.code x) => x.jumpError c
  | .argument (.positional x) => x.jumpError c
  | .argument (.named _ _ x) => x.jumpError c
  | .element x => x.jumpError c
  | .body b => b.jumpError
  | .parameter _ => none
  | .var (.mk _ _ none) => none
  | .var (.mk _ _ (some x)) => x.jumpError c
  | .start s => s.jumpError c
  | .clause (.mk _ x _ _ _) => x.jumpError c.clause
  | .stmt x => x.jumpError c

/-- What encloses the constructs directly inside another one. -/
def inside (c : Enclosing) : Node → Enclosing
  | .stmt x => if x.isLoop then c.loop else c
  | .clause _ => c.clause
  | .body _ => .nothing
  | _ => c

/-- Whether a construct has its target, if it is a jump. -/
def Lands (c : Enclosing) : Node → Prop
  | .stmt (.breaking _) | .stmt (.continuing _) => c.inLoop = true
  | .stmt (.rethrowing _) => c.inCatch = true
  | _ => True

end Node

theorem firstError_eq_none {a b : Option SyntaxError} : firstError a b = none ↔ a = none ∧ b = none := by
  cases a <;> simp [firstError]

/-! ### Several constructs, one after the other -/

section Sequences

variable {c : Enclosing} {e e' : Option SyntaxError} {ns ns' : List Node}

theorem jumpError_one (n : Node) : n.jumpError c = none ↔ ∀ m ∈ [n], m.jumpError c = none := by
  rw [List.forall_mem_singleton]

theorem jumpError_append (h : e = none ↔ ∀ m ∈ ns, m.jumpError c = none) (h' : e' = none ↔ ∀ m ∈ ns', m.jumpError c = none) :
    firstError e e' = none ↔ ∀ m ∈ ns ++ ns', m.jumpError c = none := by
  rw [firstError_eq_none, h, h', List.forall_mem_append]

theorem jumpError_cons (n : Node) (h : e = none ↔ ∀ m ∈ ns, m.jumpError c = none) :
    firstError (n.jumpError c) e = none ↔ ∀ m ∈ n :: ns, m.jumpError c = none :=
  jumpError_append (jumpError_one n) h

/-- The check of a list passes if it passes all its elements. -/
private theorem listCheck_eq_none {α : Type} {node : α → Node} {f : List α → Option SyntaxError} (hnil : f [] = none)
    (hcons : ∀ a as, f (a :: as) = firstError ((node a).jumpError c) (f as)) (as : List α) :
    f as = none ↔ ∀ m ∈ as.map node, m.jumpError c = none := by
  induction as with
  | nil => exact iff_of_true hnil (List.forall_mem_nil _)
  | cons a as ih =>
    rw [hcons]
    exact jumpError_cons (node a) ih

variable (c)

theorem jumpErrorParts_eq_none (ps : List Part) :
    jumpErrorParts c ps = none ↔ ∀ m ∈ ps.map Node.part, m.jumpError c = none :=
  listCheck_eq_none rfl (fun p _ => by cases p <;> rfl) ps

theorem jumpErrorArguments_eq_none (as : List Argument) :
    jumpErrorArguments c as = none ↔ ∀ m ∈ as.map Node.argument, m.jumpError c = none :=
  listCheck_eq_none rfl (fun a _ => by cases a <;> rfl) as

theorem jumpErrorElements_eq_none (xs : List Element) :
    jumpErrorElements c xs = none ↔ ∀ m ∈ xs.map Node.element, m.jumpError c = none :=
  listCheck_eq_none rfl (fun _ _ => rfl) xs

theorem jumpErrorVariables_eq_none (vs : List Variable) :
    jumpErrorVariables c vs = none ↔ ∀ m ∈ vs.map Node.var, m.jumpError c = none := by
  refine listCheck_eq_none rfl (fun v _ => ?_) vs
  obtain ⟨l, name, value⟩ := v
  cases value <;> rfl

theorem jumpErrorExprs_eq_none (xs : List Expr) :
    jumpErrorExprs c xs = none ↔ ∀ m ∈ xs.map Node.expr, m.jumpError c = none :=
  listCheck_eq_none rfl (fun _ _ => rfl) xs

theorem jumpErrorClauses_eq_none (ks : List CatchClause) :
    jumpErrorClauses c ks = none ↔ ∀ m ∈ ks.map Node.clause, m.jumpError c = none :=
  listCheck_eq_none rfl (fun k _ => by cases k; rfl) ks

theorem jumpErrorStmts_eq_none (xs : List Stmt) :
    jumpErrorStmts c xs = none ↔ ∀ m ∈ xs.map Node.stmt, m.jumpError c = none :=
  listCheck_eq_none rfl (fun _ _ => rfl) xs

theorem jumpError_function (parameters : List Parameter) (b : FunctionBody) :
    b.jumpError = none ↔ ∀ m ∈ parameters.map Node.parameter ++ [.body b], m.jumpError c = none := by
  rw [List.forall_mem_append, List.forall_mem_singleton, List.forall_mem_map]
  exact (and_iff_right fun _ _ => rfl).symm

end Sequences

theorem Expr.jumpError_eq_none (c : Enclosing) (x : Expr) :
    x.jumpError c = none ↔ ∀ m ∈ x.children, m.jumpError c = none := by
  match x with
  | .identifier .. | .nullLiteral .. | .boolLiteral .. | .intLiteral .. | .doubleLiteral .. | .stringLiteral ..
  | .misplaced .. => exact iff_of_true rfl (List.forall_mem_nil _)
  | .unary _ _ a | .postfixed _ _ a | .parenthesized _ a | .property _ a _ | .throwing _ a =>
    exact jumpError_one (.expr a)
  | .binary _ _ a b | .assignment _ _ a b | .index _ a b => exact jumpError_cons (.expr a) (jumpError_one (.expr b))
  | .conditional _ a b d =>
    exact jumpError_cons (.expr a) (jumpError_cons (.expr b) (jumpError_one (.expr d)))
  | .functionLiteral _ parameters body => exact jumpError_function c parameters body
  | .call _ f as | .methodCall _ f _ as =>
    exact jumpError_cons (.expr f) (jumpErrorArguments_eq_none c as)
  | .interpolation _ ps => exact jumpErrorParts_eq_none c ps
  | .listLiteral _ es _ | .setOrMapLiteral _ es _ =>
    exact jumpErrorElements_eq_none c es

theorem Element.jumpError_eq_none (c : Enclosing) (x : Element) :
    x.jumpError c = none ↔ ∀ m ∈ x.children, m.jumpError c = none := by
  cases x with
  | plain a | spread _ a _ | nullAware _ a => exact jumpError_one (.expr a)
  | entry l k v nullAwareKey nullAwareValue => exact jumpError_cons (.expr k) (jumpError_one (.expr v))
  | conditional l a t f =>
    cases f with
    | none => exact jumpError_cons (.expr a) (jumpError_one (.element t))
    | some f => exact jumpError_cons (.expr a) (jumpError_cons (.element t) (jumpError_one (.element f)))
  | loop l header body => exact jumpError_cons (.stmt header) (jumpError_one (.element body))

theorem Stmt.lands_of_jumpError {c : Enclosing} {x : Stmt} (h : x.jumpError c = none) : (Node.stmt x).Lands c := by
  have htarget {inside : Bool} {e : SyntaxError} (h : (if inside then none else some e) = none) : inside = true := by
    simpa using h
  cases x with
  | breaking l => exact htarget h
  | continuing l => exact htarget h
  | rethrowing l => exact htarget h
  | _ => trivial

/-- Where a statement has its target, the check goes on to what is directly inside it. -/
theorem Stmt.jumpError_of_lands {c : Enclosing} {x : Stmt} (hx : (Node.stmt x).Lands c) :
    x.jumpError c = none ↔ ∀ m ∈ x.children, m.jumpError ((Node.stmt x).inside c) = none := by
  match x with
  | .breaking _ | .continuing _ | .rethrowing _ => exact iff_of_true (if_pos hx) (List.forall_mem_nil _)
  | .returning _ none | .empty _ | .misplaced .. => exact iff_of_true rfl (List.forall_mem_nil _)
  | .unit _ ss | .block _ ss => exact jumpErrorStmts_eq_none c ss
  | .expression _ a | .returning _ (some a) => exact jumpError_one (.expr a)
  | .variables _ vs _ _ => exact jumpErrorVariables_eq_none c vs
  | .function _ _ parameters body _ => exact jumpError_function c parameters body
  | .conditional _ a t none => exact jumpError_cons (.expr a) (jumpError_one (.stmt t))
  | .conditional _ a t (some f) =>
    exact jumpError_cons (.expr a) (jumpError_cons (.stmt t) (jumpError_one (.stmt f)))
  | .whileLoop _ a body | .forIn _ _ a body _ => exact jumpError_cons (.expr a) (jumpError_one (.stmt body))
  | .doLoop _ body a => exact jumpError_cons (.stmt body) (jumpError_one (.expr a))
  | .forLoop _ start none updaters body =>
    have hrest := jumpError_append (jumpErrorExprs_eq_none c.loop updaters) (jumpError_one (.stmt body))
    exact jumpError_cons (.start start) hrest
  | .forLoop _ start (some a) updaters body =>
    have hrest := jumpError_append (jumpErrorExprs_eq_none c.loop updaters) (jumpError_one (.stmt body))
    exact jumpError_cons (.start start) (jumpError_cons (.expr a) hrest)
  | .trying l body clauses none =>
    have hchildren : (Stmt.trying l body clauses none).children = .stmt body :: clauses.map .clause := List.append_nil _
    rw [hchildren]
    exact jumpError_cons (.stmt body) (jumpErrorClauses_eq_none c clauses)
  | .trying _ body clauses (some f) =>
    exact jumpError_cons (.stmt body) (jumpError_append (jumpErrorClauses_eq_none c clauses) (jumpError_one (.stmt f)))

theorem Stmt.jumpError_eq_none (c : Enclosing) (x : Stmt) :
    x.jumpError c = none ↔
      (Node.stmt x).Lands c ∧ ∀ m ∈ x.children, m.jumpError ((Node.stmt x).inside c) = none :=
  ⟨fun h => ⟨lands_of_jumpError h, (jumpError_of_lands (lands_of_jumpError h)).mp h⟩, fun h => (jumpError_of_lands h.1).mpr h.2⟩

/-- The check passes a construct exactly if it has its target, if it is a jump, and the check passes
all constructs directly inside it. -/
theorem Node.jumpError_eq_none (c : Enclosing) (n : Node) :
    n.jumpError c = none ↔ n.Lands c ∧ ∀ m ∈ n.children, m.jumpError (n.inside c) = none := by
  cases n with
  | expr x => exact (Expr.jumpError_eq_none c x).trans (and_iff_right trivial).symm
  | element x => exact (Element.jumpError_eq_none c x).trans (and_iff_right trivial).symm
  | stmt x => exact Stmt.jumpError_eq_none c x
  | part p => cases p <;> simp [Node.jumpError, Node.children, Node.Lands, Node.inside]
  | argument a => cases a <;> simp [Node.jumpError, Node.children, Node.Lands, Node.inside]
  | body b => cases b <;> simp [Node.jumpError, Node.children, Node.Lands, Node.inside, FunctionBody.jumpError]
  | parameter p => simp [Node.jumpError, Node.children, Node.Lands]
  | var v =>
    obtain ⟨l, name, value⟩ := v
    cases value <;> simp [Node.jumpError, Node.children, Node.Lands, Node.inside]
  | start s =>
    cases s <;> simp [Node.jumpError, Node.children, Node.Lands, Node.inside, LoopStart.jumpError,
      jumpErrorExprs_eq_none]
  | clause k => cases k; simp [Node.jumpError, Node.children, Node.Lands, Node.inside]

/-- Whatever encloses a construct in one place encloses it in another. -/
structure Enclosing.Le (c c' : Enclosing) : Prop where
  loop : c.inLoop = true → c'.inLoop = true
  clause : c.inCatch = true → c'.inCatch = true

theorem Enclosing.nothing_le (c : Enclosing) : Enclosing.nothing.Le c := ⟨nofun, nofun⟩

theorem Node.Lands.mono {n : Node} {c c' : Enclosing} (hc : c.Le c') (h : n.Lands c) : n.Lands c' := by
  unfold Node.Lands at h ⊢
  split at h
  · exact hc.loop h
  · exact hc.loop h
  · exact hc.clause h
  · trivial

theorem Node.inside_le {c c' : Enclosing} (hc : c.Le c') (n : Node) : (n.inside c).Le (n.inside c') := by
  cases n with
  | stmt x =>
    simp only [Node.inside]
    split
    · exact ⟨fun _ => rfl, hc.clause⟩
    · exact hc
  | clause k => exact ⟨hc.loop, fun _ => rfl⟩
  | body b => exact ⟨id, id⟩
  | _ => exact hc

theorem Node.jumpError_mono (n : Node) {c c' : Enclosing} (hc : c.Le c') (h : n.jumpError c = none) :
    n.jumpError c' = none := by
  induction n using Node.induction generalizing c c' with
  | step n ih =>
    obtain ⟨hlands, hparts⟩ := (n.jumpError_eq_none c).mp h
    exact (n.jumpError_eq_none c').mpr ⟨hlands.mono hc, fun m hm => ih m hm (n.inside_le hc) (hparts m hm)⟩

end Dartlet.Syntax
