import Dartlet.Proofs.Program.Node

/-!
# What the constructs of a program mention

The constructs inside a program, the names that each mentions by itself, and the members to which it
assigns.
-/

namespace Dartlet.Syntax

/-- The member that an expression names, if it names one. -/
def Expr.member? : Expr → Option String
  | .property _ _ name => some name
  | _ => none

namespace Node

/-- The names that a construct mentions by itself: identifiers, declared names, parameters, and the
variables of loops and catch clauses. -/
def names : Node → List String
  | .expr (.identifier _ name) => [name]
  | .parameter p => [p.name]
  | .var v => [v.name]
  | .stmt (.function _ name _ _ _) => [name]
  | .stmt (.forIn _ name _ _ _) => [name]
  | .clause (.mk _ _ _ exceptionName traceName) => exceptionName.toList ++ traceName.toList
  | _ => []

/-- The members to which a construct assigns by itself. -/
def writes : Node → List String
  | .expr (.assignment _ _ target _) => target.member?.toList
  | .expr (.unary _ op operand) => if op.isStep then operand.member?.toList else []
  | .expr (.postfixed _ _ operand) => operand.member?.toList
  | _ => []

/-- Whether a construct begins something that a `rethrow` inside it can tell: a clause or the body of a
function. -/
def isHandler : Node → Bool
  | .clause _ | .body _ => true
  | _ => false

/-- The constructs inside another one, at any depth. -/
inductive Contains (n : Node) : Node → Prop
  | self : Contains n n
  | part {m k : Node} : Contains n m → k ∈ m.children → Contains n k

theorem Contains.trans {n m k : Node} (h : n.Contains m) (h' : m.Contains k) : n.Contains k := by
  induction h' with
  | self => exact h
  | part _ hmem ih => exact ih.part hmem

theorem Contains.of_mem {n m k : Node} (hm : m ∈ n.children) (h : m.Contains k) : n.Contains k :=
  (Contains.self.part hm).trans h

theorem contains_iff {n k : Node} : n.Contains k ↔ k = n ∨ ∃ m ∈ n.children, m.Contains k := by
  constructor
  · intro h
    induction h with
    | self => exact .inl rfl
    | part _ hk ih =>
      rcases ih with rfl | ⟨m, hm, hcontains⟩
      · exact .inr ⟨_, hk, .self⟩
      · exact .inr ⟨m, hm, hcontains.part hk⟩
  · rintro (rfl | ⟨m, hm, h⟩)
    · exact .self
    · exact .of_mem hm h

/-- Whether a name occurs in a construct. -/
def Mentions (n : Node) (name : String) : Prop := ∃ m, n.Contains m ∧ name ∈ m.names

end Node
end Dartlet.Syntax
