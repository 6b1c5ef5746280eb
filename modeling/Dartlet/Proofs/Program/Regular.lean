import Dartlet.Proofs.Program.Node

/-!
# Regular trees

Some errors mean that a tree has a construct where it does not belong, and not that a program uses a
part of the language that is not run. A tree is regular if none of its constructs raises such an
error by its form.
-/

namespace Dartlet

/-- Of the parts that are read but not run, those that a text may have: optional and named parameters,
named arguments, typed catch clauses and loops in collections. -/
def Unsupported.occursInTexts : Unsupported → Bool
  | .parameter kind _ _ => kind == "optional" || kind == "named"
  | .namedArgument _ | .typedCatch _ | .collectionFor => true
  | .statement _ | .expression _ | .functionBody _ | .assignment _ => false

/-- The errors about trees that no text stands for. -/
def Fault.isMalformed : Fault → Bool
  | .unsupported u => !u.occursInTexts
  | .mismatch (.unknownUnary _) => true
  | _ => false

namespace Syntax

/-- A construct in which nothing is out of place. -/
inductive Node.Regular : Node → Prop
  | mk {n : Node} : (∀ f, n.Raises f → f.isMalformed = false) → (∀ m ∈ n.children, Regular m) → Regular n

theorem Node.Regular.raises {n : Node} (h : n.Regular) {f : Fault} (hf : n.Raises f) : f.isMalformed = false := by
  cases h with
  | mk hraises _ => exact hraises f hf

theorem Node.Regular.part {n m : Node} (h : n.Regular) (hm : m ∈ n.children) : m.Regular := by
  cases h with
  | mk _ hparts => exact hparts m hm

/-- Parameters of the kinds that texts have. -/
def Parameter.IsKnown (p : Parameter) : Prop := p.kind = .required ∨ p.kind = .optional ∨ p.kind = .named

theorem Parameter.IsKnown.fault {p : Parameter} (h : p.IsKnown) (hp : p.kind ≠ .required) (name : String)
    (function : Option String) : (Fault.unsupported (.parameter p.kind.label name function)).isMalformed = false := by
  rcases h with h | h | h
  · exact absurd h hp
  · rw [h]; rfl
  · rw [h]; rfl

end Syntax
end Dartlet
