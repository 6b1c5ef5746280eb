import Mathlib.Data.List.Forall2
import Dartlet.Proofs.Program.Kinds

/-!
# Sound pieces

A piece is sound if it fits some kind. What can be taken out of sound pieces is in order, whichever
kinds they are of, and lists of them can be taken apart.
-/

namespace Dartlet.Syntax

theorem Node.regular_parameter (q : Parameter) : (Node.parameter q).Regular :=
  .mk (by rintro f ⟨⟩) (by simp [Node.children])

theorem Piece.Fits.of_le {k k' : Kind} {p : Piece} (hp : p.Fits k) (h : k.le k' = true) : p.Fits k' := by
  unfold Kind.le at h
  split at h
  · obtain ⟨t, rfl, ht, hspelled⟩ := hp
    have hmem := List.all_eq_true.mp h _ ht
    exact ⟨t, rfl, by simpa using hmem, hspelled⟩
  · obtain ⟨x, rfl, hx, -⟩ := hp
    exact ⟨x, rfl, hx⟩
  · rw [← eq_of_beq h]
    exact hp

namespace Piece

/-- A piece in which nothing is out of place. -/
def Sound (p : Piece) : Prop := ∃ k, p.Fits k

theorem Fits.sound {k : Kind} {p : Piece} (h : p.Fits k) : p.Sound := ⟨k, h⟩

/-- The construct that a piece is, if it is one of a program's tree. -/
def node? : Piece → Option Node
  | .expr x => some (.expr x)
  | .stmt x => some (.stmt x)
  | .element x => some (.element x)
  | .argument a => some (.argument a)
  | .body b => some (.body b)
  | .parameter q => some (.parameter q)
  | .variable v => some (.var v)
  | .clause c => some (.clause c)
  | .start s => some (.start s)
  | _ => none

theorem Sound.regular {p : Piece} {n : Node} (h : p.Sound) (hn : p.node? = some n) : n.Regular := by
  obtain ⟨k, hk⟩ := h
  cases k <;> simp only [Fits] at hk <;> grind [node?, Node.regular_parameter]

theorem Sound.known {q : Parameter} (h : (Piece.parameter q).Sound) : q.IsKnown := by
  obtain ⟨k, hk⟩ := h
  cases k <;> simp_all [Fits]

theorem Sound.flatten {p : Piece} (h : p.Sound) : ∀ q ∈ p.flatten, q.Sound := by
  intro q hq
  cases p with
  | many ps =>
    obtain ⟨k, hk⟩ := h
    cases k with
    | list k =>
      obtain ⟨_, ⟨⟩, hps⟩ := hk
      exact ⟨k, hps q hq⟩
    | _ => simp [Fits] at hk
  | _ =>
    obtain rfl := List.mem_singleton.mp hq
    exact h

end Piece

/-- Pieces whose constructs all have some property. -/
def AllNodes (P : Node → Prop) (ps : List Piece) : Prop := ∀ p ∈ ps, ∀ n, p.node? = some n → P n

namespace AllNodes

variable {P : Node → Prop} {ps : List Piece}

/-- The constructs taken out of the pieces have it. -/
theorem taken (h : AllNodes P ps) {α : Type} {get : Piece → Option α} {node : α → Node}
    (hget : ∀ p x, get p = some x → p.node? = some (node x)) : ∀ n ∈ (ps.filterMap get).map node, P n := by
  intro n hn
  obtain ⟨x, hx, rfl⟩ := List.mem_map.mp hn
  obtain ⟨p, hp, hpx⟩ := List.mem_filterMap.mp hx
  exact h p hp _ (hget p x hpx)

theorem exprs (h : AllNodes P ps) : ∀ n ∈ (ps.filterMap Piece.expr?).map Node.expr, P n :=
  h.taken (by rintro (_ | _) x ⟨⟩; rfl)

theorem stmts (h : AllNodes P ps) : ∀ n ∈ (ps.filterMap Piece.stmt?).map Node.stmt, P n :=
  h.taken (by rintro (_ | _) x ⟨⟩; rfl)

theorem elements (h : AllNodes P ps) : ∀ n ∈ (ps.filterMap Piece.element?).map Node.element, P n :=
  h.taken (by rintro (_ | _) x ⟨⟩; rfl)

theorem arguments (h : AllNodes P ps) : ∀ n ∈ (ps.filterMap Piece.argument?).map Node.argument, P n :=
  h.taken (by rintro (_ | _) x ⟨⟩; rfl)

theorem parameters (h : AllNodes P ps) : ∀ n ∈ (ps.filterMap Piece.parameter?).map Node.parameter, P n :=
  h.taken (by rintro (_ | _) x ⟨⟩; rfl)

theorem vars (h : AllNodes P ps) : ∀ n ∈ (ps.filterMap Piece.variableIn?).map Node.var, P n :=
  h.taken (by rintro (_ | _) x ⟨⟩; rfl)

theorem clauses (h : AllNodes P ps) : ∀ n ∈ (ps.filterMap Piece.clause?).map Node.clause, P n :=
  h.taken (by rintro (_ | _) x ⟨⟩; rfl)

end AllNodes

/-- Pieces that are all sound. -/
def AllSound (ps : List Piece) : Prop := ∀ p ∈ ps, p.Sound

namespace AllSound

variable {ps qs : List Piece}

theorem mono (h : AllSound ps) (hsub : qs ⊆ ps) : AllSound qs := fun p hp => h p (hsub hp)

/-- What comes after the first piece of some sort. -/
theorem after (h : AllSound ps) (before : Piece → Bool) : AllSound ((ps.dropWhile before).drop 1) :=
  h.mono (List.Subset.trans (List.drop_subset _ _) (List.dropWhile_suffix _).subset)

theorem flatten (h : AllSound ps) : AllSound (flattenPieces ps) := by
  intro q hq
  obtain ⟨p, hp, hq⟩ := List.mem_flatMap.mp hq
  exact (h p hp).flatten q hq

/-- The constructs among sound pieces are regular. -/
theorem nodes (h : AllSound ps) : AllNodes Node.Regular ps := fun p hp _ hn => (h p hp).regular hn

theorem parameters (h : AllSound ps) : ∀ q ∈ ps.filterMap Piece.parameter?, q.IsKnown := by
  intro q hq
  obtain ⟨p, hp, hpq⟩ := List.mem_filterMap.mp hq
  cases p with
  | parameter q' =>
    cases hpq
    exact (h _ hp).known
  | _ => cases hpq

theorem parameter_pieces (h : AllSound ps) :
    ∀ p ∈ ps.filter (fun p => p.parameter?.isSome), p.Fits .parameter := by
  intro p hp
  obtain ⟨hp, hsome⟩ := List.mem_filter.mp hp
  cases p with
  | parameter q => exact ⟨q, rfl, (h _ hp).known⟩
  | _ => cases hsome

theorem argument_pieces (h : AllSound ps) : ∀ p ∈ ps.filter (fun p => p.argument?.isSome), p.Fits .argument := by
  intro p hp
  obtain ⟨hp, hsome⟩ := List.mem_filter.mp hp
  cases p with
  | argument a => exact ⟨a, rfl, (h _ hp).regular rfl⟩
  | _ => cases hsome

end AllSound

/-- Pieces that are what is expected. -/
def FitsShape : List (Option Kind) → List Piece → Prop
  | [], ps => ps = []
  | none :: shape, ps => ∃ p rest, ps = p :: rest ∧ FitsShape shape rest
  | some k :: shape, ps => ∃ p rest, ps = p :: rest ∧ p.Fits k ∧ FitsShape shape rest

/-- Pieces that are one of the things expected. -/
def FitsOneOf : List (List (Option Kind)) → List Piece → Prop
  | [], _ => False
  | [shape], ps => FitsShape shape ps
  | shape :: shapes, ps => FitsShape shape ps ∨ FitsOneOf shapes ps

/-- Pieces of some kinds, one for each. -/
def FitsAll (ks : List Kind) (ps : List Piece) : Prop := List.Forall₂ (fun k p => p.Fits k) ks ps

theorem FitsAll.sound {ks : List Kind} {ps : List Piece} (h : FitsAll ks ps) : AllSound ps := by
  induction h with
  | nil => simp [AllSound]
  | cons hp _ ih => exact List.forall_mem_cons.mpr ⟨hp.sound, ih⟩

theorem FitsAll.shape {ks : List Kind} {ps : List Piece} {shape : List (Option Kind)} (h : FitsAll ks ps)
    (hmatch : matchesShape shape ks = true) : FitsShape shape ps := by
  induction h generalizing shape with
  | nil =>
    cases shape with
    | nil => rfl
    | cons _ _ => simp [matchesShape] at hmatch
  | cons hp _ ih =>
    cases shape with
    | nil => simp [matchesShape] at hmatch
    | cons slot shape =>
      cases slot with
      | none => exact ⟨_, _, rfl, ih hmatch⟩
      | some k =>
        rw [matchesShape, Bool.and_eq_true] at hmatch
        exact ⟨_, _, rfl, hp.of_le hmatch.1, ih hmatch.2⟩

theorem FitsAll.oneOf {ks : List Kind} {ps : List Piece} {shapes : List (List (Option Kind))} (h : FitsAll ks ps)
    (hmatch : shapes.any (fun shape => matchesShape shape ks) = true) : FitsOneOf shapes ps := by
  induction shapes with
  | nil => simp at hmatch
  | cons shape shapes ih =>
    rw [List.any_cons, Bool.or_eq_true] at hmatch
    cases shapes with
    | nil => exact h.shape (by simpa using hmatch)
    | cons _ _ => exact hmatch.imp h.shape ih

end Dartlet.Syntax
