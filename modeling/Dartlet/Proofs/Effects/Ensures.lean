import Dartlet.Host.Placing

/-!
# What actions ensure

An action ensures an invariant of stores and a property of results if, begun in a store with the
invariant, it leaves one behind however it ends, and every result it ends with has the property.
The rules below take actions apart the way the evaluator puts them together.
-/

namespace Dartlet

/-- An outcome whose store has an invariant and whose result, if there is one, has a property. -/
def Outcome.Meets {α : Type} (I : Store → Prop) (Q : α → Prop) : Outcome α → Prop
  | .done a s => Q a ∧ I s
  | .raised _ s | .escaped _ s | .exhausted s => I s

theorem Outcome.Meets.store {α : Type} {I : Store → Prop} {Q : α → Prop} {o : Outcome α}
    (h : o.Meets I Q) : I o.store := by
  cases o with
  | done a s => exact h.2
  | raised e s => exact h
  | escaped f s => exact h
  | exhausted s => exact h

/-- Of an outcome whose result does not matter only the store counts. -/
theorem Outcome.meets_of_store {α : Type} {I : Store → Prop} {o : Outcome α} (h : I o.store) :
    o.Meets I (fun _ => True) := by
  cases o with
  | done a s => exact ⟨trivial, h⟩
  | raised e s => exact h
  | escaped f s => exact h
  | exhausted s => exact h

theorem Outcome.Meets.mono {α : Type} {I : Store → Prop} {Q R : α → Prop} {o : Outcome α}
    (h : o.Meets I Q) (hQR : ∀ a, Q a → R a) : o.Meets I R := by
  cases o with
  | done a s => exact ⟨hQR a h.1, h.2⟩
  | raised e s => exact h
  | escaped f s => exact h
  | exhausted s => exact h

namespace Action

variable {α β : Type} {I : Store → Prop} {Q : α → Prop} {R : β → Prop} {x : Action α}

/-- Every run of the action that begins with the invariant ends with it, and with a result that
has the property. -/
def Ensures (I : Store → Prop) (Q : α → Prop) (x : Action α) : Prop := ∀ s, I s → (x s).Meets I Q

/-- Every run of the action that begins with the invariant ends with it. -/
abbrev Keeps (I : Store → Prop) (x : Action α) : Prop := Ensures I (fun _ => True) x

theorem Ensures.mono {Q' : α → Prop} (h : Ensures I Q x) (hQ : ∀ a, Q a → Q' a) : Ensures I Q' x :=
  fun s hs => (h s hs).mono hQ

theorem Ensures.keeps (h : Ensures I Q x) : Keeps I x := h.mono (fun _ _ => trivial)

theorem ensures_pure {a : α} (h : Q a) : Ensures I Q (pure a) := fun _ hs => ⟨h, hs⟩

theorem keeps_pure (a : α) : Keeps I (pure a) := ensures_pure trivial

theorem Ensures.bind {f : α → Action β} (hx : Ensures I Q x) (hf : ∀ a, Q a → Ensures I R (f a)) :
    Ensures I R (x >>= f) := by
  intro s hs
  have h := hx s hs
  change Outcome.Meets I R (Action.bind x f s)
  unfold Action.bind
  cases hxs : x s with
  | done a s' =>
    rw [hxs] at h
    exact hf a h.1 s' h.2
  | raised e s' => rwa [hxs] at h
  | escaped e s' => rwa [hxs] at h
  | exhausted s' => rwa [hxs] at h

/-- One action after another, where the second needs to know nothing of the first one's result. -/
theorem Keeps.bind {f : α → Action β} (hx : Keeps I x) (hf : ∀ a, Ensures I R (f a)) :
    Ensures I R (x >>= f) :=
  Ensures.bind hx (fun a _ => hf a)

theorem keeps_get : Keeps I get := fun _ hs => ⟨trivial, hs⟩

/-- An action that looks at the store first and goes on in that store. -/
theorem ensures_get_bind {f : Store → Action β} (h : ∀ s, I s → (f s s).Meets I R) : Ensures I R (get >>= f) := h

theorem keeps_modify {f : Store → Store} (h : ∀ s, I s → I (f s)) : Keeps I (modify f) :=
  fun s hs => ⟨trivial, h s hs⟩

theorem ensures_update {f : Store → α × Store} (h : ∀ s, I s → Q (f s).1 ∧ I (f s).2) :
    Ensures I Q (update f) := h

theorem ensures_fail {f : Fault} (h : ∀ s, I s → I (s.addError f).2) :
    Ensures I Q (fail f : Action α) := h

theorem ensures_raise (e : Address) : Ensures I Q (raise e : Action α) := fun _ hs => hs

theorem ensures_escape (f : HostFailure) : Ensures I Q (escape f : Action α) := fun _ hs => hs

theorem ensures_exhaust : Ensures I Q (exhaust : Action α) := fun _ hs => hs

/-- A choice by a truth value ensures what both sides do. -/
theorem ensures_ite {p : Prop} [Decidable p] {y : Action α} (hx : p → Ensures I Q x)
    (hy : ¬p → Ensures I Q y) : Ensures I Q (if p then x else y) := by
  split
  · exact hx ‹p›
  · exact hy ‹¬p›

theorem Ensures.within {c : Caller} {location : Syntax.Location} (h : Ensures I Q x)
    (hattach : ∀ a, Keeps I (attach c a location)) : Ensures I Q (within c location x) := by
  intro s hs
  have hx := h s hs
  unfold Action.within
  cases hxs : x s with
  | done a s' => rwa [hxs] at hx
  | raised e s' =>
    rw [hxs] at hx
    exact (hattach e).bind (fun _ => ensures_raise e) s' hx
  | escaped e s' => rwa [hxs] at hx
  | exhausted s' => rwa [hxs] at hx

theorem Ensures.delegate (h : Ensures I Q x) (hf : ∀ s f, I s → I (s.addError (.host f)).2) :
    Ensures I Q (delegate x) := by
  intro s hs
  have hx := h s hs
  unfold Action.delegate
  cases hxs : x s with
  | done a s' => rwa [hxs] at hx
  | raised e s' => rwa [hxs] at hx
  | exhausted s' => rwa [hxs] at hx
  | escaped f s' =>
    rw [hxs] at hx
    cases f with
    | endlessNesting => exact hx
    | _ => exact hf s' _ hx

theorem Ensures.guardNesting (h : Ensures I Q x) (hf : ∀ s, I s → I (s.addError .stackOverflow).2) :
    Ensures I Q (guardNesting x) := by
  intro s hs
  have hx := h s hs
  unfold Action.guardNesting
  cases hxs : x s with
  | done a s' => rwa [hxs] at hx
  | raised e s' => rwa [hxs] at hx
  | exhausted s' => rwa [hxs] at hx
  | escaped f s' =>
    rw [hxs] at hx
    cases f with
    | endlessNesting => exact hf s' hx
    | _ => exact hx

end Action
end Dartlet
