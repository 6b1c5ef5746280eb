import Dartlet.Eval.Engine
import Dartlet.Proofs.Parallel.Operators

/-!
# Actions in parallel

Two actions run alike if, begun in parallel stores, they end the same way, with corresponding results
in parallel stores. The rules below take two actions apart at once, the way the evaluator puts them
together.
-/

namespace Dartlet

open Dartlet.Action

set_option linter.unusedSectionVars false

variable [Host]

namespace Comparison

variable (w : Comparison)

/-- An error that is on its way out: it has its place, or it is new, has none and none is noted. -/
def Pending (s s' t' : Store) (a : Address) : Prop :=
  w.placed = true → (∃ e, s'.errors[a]? = some e ∧ e.HasPlace) ∨
    (s.errors.size ≤ a ∧ ∃ e e', s'.errors[a]? = some e ∧ t'.errors[w.shifts.error.apply a]? = some e' ∧
      e.located = false ∧ e'.note? = none)

/-- The failures outside the language that may come up: any inside the code of the host, and else
those that escape. -/
def MayFail (inside : Bool) (f : HostFailure) : Prop := inside = true ∨ f.isEscaping = true

/-- Two outcomes of the same kind, with corresponding results. -/
inductive Matches {α β : Type} (inside : Bool) (P : Store → Store → Address → Prop)
    (Q : Store → Store → α → β → Prop) (s t : Store) : Outcome α → Outcome β → Prop
  | done {a : α} {b : β} {s' t' : Store} : Q s' t' a b → w.Follows s t s' t' →
    Matches inside P Q s t (.done a s') (.done b t')
  | raised {e : Address} {s' t' : Store} : P s' t' e → w.Follows s t s' t' →
    Matches inside P Q s t (.raised e s') (.raised (w.shifts.error.apply e) t')
  | escaped {f : HostFailure} {s' t' : Store} : MayFail inside f → w.Follows s t s' t' →
    Matches inside P Q s t (.escaped f s') (.escaped f t')
  | exhausted {s' t' : Store} : w.Follows s t s' t' →
    Matches inside P Q s t (.exhausted s') (.exhausted t')
  | gaveUp {s' : Store} {o' : Outcome β} : w.lenient = true → Matches inside P Q s t (.exhausted s') o'

/-- Two actions that run alike from two stores. -/
def Alike {α β : Type} (inside : Bool) (Q : Store → Store → α → β → Prop) (s t : Store) (x : Action α) (y : Action β) :
    Prop :=
  w.Parallel s t → w.Matches inside (w.Pending s) Q s t (x s) (y t)

/-- Two constructs that run alike from two stores: programs may hold the errors that leave them. -/
def Settled {α β : Type} (Q : Store → Store → α → β → Prop) (s t : Store) (x : Action α) (y : Action β) : Prop :=
  w.Parallel s t → w.Matches false (fun s' _ a => w.Known s' (.error a)) Q s t (x s) (y t)

/-- Two actions that run alike and change nothing unless they fail. -/
def Reads {α β : Type} (inside : Bool) (R : α → β → Prop) (s t : Store) (x : Action α) (y : Action β) : Prop :=
  w.Parallel s t → (∃ a b, R a b ∧ x s = .done a s ∧ y t = .done b t) ∨
    w.Matches inside (w.Pending s) (fun _ _ _ _ => False) s t (x s) (y t)

/-- Corresponding values at the end of a run. -/
structure Val (s _ : Store) (v v' : Value) : Prop where
  same : v' = v.shift w.shifts
  known : v.Known (w.Known s)

variable {w} {α β γ δ : Type} {inside : Bool} {s t : Store} {x : Action α} {y : Action β}
  {Q Q' : Store → Store → α → β → Prop} {R : α → β → Prop}

/-! ### Outcomes -/

theorem Pending.of_known {s' t' : Store} {a : Address} (h : w.Known s' (.error a)) : w.Pending s s' t' a :=
  fun hw => .inl (h hw)

theorem Pending.of_later {s₁ s' t' : Store} {a : Address} (h : w.Pending s₁ s' t' a) (hs : w.Later s s₁) :
    w.Pending s s' t' a := by
  intro hw
  rcases h hw with hplace | ⟨hsize, hnew⟩
  · exact .inl hplace
  · have hle := hs.errors_size
    exact .inr ⟨Nat.le_trans hle hsize, hnew⟩

/-- An error that is on its way out stays so while something else runs. -/
theorem Pending.follow {s₁ t₁ s' t' : Store} {a : Address} (h : w.Pending s s₁ t₁ a) (hf : w.Follows s₁ t₁ s' t') :
    w.Pending s s' t' a := by
  intro hw
  rcases h hw with hplace | ⟨hsize, e, e', he, he', hlocated, hnote⟩
  · exact .inl (hf.first.known (.error a) (fun _ => hplace) hw)
  · obtain ⟨e₁, he₁, hsame⟩ := hf.first.errors a e he
    obtain ⟨e₂, he₂, hsame'⟩ := hf.second.errors _ e' he'
    exact .inr ⟨hsize, e₁, e₂, he₁, he₂, (hsame hw).located.trans hlocated, (hsame' hw).note.trans hnote⟩

theorem MayFail.of_escaping {f : HostFailure} (h : MayFail false f) : MayFail inside f := .inr (h.resolve_left nofun)

namespace Matches

variable {P P' : Store → Store → Address → Prop} {o : Outcome α} {o' : Outcome β}

theorem mono (h : w.Matches inside P Q s t o o') (hP : ∀ s' t' a, P s' t' a → P' s' t' a)
    (hQ : ∀ s' t' a b, w.Follows s t s' t' → Q s' t' a b → Q' s' t' a b) : w.Matches inside P' Q' s t o o' := by
  cases h with
  | done hq hf => exact .done (hQ _ _ _ _ hf hq) hf
  | raised hp hf => exact .raised (hP _ _ _ hp) hf
  | escaped hfail hf => exact .escaped hfail hf
  | exhausted hf => exact .exhausted hf
  | gaveUp hw => exact .gaveUp hw

/-- What happens outside the code of the host may happen inside. -/
theorem weaken (h : w.Matches false P Q s t o o') : w.Matches inside P Q s t o o' := by
  cases h with
  | done hq hf => exact .done hq hf
  | raised hp hf => exact .raised hp hf
  | escaped hfail hf => exact .escaped hfail.of_escaping hf
  | exhausted hf => exact .exhausted hf
  | gaveUp hw => exact .gaveUp hw

/-- What happened before counts too. -/
theorem after {s₁ t₁ : Store} (h : w.Matches inside (w.Pending s₁) Q s₁ t₁ o o') (hf : w.Follows s t s₁ t₁) :
    w.Matches inside (w.Pending s) Q s t o o' := by
  cases h with
  | done hq hf' => exact .done hq (hf.trans hf')
  | raised hp hf' => exact .raised (hp.of_later hf.first) (hf.trans hf')
  | escaped hfail hf' => exact .escaped hfail (hf.trans hf')
  | exhausted hf' => exact .exhausted (hf.trans hf')
  | gaveUp hw => exact .gaveUp hw

/-- Where the first actions end alike, what comes next has to end alike only if both are done. -/
theorem bind {f : α → Action γ} {g : β → Action δ} {S : Store → Store → γ → δ → Prop}
    (h : w.Matches inside P Q s t (x s) (y t))
    (hf : ∀ s' t' a b, w.Follows s t s' t' → Q s' t' a b → w.Matches inside P S s t (f a s') (g b t')) :
    w.Matches inside P S s t (Action.bind x f s) (Action.bind y g t) := by
  unfold Action.bind
  generalize x s = o at h ⊢
  generalize y t = o' at h ⊢
  cases h with
  | done hq hfollows => exact hf _ _ _ _ hfollows hq
  | raised hp hfollows => exact .raised hp hfollows
  | escaped hfail hfollows => exact .escaped hfail hfollows
  | exhausted hfollows => exact .exhausted hfollows
  | gaveUp hw => exact .gaveUp hw

/-- The stores that are left behind run in parallel. -/
theorem parallel (hw : w.lenient = false) (h : w.Matches inside P Q s t o o') : w.Parallel o.store o'.store := by
  cases h with
  | done _ hf => exact hf.parallel
  | raised _ hf => exact hf.parallel
  | escaped _ hf => exact hf.parallel
  | exhausted hf => exact hf.parallel
  | gaveUp hw' => exact absurd hw' (by simp [hw])

end Matches

/-! ### Putting actions together -/

theorem Settled.alike (h : w.Settled Q s t x y) : w.Alike inside Q s t x y :=
  fun hst => ((h hst).mono (fun _ _ _ => Pending.of_known) (fun _ _ _ _ _ hq => hq)).weaken

theorem Alike.mono (h : w.Alike inside Q s t x y)
    (hQ : ∀ s' t' a b, w.Follows s t s' t' → Q s' t' a b → Q' s' t' a b) : w.Alike inside Q' s t x y :=
  fun hst => (h hst).mono (fun _ _ _ hp => hp) hQ

theorem Alike.weaken (h : w.Alike false Q s t x y) : w.Alike inside Q s t x y := fun hst => (h hst).weaken

/-- What may be assumed of the stores at the beginning. -/
theorem Alike.of_parallel (h : w.Parallel s t → w.Alike inside Q s t x y) : w.Alike inside Q s t x y :=
  fun hst => h hst hst

theorem Alike.bind {f : α → Action γ} {g : β → Action δ} {S : Store → Store → γ → δ → Prop}
    (hx : w.Alike inside Q s t x y)
    (hf : ∀ s' t' a b, w.Follows s t s' t' → Q s' t' a b → w.Alike inside S s' t' (f a) (g b)) :
    w.Alike inside S s t (x >>= f) (y >>= g) := by
  intro hst
  exact (hx hst).bind fun s' t' a b hfollows hq => (hf s' t' a b hfollows hq hfollows.parallel).after hfollows

/-- The second action begins in the same stores. -/
theorem Reads.bind {f : α → Action γ} {g : β → Action δ} {S : Store → Store → γ → δ → Prop}
    (hx : w.Reads inside R s t x y) (hf : ∀ a b, R a b → w.Alike inside S s t (f a) (g b)) :
    w.Alike inside S s t (x >>= f) (y >>= g) := by
  intro hst
  change w.Matches inside (w.Pending s) S s t (Action.bind x f s) (Action.bind y g t)
  rcases hx hst with ⟨a, b, hab, ha, hb⟩ | h
  · unfold Action.bind
    rw [ha, hb]
    exact hf a b hab hst
  · exact h.bind fun _ _ _ _ _ hfalse => hfalse.elim

theorem Reads.alike (hx : w.Reads inside R s t x y) (hR : ∀ a b, R a b → Q s t a b) : w.Alike inside Q s t x y := by
  intro hst
  rcases hx hst with ⟨a, b, hab, ha, hb⟩ | h
  · rw [ha, hb]
    exact .done (hR a b hab) (.refl hst)
  · exact h.mono (fun _ _ _ hp => hp) (fun _ _ _ _ _ hfalse => hfalse.elim)

theorem Reads.of_parallel (h : w.Parallel s t → w.Reads inside R s t x y) : w.Reads inside R s t x y :=
  fun hst => h hst hst

/-- Two readings one after the other. -/
theorem Reads.then {f : α → Action γ} {g : β → Action δ} {S : γ → δ → Prop} (hx : w.Reads inside R s t x y)
    (hf : ∀ a b, R a b → w.Reads inside S s t (f a) (g b)) : w.Reads inside S s t (x >>= f) (y >>= g) := by
  intro hst
  change (∃ c d, S c d ∧ Action.bind x f s = .done c s ∧ Action.bind y g t = .done d t) ∨
    w.Matches inside _ _ s t (Action.bind x f s) (Action.bind y g t)
  rcases hx hst with ⟨a, b, hab, ha, hb⟩ | h
  · unfold Action.bind
    rw [ha, hb]
    exact hf a b hab hst
  · exact .inr (h.bind fun _ _ _ _ _ hfalse => hfalse.elim)

theorem reads_pure {a : α} {b : β} (h : R a b) : w.Reads inside R s t (pure a) (pure b) :=
  fun _ => .inl ⟨a, b, h, rfl, rfl⟩

theorem alike_pure {a : α} {b : β} (h : Q s t a b) : w.Alike inside Q s t (pure a) (pure b) :=
  fun hst => .done h (.refl hst)

theorem alike_get {f : Store → Action α} {g : Store → Action β} (h : w.Alike inside Q s t (f s) (g t)) :
    w.Alike inside Q s t (get >>= f) (get >>= g) := h

theorem alike_ite {p : Prop} [Decidable p] {x' : Action α} {y' : Action β} (h : p → w.Alike inside Q s t x y)
    (h' : ¬p → w.Alike inside Q s t x' y') : w.Alike inside Q s t (if p then x else x') (if p then y else y') := by
  split
  · exact h ‹p›
  · exact h' ‹¬p›

theorem reads_ite {p : Prop} [Decidable p] {x' : Action α} {y' : Action β} (h : p → w.Reads inside R s t x y)
    (h' : ¬p → w.Reads inside R s t x' y') : w.Reads inside R s t (if p then x else x') (if p then y else y') := by
  split
  · exact h ‹p›
  · exact h' ‹¬p›

/-! ### Failing -/

/-- What fails reads, too. -/
theorem Alike.reads (h : w.Alike inside (fun _ _ _ _ => False) s t x y) : w.Reads inside R s t x y :=
  fun hst => .inr (h hst)

theorem alike_fail {f : Fault} (hknown : f.Known (w.Known s)) (hhandled : w.handled = true → f ≠ .rethrowOutsideCatch) :
    w.Alike inside Q s t (fail f) (fail (f.shift w.shifts)) := by
  intro hst
  have htables := Tables.addError hst hknown hhandled
  have hfollows := htables.follows (later_addError s f) (later_addError t (f.shift w.shifts))
  have hraised : w.Matches inside (w.Pending s) Q s t (.raised s.errors.size (s.addError f).2)
      (.raised (w.shifts.error.apply s.errors.size) (t.addError (f.shift w.shifts)).2) := by
    refine .raised (fun _ => .inr ⟨Nat.le_refl _, { fault := f }, { fault := f.shift w.shifts }, ?_, ?_, rfl, rfl⟩) hfollows
    · exact Array.getElem?_push_size
    · rw [← hst.errors.fresh]
      exact Array.getElem?_push_size
  rw [← hst.errors.fresh] at hraised
  exact hraised

theorem alike_fail_closed {f : Fault} (hf : f.isClosed = true) : w.Alike inside Q s t (fail f) (fail f) := by
  have h : w.Alike inside Q s t (fail f) (fail (f.shift w.shifts)) :=
    alike_fail (Fault.known_of_isClosed hf) (fun _ => Fault.ne_of_isClosed hf)
  rwa [Fault.shift_of_isClosed w.shifts hf] at h

theorem alike_mismatch (m : Mismatch) : w.Alike inside Q s t (mismatch m) (mismatch m) := alike_fail_closed rfl

/-- A complaint whose wording depends on the store. -/
theorem alike_complaint {m n : Store → Mismatch} (h : w.Parallel s t → n t = m s) :
    w.Alike inside Q s t (fun s => mismatch (m s) s) (fun t => mismatch (n t) t) := by
  intro hst
  change w.Matches inside _ _ s t (mismatch (m s) s) (mismatch (n t) t)
  rw [h hst]
  exact alike_mismatch (m s) hst

theorem alike_raise {e : Address} (he : w.Known s (.error e)) :
    w.Alike inside Q s t (raise e) (raise (w.shifts.error.apply e)) :=
  fun hst => .raised (.of_known he) (.refl hst)

theorem alike_escape {f : HostFailure} (hf : MayFail inside f) : w.Alike inside Q s t (escape f) (escape f) :=
  fun hst => .escaped hf (.refl hst)

theorem alike_exhaust : w.Alike inside Q s t exhaust exhaust := fun hst => .exhausted (.refl hst)

/-- Where the first run gives up, the second may do anything. -/
theorem alike_gaveUp (hw : w.lenient = true) : w.Alike inside Q s t exhaust y := fun _ => .gaveUp hw

theorem settled_gaveUp (hw : w.lenient = true) : w.Settled Q s t exhaust y := fun _ => .gaveUp hw

theorem settled_exhaust : w.Settled Q s t exhaust exhaust := fun hst => .exhausted (.refl hst)

theorem reads_ofExcept {r : Except Trouble α} (h : Commonly r) :
    w.Reads inside (fun a b => r = .ok a ∧ a = b) s t (ofExcept r) (ofExcept r) := by
  cases r with
  | ok a => exact reads_pure ⟨rfl, rfl⟩
  | error f =>
    have hf := h f rfl
    cases f with
    | fault f => exact (alike_fail_closed hf).reads
    | failure f => exact (alike_escape (.inr hf)).reads

/-- Inside the code of the host any failure may come up. -/
theorem reads_ofExcept_inside {r : Except Trouble α} (h : Troubled (fun f => ∀ g, f = .fault g → g.isClosed = true) r) :
    w.Reads true (fun a b => r = .ok a ∧ a = b) s t (ofExcept r) (ofExcept r) := by
  cases r with
  | ok a => exact reads_pure ⟨rfl, rfl⟩
  | error f =>
    have hf := h f rfl
    cases f with
    | fault f => exact (alike_fail_closed (hf f rfl)).reads
    | failure f => exact (alike_escape (.inl rfl)).reads

/-! ### Changing the store -/

theorem alike_modify {f g : Store → Store} (h : w.Parallel s t → w.Follows s t (f s) (g t)) :
    w.Alike inside (fun _ _ _ _ => True) s t (modify f) (modify g) :=
  fun hst => .done trivial (h hst)

/-- A change of both stores, and what then runs. -/
theorem alike_change {f g : Store → Store} {x : Unit → Action α} {y : Unit → Action β}
    (h : w.Parallel s t → w.Follows s t (f s) (g t))
    (hxy : ∀ s' t', w.Follows s t s' t' → w.Alike inside Q s' t' (x ()) (y ())) :
    w.Alike inside Q s t (modify f >>= x) (modify g >>= y) :=
  (alike_modify h).bind (fun s' t' _ _ hf _ => hxy s' t' hf)

theorem alike_update {f : Store → α × Store} {g : Store → β × Store}
    (h : w.Parallel s t → Q (f s).2 (g t).2 (f s).1 (g t).1 ∧ w.Follows s t (f s).2 (g t).2) :
    w.Alike inside Q s t (update f) (update g) :=
  fun hst => .done (h hst).1 (h hst).2

theorem alike_newList {xs ys : Array Value} (h : w.Arrays (w.Known s) xs ys) :
    w.Alike inside w.Val s t (newList xs) (newList ys) :=
  alike_update (fun hst => ⟨⟨congrArg Value.list hst.lists.fresh, fun _ => by simp [Store.addList]⟩,
    (Tables.addList hst h).follows (.addList _) (.addList _)⟩)

theorem alike_newIterable {xs ys : List Value} (h : w.Values (w.Known s) xs ys) :
    w.Alike inside w.Val s t (newIterable xs) (newIterable ys) :=
  alike_update (fun hst =>
    ⟨⟨congrArg Value.iterable hst.iterables.fresh, trivial⟩, (Tables.addIterable hst h).follows_data rfl rfl⟩)

theorem alike_newSet {xs ys : List Value} (h : w.Values (w.Known s) xs ys) :
    w.Alike inside w.Val s t (newSet xs) (newSet ys) :=
  alike_update (fun hst => ⟨⟨congrArg Value.set hst.sets.fresh, trivial⟩, (Tables.addSet hst h).follows_data rfl rfl⟩)

theorem alike_newMap {xs ys : List (Value × Value)} (h : w.Pairs (w.Known s) xs ys) :
    w.Alike inside w.Val s t (newMap xs) (newMap ys) :=
  alike_update (fun hst => ⟨⟨congrArg Value.map hst.maps.fresh, trivial⟩, (Tables.addMap hst h).follows_data rfl rfl⟩)

theorem alike_newNative (name : String) (code : NativeCode) (hknown : code.Known (w.Known s))
    (hobjects : w.objects = false → code.usesObjects = false) :
    w.Alike inside w.Val s t (newNative name code) (newNative name (code.shift w.shifts)) :=
  alike_update (fun hst => ⟨⟨congrArg Value.native hst.natives.fresh, known_addNative s _⟩,
    (Tables.addNative hst ⟨rfl, hknown, hobjects⟩).follows (later_addNative s _) (later_addNative t _)⟩)

/-! ### The code of the host -/

theorem Alike.delegate (h : w.Alike true Q s t x y) : w.Alike inside Q s t (delegate x) (delegate y) := by
  intro hst
  have h' := h hst
  unfold Action.delegate
  generalize x s = o at h' ⊢
  generalize y t = o' at h' ⊢
  cases h' with
  | done hq hf => exact .done hq hf
  | raised hp hf => exact .raised hp hf
  | exhausted hf => exact .exhausted hf
  | gaveUp hw => exact .gaveUp hw
  | @escaped f s' t' hfail hf =>
    cases f with
    | endlessNesting => exact .escaped (.inr rfl) hf
    | _ => exact (alike_fail_closed rfl hf.parallel).after hf

theorem Alike.guardNesting (h : w.Alike inside Q s t x y) :
    w.Alike inside Q s t (guardNesting x) (guardNesting y) := by
  intro hst
  have h' := h hst
  unfold Action.guardNesting
  generalize x s = o at h' ⊢
  generalize y t = o' at h' ⊢
  cases h' with
  | done hq hf => exact .done hq hf
  | raised hp hf => exact .raised hp hf
  | exhausted hf => exact .exhausted hf
  | gaveUp hw => exact .gaveUp hw
  | @escaped f s' t' hfail hf =>
    cases f with
    | endlessNesting => exact (alike_fail_closed rfl hf.parallel).after hf
    | _ => exact .escaped hfail hf

/-! ### Places -/

/-- Both stores give the error its place at the same time. -/
theorem Tables.locate {K : Value → Prop} (h : w.Tables K s t) (hw : w.placed = false) (a : Address)
    (location : Syntax.Location) : w.Tables K (s.locate a location) (t.locate (w.shifts.error.apply a) location) := by
  cases location with
  | none => exact h
  | some p =>
    refine h.modifyError a (fun e e' _ hee' => ?_)
    simp only [hee'.located]
    split
    · exact hee'
    · exact { hee' with line := rfl, column := rfl, located := rfl, noted := by simp [hw], place := fun _ => ⟨trivial, trivial⟩ }

theorem later_locate (hw : w.placed = false) (s : Store) (a : Address) (location : Syntax.Location) :
    w.Later s (s.locate a location) := by
  cases location with
  | none => exact .refl s
  | some p => exact later_modifyError s a (fun hw' => absurd hw' (by simp [hw]))

end Comparison
end Dartlet
