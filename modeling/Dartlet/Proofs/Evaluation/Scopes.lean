import Dartlet.Proofs.Evaluation.Runs

/-!
# What runs add to scopes

A run never changes the scope around a scope, nor takes a name away or moves it. Names are added only
to the scope in which a statement runs, and only those that the statement declares there: evaluating
an expression, calling a function, executing a block or a whole program adds none to any scope that
was there before.
-/

namespace Dartlet

open Dartlet.Action
open Dartlet.Syntax (Expr Stmt)

set_option linter.unusedSectionVars false

variable [Host]

/-- The names that a statement may declare in the scope where it runs: its own, and those of the
statements inside it that run in the same scope. -/
inductive Syntax.Stmt.Declares : Stmt → String → Prop
  | here {x : Stmt} {name : String} : name ∈ x.names → Declares x name
  | inside {x y : Stmt} {name : String} : y ∈ x.openParts → Declares y name → Declares x name

namespace Scope

theorem map_put (name : String) (v : Value) (bindings : List (String × Value)) :
    (put name v bindings).map Prod.fst =
      if name ∈ bindings.map Prod.fst then bindings.map Prod.fst else bindings.map Prod.fst ++ [name] := by
  induction bindings with
  | nil => simp [put]
  | cons b rest ih =>
    by_cases h : b.1 = name
    · simp [put, h]
    · have h' : name ≠ b.1 := fun hb => h hb.symm
      simp only [put, beq_iff_eq, h, if_false, List.map_cons, ih, List.mem_cons, h', false_or]
      split <;> simp

/-- Binding a name adds it at the end, unless it is there already. -/
theorem names_bind (scope : Scope) (name : String) (v : Value) :
    (scope.bind name v).names = if name ∈ scope.names then scope.names else scope.names ++ [name] :=
  map_put name v scope.bindings

theorem mem_names_of_binds {scope : Scope} {name : String} (h : scope.binds name = true) : name ∈ scope.names := by
  simp only [binds, List.any_eq_true, beq_iff_eq] at h
  obtain ⟨b, hb, rfl⟩ := h
  exact List.mem_map_of_mem hb

end Scope

namespace Store

theorem scope_modify (s : Store) (a b : Address) (f : Scope → Scope) (hb : b < s.scopes.size) :
    ({ s with scopes := s.scopes.modify a f } : Store).scope b = if a = b then f (s.scope b) else s.scope b := by
  simp only [scope, Array.getElem?_modify, Array.getElem?_eq_getElem hb]
  split <;> rfl

/-- The scope that owns a name binds it. -/
theorem binds_of_ownerFrom? {s : Store} {name : String} {limit : Nat} {a owner : Address}
    (h : s.ownerFrom? name limit a = some owner) : (s.scope owner).binds name = true := by
  induction limit generalizing a with
  | zero => cases h
  | succ limit ih =>
    simp only [ownerFrom?] at h
    split at h
    · cases h
      assumption
    · split at h
      · cases h
      · exact ih h

/-- Every scope of a store is in another one, around it the same scope and in it the same names in
the same order, followed by names of those that may be added. -/
structure Extends (s t : Store) (added : Address → String → Prop) : Prop where
  size : s.scopes.size ≤ t.scopes.size
  parent : ∀ a < s.scopes.size, (t.scope a).parent = (s.scope a).parent
  names : ∀ a < s.scopes.size, ∃ new, (t.scope a).names = (s.scope a).names ++ new ∧ ∀ n ∈ new, added a n

namespace Extends

variable {s t : Store} {added : Address → String → Prop}

theorem refl (s : Store) (added : Address → String → Prop) : s.Extends s added :=
  ⟨Nat.le_refl _, fun _ _ => rfl, fun _ _ => ⟨[], by simp, by simp⟩⟩

/-- Only the scopes count. -/
theorem of_scopes_eq {u : Store} (h : s.Extends t added) (hu : u.scopes = t.scopes) : s.Extends u added := by
  have hscope (a : Address) : u.scope a = t.scope a := by simp only [scope, hu]
  exact ⟨hu ▸ h.size, fun a ha => hscope a ▸ h.parent a ha, fun a ha => hscope a ▸ h.names a ha⟩

/-- A change to one scope that leaves the scope around it alone and adds at most names that may be
added. -/
theorem modify (h : s.Extends t added) {a : Address} {f : Scope → Scope}
    (hparent : ∀ scope, (f scope).parent = scope.parent)
    (hnames : a < s.scopes.size → (f (t.scope a)).names = (t.scope a).names ∨
      ∃ n, (f (t.scope a)).names = (t.scope a).names ++ [n] ∧ added a n) :
    s.Extends { t with scopes := t.scopes.modify a f } added := by
  refine ⟨by simpa using h.size, fun b hb => ?_, fun b hb => ?_⟩
  · rw [t.scope_modify a b f (Nat.lt_of_lt_of_le hb h.size)]
    split
    · rw [hparent, h.parent b hb]
    · exact h.parent b hb
  · rw [t.scope_modify a b f (Nat.lt_of_lt_of_le hb h.size)]
    obtain ⟨new, hold, hnew⟩ := h.names b hb
    split
    · subst b
      rcases hnames hb with hsame | ⟨n, hn, hadded⟩
      · exact ⟨new, by rw [hsame, hold], hnew⟩
      · refine ⟨new ++ [n], by rw [hn, hold, List.append_assoc], fun m hm => ?_⟩
        rcases List.mem_append.mp hm with hm | hm
        · exact hnew m hm
        · exact List.mem_singleton.mp hm ▸ hadded
    · exact ⟨new, hold, hnew⟩

theorem declare (h : s.Extends t added) {a : Address} {name : String} (v : Value)
    (hname : a < s.scopes.size → name ∈ (t.scope a).names ∨ added a name) :
    s.Extends (t.declare a name v) added := by
  refine h.modify (fun _ => rfl) (fun ha => ?_)
  rw [Scope.names_bind]
  split
  · exact .inl rfl
  · rename_i hnew
    exact .inr ⟨name, rfl, (hname ha).resolve_left hnew⟩

theorem enter (h : s.Extends t added) (parent : Address) : s.Extends (t.enter parent).2 added := by
  have hscope (a : Address) (ha : a < s.scopes.size) : (t.enter parent).2.scope a = t.scope a := by
    have hat : a < t.scopes.size := Nat.lt_of_lt_of_le ha h.size
    simp [Store.enter, addScope, scope, Array.getElem?_push_lt hat, Array.getElem?_eq_getElem hat]
  refine ⟨?_, fun a ha => ?_, fun a ha => ?_⟩
  · simpa [Store.enter, addScope] using Nat.le_succ_of_le h.size
  · rw [hscope a ha, h.parent a ha]
  · rw [hscope a ha]
    exact h.names a ha

/-- If no name may be added to a scope, it keeps its list of names. -/
theorem names_eq (h : s.Extends t added) {a : Address} (ha : a < s.scopes.size) (hnone : ∀ n, ¬added a n) :
    (t.scope a).names = (s.scope a).names := by
  obtain ⟨new, hold, hnew⟩ := h.names a ha
  cases new with
  | nil => simpa using hold
  | cons n rest => exact absurd (hnew n List.mem_cons_self) (hnone n)

end Extends
end Store

/-- The discipline of a run that begins with some store and may add certain names to its scopes. The
scopes made since are free. -/
def Discipline.scoping (s : Store) (added : Address → String → Prop) : Discipline where
  Inv t := s.Extends t added
  Own a := s.scopes.size ≤ a
  Good _ := True
  Admits a x := s.scopes.size ≤ a ∨ ∀ n, x.Declares n → added a n
  Ends _ _ := True
  stable := ⟨fun hdata h => h.of_scopes_eq hdata.scopes, fun _ h => h.of_scopes_eq rfl⟩
  good_part _ _ := trivial
  good_closure _ _ := trivial
  raises _ _ h := h.of_scopes_eq rfl
  closing _ _ h := h.of_scopes_eq rfl
  entering parent h := ⟨h.size, h.enter parent⟩
  declaring name v ha h := h.declare v (fun hlt => absurd hlt (Nat.not_lt.mpr ha))
  assigning {t u a name v} hu h := by
    obtain ⟨owner, howner, rfl⟩ := Option.map_eq_some_iff.mp hu
    exact h.declare v (fun _ => .inl (Scope.mem_names_of_binds (Store.binds_of_ownerFrom? howner)))
  marking error ha h := h.modify (fun _ => rfl) (fun hlt => absurd hlt (Nat.not_lt.mpr ha))
  admits_own _ ha := .inl ha
  admits_part ha hy := ha.imp_right (fun h n hn => h n (.inside hy hn))
  admits_name v ha hname h := h.declare v (fun hlt => .inr (ha.resolve_left (Nat.not_le.mpr hlt) _ (.here hname)))
  ends_normal _ := trivial
  ends_returning _ _ := trivial
  ends_breaking _ := trivial
  ends_continuing _ := trivial
  ends_part _ _ := trivial
  jumping _ _ _ h := h.of_scopes_eq rfl

/-- A store in which every scope of another one is inside the same scope and has the same names in
the same order. -/
structure Store.SameNames (s t : Store) : Prop where
  size : s.scopes.size ≤ t.scopes.size
  parent : ∀ a < s.scopes.size, (t.scope a).parent = (s.scope a).parent
  names : ∀ a < s.scopes.size, (t.scope a).names = (s.scope a).names

theorem Store.Extends.sameNames {s t : Store} (h : s.Extends t (fun _ _ => False)) : s.SameNames t :=
  ⟨h.size, h.parent, fun _ ha => h.names_eq ha (fun _ hn => hn)⟩

namespace Discipline

variable {s : Store}

theorem scoping_exec (level : Nat) (c : Context) (x : Stmt) :
    s.Extends ((interpreter level).exec c x s).store (fun a n => a = c.scope ∧ x.Declares n) := by
  let d := scoping s (fun a n => a = c.scope ∧ x.Declares n)
  have h : Keeps d.Inv ((interpreter level).exec c x) :=
    ((d.obeyed level).exec c x trivial (.inr (fun n hn => ⟨rfl, hn⟩))).keeps
  exact (h s (.refl s _)).store

/-- A statement that runs in a scope of its own adds no name to any scope that was there before. -/
theorem scoping_enter {e : Engine} (h : (scoping s (fun _ _ => False)).Obeyed e) (parent : Address)
    (depth : Nat) (x : Stmt) :
    Keeps (scoping s (fun _ _ => False)).Inv (do
      let scope ← enterScope parent
      e.exec ⟨scope, depth⟩ x) := by
  refine (enterScope_ensures _ parent).bind (fun scope hscope => ?_)
  exact (h.exec ⟨scope, depth⟩ x trivial (.inl hscope)).keeps

theorem scoping_block (level : Nat) (c : Context) (l : Syntax.Location) (xs : List Stmt) :
    s.SameNames ((interpreter level).exec c (.block l xs) s).store := by
  have hnone (n : String) : ¬(Stmt.block l xs).Declares n := by
    rintro (hn | ⟨hy, -⟩)
    · exact List.not_mem_nil hn
    · exact List.not_mem_nil hy
  have h := scoping_exec (s := s) level c (.block l xs)
  exact ⟨h.size, h.parent, fun a ha => h.names_eq ha (fun n hn => hnone n hn.2)⟩

theorem scoping_unit (source : String) : s.SameNames (runUnit source s).store := by
  refine Store.Extends.sameNames ?_
  refine Run.store_reading (I := (scoping s (fun _ _ => False)).Inv) (.refl s _) (fun unit _ => ?_)
  refine (enterScope_ensures _ rootScope).bind (fun scope hscope => ?_)
  refine Ensures.bind ((obeyed _ levelLimit).exec ⟨scope, 0⟩ unit trivial (.inl hscope)) (fun _ _ => ?_)
  exact keeps_pure scope

end Discipline

/-- However a run ends, expressions and calls leave the names of all scopes that were there before
as they are; a statement adds names only to the scope where it runs, after the old ones and only such
as it declares there; a block, a statement in a scope of its own and a whole program add none to any
scope that was there before. The scope around a scope never changes. -/
theorem scopes_gain_only_declared_names (level : Nat) (c : Context) (s : Store) :
    (∀ x : Expr, s.SameNames ((interpreter level).eval c x s).store) ∧
    (∀ (f : Value) (arguments : List Value), s.SameNames ((interpreter level).call c.depth f arguments s).store) ∧
    (∀ x : Stmt, s.Extends ((interpreter level).exec c x s).store (fun a n => a = c.scope ∧ x.Declares n)) ∧
    (∀ (l : Syntax.Location) (xs : List Stmt), s.SameNames ((interpreter level).exec c (.block l xs) s).store) ∧
    (∀ (parent : Address) (x : Stmt), s.SameNames ((do
      let scope ← enterScope parent
      (interpreter level).exec ⟨scope, c.depth⟩ x) s).store) ∧
    ∀ source : String, s.SameNames (runUnit source s).store := by
  have h := Discipline.obeyed (Discipline.scoping s (fun _ _ => False)) level
  refine ⟨fun x => ?_, fun f arguments => ?_, fun x => Discipline.scoping_exec level c x,
    fun l xs => Discipline.scoping_block level c l xs, fun parent x => ?_, Discipline.scoping_unit⟩
  · exact (h.eval c x trivial s (.refl s _)).store.sameNames
  · exact (h.call c.depth f arguments s (.refl s _)).store.sameNames
  · exact (Discipline.scoping_enter h parent c.depth x s (.refl s _)).store.sameNames

end Dartlet
