import Dartlet.Proofs.Evaluation.Interference
import Dartlet.Proofs.Evaluation.Scopes

/-!
# Scopes inside scopes

Every scope is inside an older one, and every function belongs to a scope that is there: so it is when programs begin,
and so every run leaves it, because it could not tell whether there is one more scope that nothing leads to. The way
outward from a scope is then one of ever older scopes, and of two scopes that are inside the same older one, at most one
is on it. What is bound in the other one is out of sight.
-/

namespace Dartlet

open Dartlet.Syntax (Expr Stmt)

set_option linter.unusedSectionVars false

variable [Host]

namespace Comparison

variable {s t : Store}

/-- The comparison of runs of which the second has one more scope from the beginning. -/
def spacing (start : Nat) : Comparison := concealing { Shifts.stay with scope := ⟨start, 1⟩ } (fun _ => false) true

/-- All constructs, in scopes that are there. -/
def somewhere (start : Nat) : (spacing start).Manner :=
  unmentioning { Shifts.stay with scope := ⟨start, 1⟩ } (fun _ => false) true

theorem agrees_spacing (start level : Nat) :
    (spacing start).Agrees (somewhere start) (interpreter level) (interpreter level) :=
  agrees_unmentioning level

theorem keeps_scopes (start : Nat) (K : Value → Prop) : (spacing start).shifts.Keeps K := by
  intro v _
  have hstay := v.shift_stay
  cases v <;> exact hstay

/-- A store whose scopes are nested runs in parallel with the one that has one more scope. -/
theorem parallel_spacing (hs : s.Nested) :
    (spacing s.scopes.size).Parallel s { s with scopes := s.scopes ++ #[⟨none, [], none⟩] } := by
  have hself {α : Type} (xs : Array α) : Corresponds .stay Eq xs xs := corresponds_self fun _ _ => rfl
  have hwithin : Store.Within (spacing s.scopes.size).shifts s { s with scopes := s.scopes ++ #[⟨none, [], none⟩] } :=
    ⟨corresponds_append s.scopes #[⟨none, [], none⟩], hself _, hself _, hself _, hself _, hself _, hself _, hself _, hself _,
      rfl, rfl, rfl⟩
  exact tables_within hwithin (keeps_scopes _ _) (s.holdsOnly_of_forall (known_all rfl rfl rfl s))
    (fun _ ha => Shift.apply_of_lt _ ha) (fun _ => hs) rfl (fun _ _ _ => rfl) (fun _ => rfl) rfl rfl rfl

theorem Parallel.nested {start : Nat} (h : (spacing start).Parallel s t) : s.Nested := h.ordered Nat.one_ne_zero

end Comparison

/-! ### All runs -/

namespace Store.Nested

open Comparison

variable {s t : Store}

theorem initial : Store.initial.Nested := by
  refine ⟨fun a p hp => ?_, fun f hf => absurd hf (Array.not_mem_empty f)⟩
  have hnone : (Store.initial.scope a).parent = none := by cases a <;> rfl
  rw [hnone] at hp
  cases hp

theorem eval (hs : s.Nested) {c : Context} (hc : c.scope < s.scopes.size) (level : Nat) (x : Expr) :
    ((interpreter level).eval c x s).store.Nested :=
  (((agrees_spacing _ level).eval (fun _ _ => rfl) (fun _ => hc) (parallel_spacing hs)).parallel rfl).nested

theorem exec (hs : s.Nested) {c : Context} (hc : c.scope < s.scopes.size) (level : Nat) (x : Stmt) :
    ((interpreter level).exec c x s).store.Nested :=
  (((agrees_spacing _ level).exec (fun _ _ => rfl) (fun _ => hc) (parallel_spacing hs)).parallel rfl).nested

theorem call (hs : s.Nested) (level depth : Nat) (f : Value) (arguments : List Value) :
    ((interpreter level).call depth f arguments s).store.Nested := by
  have hknown (v : Value) : v.Known ((spacing s.scopes.size).Known s) := v.known_of_forall (known_all rfl rfl rfl s)
  exact (((agrees_spacing _ level).call (hknown f) (fun v _ => hknown v) (parallel_spacing hs)).parallel rfl).nested

theorem runMain (hs : s.Nested) (hroot : rootScope < s.scopes.size) (source : String) (arguments : List String) :
    (runMain source arguments s).store.Nested :=
  (concludes_runMain (agrees_spacing s.scopes.size levelLimit) rfl (Shift.apply_of_lt _ hroot) (fun _ => hroot)
    (fun _ _ _ _ => rfl) arguments (parallel_spacing hs) rfl).parallel.nested

end Store.Nested

/-! ### The way outward -/

namespace Store

variable {s t u : Store} {added : Address → String → Prop}

theorem Extends.mono (h : s.Extends t added) {more : Address → String → Prop} (hmore : ∀ a n, added a n → more a n) :
    s.Extends t more := by
  refine ⟨h.size, h.parent, fun a ha => ?_⟩
  obtain ⟨new, hnames, hnew⟩ := h.names a ha
  exact ⟨new, hnames, fun n hn => hmore a n (hnew n hn)⟩

theorem Extends.trans (h : s.Extends t added) (h' : t.Extends u added) : s.Extends u added := by
  refine ⟨Nat.le_trans h.size h'.size, fun a ha => ?_, fun a ha => ?_⟩
  · rw [h'.parent a (Nat.lt_of_lt_of_le ha h.size), h.parent a ha]
  · obtain ⟨new, hnames, hnew⟩ := h.names a ha
    obtain ⟨more, hnames', hmore⟩ := h'.names a (Nat.lt_of_lt_of_le ha h.size)
    refine ⟨new ++ more, by rw [hnames', hnames, List.append_assoc], fun n hn => ?_⟩
    exact (List.mem_append.mp hn).elim (hnew n) (hmore n)

/-- The first so many scopes lead to none but each other. -/
def ClosedUpTo (s : Store) (n : Nat) : Prop := ∀ a p, a < n → (s.scope a).parent = some p → p < n

/-- The scopes of a nested store lead to none but each other, whatever is added later. -/
theorem Extends.closedUpTo (h : s.Extends t added) (hs : s.Descends) : t.ClosedUpTo s.scopes.size := by
  intro a p ha hp
  rw [h.parent a ha] at hp
  exact Nat.lt_trans (hs a p hp) ha

theorem ClosedUpTo.of_mem_chainFrom {n : Nat} (h : s.ClosedUpTo n) {d a : Address} (hd : d < n) {limit : Nat}
    (ha : a ∈ s.chainFrom limit d) : a < n := by
  induction limit generalizing d with
  | zero => exact absurd ha List.not_mem_nil
  | succ limit ih =>
    rw [chainFrom] at ha
    cases hparent : (s.scope d).parent with
    | none =>
      rw [hparent] at ha
      exact List.mem_singleton.mp ha ▸ hd
    | some p =>
      rw [hparent] at ha
      rcases List.mem_cons.mp ha with rfl | ha
      · exact hd
      · exact ih (h d p hd hparent) ha

/-- Of two scopes inside the same older one, at most one is on the way outward from a scope. -/
theorem ClosedUpTo.not_mem_chainFrom {n : Nat} (h : s.ClosedUpTo n) {parent a b d : Address} (hparent : parent < n)
    (ha : (s.scope a).parent = some parent) (hb : (s.scope b).parent = some parent) (han : n ≤ a) (hbn : n ≤ b)
    (hab : a ≠ b) {limit : Nat} (hmem : b ∈ s.chainFrom limit d) : a ∉ s.chainFrom limit d := by
  have hnew {x limit : Nat} (hx : n ≤ x) : x ∉ s.chainFrom limit parent :=
    fun hmem => absurd (h.of_mem_chainFrom hparent hmem) (Nat.not_lt.mpr hx)
  induction limit generalizing d with
  | zero => exact List.not_mem_nil
  | succ limit ih =>
    rw [chainFrom] at hmem ⊢
    cases hd : (s.scope d).parent with
    | none =>
      rw [hd] at hmem
      rw [List.mem_singleton.mp hmem] at hb
      exact fun hmem' => hab (by rw [List.mem_singleton.mp hmem', List.mem_singleton.mp hmem])
    | some p =>
      rw [hd] at hmem
      simp only [List.mem_cons, not_or]
      rcases List.mem_cons.mp hmem with rfl | htail
      · obtain rfl : parent = p := Option.some.inj (hb.symm.trans hd)
        exact ⟨hab, hnew han⟩
      · refine ⟨?_, ih htail⟩
        rintro rfl
        obtain rfl : parent = p := Option.some.inj (ha.symm.trans hd)
        exact hnew hbn htail

theorem scope_declare_of_ne {a b : Address} (h : a ≠ b) (name : String) (v : Value) :
    (s.declare a name v).scope b = s.scope b := by
  simp [declare, scope, Array.getElem?_modify, h]

theorem mem_chainFrom_of_ownerFrom? {name : String} {limit : Nat} {d owner : Address}
    (h : s.ownerFrom? name limit d = some owner) : owner ∈ s.chainFrom limit d := by
  induction limit generalizing d with
  | zero => cases h
  | succ limit ih =>
    rw [ownerFrom?] at h
    rw [chainFrom]
    split at h
    · obtain rfl := Option.some.inj h
      cases (s.scope d).parent <;> exact List.mem_cons_self
    · cases hd : (s.scope d).parent with
      | none => simp [hd] at h
      | some p => exact List.mem_cons_of_mem d (ih (by simpa [hd] using h))

theorem ownerFrom?_declare {a d : Address} {limit : Nat} (h : a ∉ s.chainFrom limit d) (name : String) (v : Value)
    (other : String) : (s.declare a name v).ownerFrom? other limit d = s.ownerFrom? other limit d := by
  induction limit generalizing d with
  | zero => rfl
  | succ limit ih =>
    have hne : a ≠ d := by
      rintro rfl
      rw [chainFrom] at h
      cases hd : (s.scope a).parent <;> simp [hd] at h
    rw [ownerFrom?, ownerFrom?, scope_declare_of_ne hne]
    split
    · rfl
    · cases hd : (s.scope d).parent with
      | none => rfl
      | some p =>
        refine ih fun hmem => h ?_
        rw [chainFrom, hd]
        exact List.mem_cons_of_mem d hmem

/-- What is bound in a scope is not seen from where no way leads to it. -/
theorem lookup?_declare {a d : Address} (h : a ∉ s.chain d) (name : String) (v : Value) (other : String) :
    (s.declare a name v).lookup? d other = s.lookup? d other := by
  have hsize : (s.declare a name v).scopes.size = s.scopes.size := by simp [declare]
  have howner : (s.declare a name v).owner? d other = s.owner? d other := by
    rw [owner?, hsize]
    exact ownerFrom?_declare h name v other
  rw [lookup?, lookup?, howner]
  cases hd : s.owner? d other with
  | none => rfl
  | some owner =>
    have hne : a ≠ owner := by
      rintro rfl
      exact h (mem_chainFrom_of_ownerFrom? hd)
    exact congrArg (fun x : Scope => x.find? other) (scope_declare_of_ne hne name v)

end Store

end Dartlet
