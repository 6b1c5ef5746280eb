import Dartlet.Host.Standard
import Dartlet.Proofs.Evaluation.Scopes
import Dartlet.Proofs.Parallel.Limits

/-!
# Nearest bindings

The way outward from a scope leads through older scopes to one that is inside no other. A name stands for its
binding in the first scope on the way that has one. This is what looking the name up finds and what assigning
changes, and the new value is seen from just those scopes from where the name stands for the same binding.
-/

namespace Dartlet

open Dartlet.Action

set_option linter.unusedSectionVars false

section

variable [Host]

namespace Scope

variable (scope : Scope) (name other : String) (v : Value)

theorem binds_bind : (scope.bind name v).binds other = (name == other || scope.binds other) := by
  simp only [bind, binds]
  induction scope.bindings with
  | nil => simp [put]
  | cons b rest ih =>
    by_cases hb : b.1 = name
    · simp [put, hb]
    · simp [put, hb, ih, Bool.or_left_comm]

theorem find?_bind : (scope.bind name v).find? other = if name = other then some v else scope.find? other := by
  simp only [bind, find?]
  induction scope.bindings with
  | nil => by_cases hname : name = other <;> simp [put, hname]
  | cons b rest ih =>
    by_cases hb : b.1 = name
    · by_cases hname : name = other <;> simp [put, hb, hname]
    · rw [put, if_neg (by simpa using hb), List.find?_cons, List.find?_cons]
      by_cases hother : b.1 = other
      · have hne : name ≠ other := fun hname => hb (hother.trans hname.symm)
        simp [hother, hne]
      · rw [beq_eq_false_iff_ne.mpr hother]
        exact ih

end Scope

namespace Store

variable {s t : Store} {a b : Nat} {name other : String} {v : Value}

/-! ### The way outward -/

/-- The first scope on the way outward from a scope that binds a name. -/
def nearest? (s : Store) (a : Address) (name : String) : Option Address :=
  (s.chain a).find? (fun b => (s.scope b).binds name)

theorem ownerFrom?_eq_find? (limit : Nat) :
    s.ownerFrom? name limit a = (s.chainFrom limit a).find? (fun b => (s.scope b).binds name) := by
  induction limit generalizing a with
  | zero => rfl
  | succ limit ih =>
    rw [ownerFrom?, chainFrom]
    by_cases hbinds : (s.scope a).binds name = true
    · cases (s.scope a).parent <;> simp [hbinds]
    · cases (s.scope a).parent <;> simp [hbinds, ih]

theorem owner?_eq_nearest? : s.owner? a name = s.nearest? a name := ownerFrom?_eq_find? _

theorem lookup?_eq : s.lookup? a name = (s.nearest? a name).bind (fun b => (s.scope b).find? name) := by
  rw [lookup?, owner?_eq_nearest?]

/-- The way outward does not depend on the limit, if that is above the address. -/
theorem chainFrom_eq (hs : s.Descends) {m n : Nat} (hm : a < m) (hn : a < n) : s.chainFrom m a = s.chainFrom n a := by
  induction m generalizing n a with
  | zero => omega
  | succ m ih =>
    obtain ⟨n, rfl⟩ : ∃ k, n = k + 1 := ⟨n - 1, by omega⟩
    rw [chainFrom, chainFrom]
    cases hparent : (s.scope a).parent with
    | none => rfl
    | some p =>
      have hp := hs a p hparent
      exact congrArg (a :: ·) (ih (by omega) (by omega))

/-- The way outward begins in the scope itself and goes on in the one around it. -/
theorem chain_eq (hs : s.Descends) (ha : a < s.scopes.size) :
    s.chain a = a :: ((s.scope a).parent.map s.chain).getD [] := by
  obtain ⟨size, hsize⟩ : ∃ k, s.scopes.size = k + 1 := ⟨s.scopes.size - 1, by omega⟩
  have hfirst : s.chain a = s.chainFrom (size + 1) a := by rw [chain, hsize]
  rw [hfirst, chainFrom]
  cases hparent : (s.scope a).parent with
  | none => rfl
  | some p =>
    have hp := hs a p hparent
    exact congrArg (a :: ·) (chainFrom_eq hs (by omega) (by omega))

/-- Scopes that are inside the same ones have the same ways outward. -/
theorem chain_congr (hsize : t.scopes.size = s.scopes.size)
    (hparent : ∀ b, (t.scope b).parent = (s.scope b).parent) (a : Address) : t.chain a = s.chain a := by
  have hfrom (limit : Nat) (a : Address) : t.chainFrom limit a = s.chainFrom limit a := by
    induction limit generalizing a with
    | zero => rfl
    | succ limit ih => rw [chainFrom, chainFrom, hparent a, funext ih]
  rw [chain, hsize, hfrom, chain]

/-! ### One more binding -/

theorem scope_declare : (s.declare a name v).scope b =
    if a = b ∧ b < s.scopes.size then (s.scope b).bind name v else s.scope b := by
  by_cases hb : b < s.scopes.size
  · simp [declare, scope_modify, hb]
  · rw [scope_of_size_le (by simpa [declare] using hb), if_neg (fun h => hb h.2), scope_of_size_le (by omega)]

@[simp] theorem size_declare : (s.declare a name v).scopes.size = s.scopes.size := by simp [declare]

@[simp] theorem parent_declare : ((s.declare a name v).scope b).parent = (s.scope b).parent := by
  rw [scope_declare]
  split <;> rfl

theorem chain_declare : (s.declare a name v).chain b = s.chain b := chain_congr size_declare (fun _ => parent_declare) b

theorem binds_declare : ((s.declare a name v).scope b).binds other =
    ((decide (a = b ∧ b < s.scopes.size) && (name == other)) || (s.scope b).binds other) := by
  rw [scope_declare]
  by_cases h : a = b ∧ b < s.scopes.size
  · rw [if_pos h, Scope.binds_bind, decide_eq_true h, Bool.true_and]
  · rw [if_neg h, decide_eq_false h, Bool.false_and, Bool.false_or]

theorem nearest?_declare_of_ne (hne : name ≠ other) : (s.declare a name v).nearest? b other = s.nearest? b other := by
  have hbinds (c : Address) : ((s.declare a name v).scope c).binds other = (s.scope c).binds other := by
    simp [binds_declare, hne]
  rw [nearest?, chain_declare, funext hbinds, nearest?]

/-- Where a name is bound already, binding it again hides no other binding. -/
theorem nearest?_declare_of_binds (hbound : (s.scope a).binds name = true) :
    (s.declare a name v).nearest? b name = s.nearest? b name := by
  have hbinds (c : Address) : ((s.declare a name v).scope c).binds name = (s.scope c).binds name := by
    by_cases hc : a = c
    · simp [binds_declare, ← hc, hbound]
    · simp [binds_declare, hc]
  rw [nearest?, chain_declare, funext hbinds, nearest?]

/-- A new binding is no nearer than an old one that is found instead of it. -/
theorem nearest?_of_declare (hother : (s.declare a name v).nearest? b name ≠ some a) :
    s.nearest? b name = (s.declare a name v).nearest? b name := by
  rw [nearest?, chain_declare] at hother
  rw [nearest?, nearest?, chain_declare]
  generalize s.chain b = chain at hother ⊢
  induction chain with
  | nil => rfl
  | cons c rest ih =>
    rw [List.find?_cons] at hother
    rw [List.find?_cons, List.find?_cons]
    by_cases hc : a = c
    · subst hc
      cases hbound : ((s.declare a name v).scope a).binds name with
      | true => simp [hbound] at hother
      | false =>
        rw [hbound] at hother
        have hold : (s.scope a).binds name = false := by
          rw [binds_declare, Bool.or_eq_false_iff] at hbound
          exact hbound.2
        rw [hold]
        exact ih hother
    · have hsame : ((s.declare a name v).scope c).binds name = (s.scope c).binds name := by simp [binds_declare, hc]
      rw [hsame] at hother ⊢
      split at hother
      · rfl
      · exact ih hother

theorem binds_of_nearest? (h : s.nearest? a name = some b) : (s.scope b).binds name = true :=
  List.find?_some (p := fun b => (s.scope b).binds name) h

/-- A new value is seen where the scope in which it is bound is the first on the way outward that binds the name. -/
theorem lookup?_declare_eq : (s.declare a name v).lookup? b other =
    if other = name ∧ (s.declare a name v).nearest? b name = some a then some v else s.lookup? b other := by
  rw [lookup?_eq]
  by_cases hname : other = name
  · subst hname
    by_cases hnearest : (s.declare a other v).nearest? b other = some a
    · have ha : a < s.scopes.size := by
        refine Nat.lt_of_not_le fun hle => ?_
        have hbinds := binds_of_nearest? hnearest
        rw [scope_declare, if_neg (by omega), scope_of_size_le hle] at hbinds
        cases hbinds
      rw [if_pos ⟨rfl, hnearest⟩, hnearest, Option.bind_some, scope_declare, if_pos ⟨rfl, ha⟩, Scope.find?_bind, if_pos rfl]
    · rw [if_neg (fun h => hnearest h.2), lookup?_eq, nearest?_of_declare hnearest]
      refine Option.bind_congr fun c hc => ?_
      have hne : a ≠ c := fun hac => hnearest (hac ▸ hc)
      rw [scope_declare, if_neg (fun h => hne h.1)]
  · rw [if_neg (fun h => hname h.1), nearest?_declare_of_ne (Ne.symm hname), lookup?_eq]
    refine Option.bind_congr fun c _ => ?_
    rw [scope_declare]
    split
    · rw [Scope.find?_bind, if_neg (Ne.symm hname)]
    · rfl

/-- Where a name is bound already, binding it again changes no list of names. -/
theorem sameNames_declare (hbound : (s.scope a).binds name = true) : s.SameNames (s.declare a name v) := by
  refine ⟨Nat.le_of_eq size_declare.symm, fun b _ => parent_declare, fun b _ => ?_⟩
  rw [scope_declare]
  split
  · rename_i hb
    rw [← hb.1, Scope.names_bind, if_pos (Scope.mem_names_of_binds hbound)]
  · rfl

/-! ### Forests of scopes -/

/-- Stores whose scopes have been made by making scopes, inside no other scope or inside one that was there, with
names or without, and by declaring and assigning names in them, whatever else has been changed in between. -/
inductive Grown : Store → Prop
  | empty {s : Store} : s.scopes = #[] → Grown s
  | new {s : Store} (bindings : List (String × Value)) : Grown s →
    Grown ((s.addScope ⟨none, [], none⟩).2.declareAll s.scopes.size bindings)
  | child {s : Store} {parent : Address} (bindings : List (String × Value)) : Grown s → parent < s.scopes.size →
    Grown ((s.enter parent).2.declareAll s.scopes.size bindings)
  | declare {s : Store} (a : Address) (name : String) (v : Value) : Grown s → Grown (s.declare a name v)
  | update {s : Store} (a : Address) (name : String) (v : Value) : Grown s → Grown (assign a name v s).store
  | elsewhere {s t : Store} : Grown s → t.scopes = s.scopes → Grown t

theorem Descends.congr (hs : s.Descends) (hparent : ∀ a, (t.scope a).parent = (s.scope a).parent) : t.Descends :=
  fun a p hp => hs a p (by rw [← hparent, hp])

theorem Descends.declare (hs : s.Descends) : (s.declare a name v).Descends := hs.congr fun _ => parent_declare

theorem Descends.declareAll (hs : s.Descends) (bindings : List (String × Value)) : (s.declareAll a bindings).Descends := by
  induction bindings generalizing s with
  | nil => exact hs
  | cons b rest ih => exact ih hs.declare

theorem Descends.addScope (hs : s.Descends) {parent : Option Address} (hparent : ∀ p ∈ parent, p < s.scopes.size) :
    (s.addScope ⟨parent, [], none⟩).2.Descends := by
  intro a p hp
  rcases Nat.lt_trichotomy a s.scopes.size with ha | rfl | ha
  · have hold : (s.addScope ⟨parent, [], none⟩).2.scope a = s.scope a := by
      simp [Store.addScope, scope, Array.getElem?_push_lt ha, Array.getElem?_eq_getElem ha]
    exact hs a p (by rw [← hold, hp])
  · refine hparent p ?_
    simpa [Store.addScope, scope] using hp
  · rw [scope_of_size_le (by simpa [Store.addScope] using Nat.succ_le_of_lt ha)] at hp
    cases hp

theorem scopes_assign_of_none (h : s.owner? a name = none) : (assign a name v s).store.scopes = s.scopes := by
  simp [assign, update?, h, fail, Outcome.store, addError]

theorem assign_of_owner? (h : s.owner? a name = some b) : assign a name v s = .done v (s.declare b name v) := by
  simp [assign, update?, h]

theorem Grown.descends (h : s.Grown) : s.Descends := by
  have hsame {s t : Store} (hs : s.Descends) (hscopes : t.scopes = s.scopes) : t.Descends :=
    hs.congr fun a => by rw [scope, scope, hscopes]
  induction h with
  | empty hnone =>
    intro a p hp
    rw [scope_of_size_le (by simp [hnone])] at hp
    cases hp
  | new bindings _ ih => exact (ih.addScope (by simp)).declareAll bindings
  | child bindings _ hparent ih => exact (ih.addScope (by simpa using hparent)).declareAll bindings
  | declare => exact Descends.declare ‹_›
  | @update s a name v _ ih =>
    cases howner : s.owner? a name with
    | none => exact hsame ih (scopes_assign_of_none howner)
    | some b =>
      rw [assign_of_owner? howner]
      exact ih.declare
  | elsewhere _ hscopes ih => exact hsame ih hscopes

end Store

open Store

variable {s : Store}

/-- In every forest of scopes, the way outward from a scope is the scope itself and the way outward from the one around
it. Assigning to a name fails, and leaves all scopes as they are, if and only if no scope on the way binds the name.
Otherwise it yields the value, no scope gains, loses or moves a name, and of all names that are looked up from all
scopes just those have the new value that are the same name in the same nearest scope; the others have what they had.
After a declaration just those have the new value for which the scope of the declaration is the nearest that binds
the name. -/
theorem assignments_change_the_nearest_binding (h : s.Grown) (a : Address) (name : String) (v : Value) :
    (∀ b < s.scopes.size, s.chain b = b :: ((s.scope b).parent.map s.chain).getD []) ∧
    ((∃ e t, assign a name v s = .raised e t ∧ t.fault e = .unbound name ∧ t.scopes = s.scopes) ↔
      ∀ b ∈ s.chain a, (s.scope b).binds name = false) ∧
    ((∃ b ∈ s.chain a, (s.scope b).binds name = true) →
      ∃ t, assign a name v s = .done v t ∧ t = { s with scopes := t.scopes } ∧
        t.scopes.size = s.scopes.size ∧ s.SameNames t ∧
        ∀ b other, t.lookup? b other =
          if other = name ∧ s.nearest? b name = s.nearest? a name then some v else s.lookup? b other) ∧
    ∀ b other, (s.declare a name v).lookup? b other =
      if other = name ∧ (s.declare a name v).nearest? b name = some a then some v else s.lookup? b other := by
  have hnone : s.owner? a name = none ↔ ∀ b ∈ s.chain a, (s.scope b).binds name = false := by
    rw [owner?_eq_nearest?, nearest?, List.find?_eq_none]
    simp only [Bool.not_eq_true]
  refine ⟨fun b hb => chain_eq h.descends hb, ⟨?fails, ?unbound⟩, ?assigned, fun b other => lookup?_declare_eq⟩
  case fails =>
    rintro ⟨e, t, hraised, -⟩
    refine hnone.mp (Option.eq_none_iff_forall_ne_some.mpr fun owner howner => ?_)
    rw [assign_of_owner? howner] at hraised
    cases hraised
  case unbound =>
    intro hunbound
    refine ⟨s.errors.size, (s.addError (.unbound name)).2, ?_, ?_, rfl⟩
    · simp [assign, update?, hnone.mpr hunbound, fail, addError]
    · simp [fault, addError]
  case assigned =>
    rintro ⟨b, hb, hbinds⟩
    obtain ⟨owner, howner⟩ : ∃ owner, s.owner? a name = some owner := by
      refine Option.ne_none_iff_exists'.mp fun hno => ?_
      rw [hnone.mp hno b hb] at hbinds
      cases hbinds
    have hnearest : s.nearest? a name = some owner := by rw [← owner?_eq_nearest?, howner]
    have hbound := binds_of_nearest? hnearest
    refine ⟨_, assign_of_owner? howner, rfl, size_declare, sameNames_declare hbound, fun b other => ?_⟩
    rw [lookup?_declare_eq, nearest?_declare_of_binds hbound, hnearest]

end

/-- A name is bound in the outermost scope and again in the second of three scopes inside it. Assigning to it from the
first of these is seen from the outermost one, but neither from the second nor from the scope inside that. -/
theorem assignments_change_the_nearest_binding_hidden :
    let root := (({} : Store).addScope ⟨none, [], none⟩).2.declareAll 0 [("x", .int 1)]
    let first := (root.enter 0).2.declareAll 1 []
    let second := (first.enter 0).2.declareAll 2 [("x", .int 2)]
    let s := (second.enter 2).2.declareAll 3 [("y", .null)]
    s.Grown ∧ (∃ b ∈ s.chain 1, (s.scope b).binds "x" = true) ∧
      ∃ t, assign 1 "x" (.int 5) s = .done (.int 5) t ∧ t.lookup? 0 "x" = some (.int 5) ∧
        t.lookup? 1 "x" = some (.int 5) ∧ t.lookup? 2 "x" = some (.int 2) ∧ t.lookup? 3 "x" = some (.int 2) ∧
        t.lookup? 3 "y" = some .null := by
  intro root first second s
  have hroot : root.Grown := .new _ (.empty rfl)
  have hsecond : second.Grown := .child _ (.child _ hroot (by decide)) (by decide)
  have hs : s.Grown := .child _ hsecond (by decide)
  have hbound : ∃ b ∈ s.chain 1, (s.scope b).binds "x" = true := by decide
  have houter : s.nearest? 0 "x" = some 0 ∧ s.nearest? 1 "x" = some 0 := by decide
  have hinner : s.nearest? 2 "x" = some 2 ∧ s.nearest? 3 "x" = some 2 := by decide
  obtain ⟨-, -, hassigned, -⟩ := assignments_change_the_nearest_binding hs 1 "x" (.int 5)
  obtain ⟨t, ht, -, -, -, hlookup⟩ := hassigned hbound
  refine ⟨hs, hbound, t, ht, ?_, ?_, ?_, ?_, ?_⟩ <;> rw [hlookup]
  · simp [houter]
  · simp
  · rw [if_neg (by simp [houter, hinner])]
    rfl
  · rw [if_neg (by simp [houter, hinner])]
    rfl
  · rw [if_neg (by simp)]
    rfl

end Dartlet
