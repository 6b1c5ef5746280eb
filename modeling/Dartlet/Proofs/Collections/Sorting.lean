import Dartlet.Host.Standard
import Dartlet.Proofs.Collections.Orders
import Dartlet.Proofs.Collections.Permuting
import Dartlet.Proofs.Collections.Staging
import Dartlet.Proofs.Evaluation.ElementLoops
import Mathlib.Data.Set.List

/-!
# Sorting sorts

If comparisons end, tell which of two values is below the other by a total preorder, and leave the list alone, then a sort
ends, and it sorts the list stably: the run at the front is sorted, turned round if it falls, and each other element is
inserted behind those that are not above it. This holds of every function of a program that compares so, and of numbers and
texts without a function.
-/

set_option linter.unusedSectionVars false

namespace Dartlet

open Dartlet.Action

/-! ### Actions that return -/

section Returning

variable [Host]

variable {α β : Type} {I : Store → Prop} {F : Engine → Action α} {G : Engine → α → Action β} {Q : α → Prop} {R : β → Prop}

/-- Wherever an invariant holds, the action ends with a result that has a property, and the invariant holds again. -/
def Returns (I : Store → Prop) (F : Engine → Action α) (Q : α → Prop) : Prop :=
  ∀ t, I t → ∃ b u, EndsWith F t (.done b u) ∧ Q b ∧ I u

theorem Returns.pure {b : α} (h : Q b) : Returns I (fun _ => pure b) Q :=
  fun t ht => ⟨b, t, EndsWith.const_iff.mpr ⟨rfl, nofun⟩, h, ht⟩

theorem Returns.bind (hF : Persistent F) (hG : ∀ b, Persistent (fun e => G e b)) (h : Returns I F Q)
    (hthen : ∀ b, Q b → Returns I (fun e => G e b) R) : Returns I (fun e => F e >>= G e) R := by
  intro t ht
  obtain ⟨b, u, hfirst, hb, hu⟩ := h t ht
  obtain ⟨c, v, hsecond, hc, hv⟩ := hthen b hb u hu
  exact ⟨c, v, (EndsWith.bind_iff_of_done hF hG hfirst).mpr hsecond, hc, hv⟩

theorem Returns.ite {p : Prop} [Decidable p] {F' : Engine → Action α} (h : p → Returns I F Q) (h' : ¬p → Returns I F' Q) :
    Returns I (fun e => if p then F e else F' e) Q := by
  split
  · exact h ‹p›
  · exact h' ‹¬p›

end Returning
end Dartlet

/-! ### The parts of a sort -/

namespace Dartlet.Sort

open Dartlet.Action

variable [Host]

variable {less : Engine → Value → Value → Action Bool} {a : Address}

theorem persistent_keeping {α : Type} {F : Engine → Action α} (hF : Persistent F) (items : Array Value) :
    Persistent (fun e => keeping a items (F e)) := by
  intro level more h s
  simp only [keeping]
  rcases hF level more h s with ⟨t, hexhausted⟩ | hsame
  · exact .inl ⟨_, by rw [hexhausted]⟩
  · exact .inr (by rw [hsame])

section Levels

variable (hless : ∀ x y, Persistent (fun e => less e x y))
include hless

theorem persistent_runLength (descending : Bool) (previous : Value) (xs : List Value) :
    Persistent (fun e => runLength (less e) descending previous xs) := by
  induction xs generalizing previous with
  | nil => exact .const _
  | cons item rest ih => exact (hless item previous).bind fun _ => .ite ((ih item).bind fun _ => .const _) (.const _)

theorem persistent_frontRun (items : List Value) : Persistent (fun e => frontRun (less e) items) := by
  match items with
  | [] => exact .const _
  | [_] => exact .const _
  | first :: second :: rest =>
    exact (hless second first).bind fun _ => (persistent_runLength hless _ second rest).bind fun _ => .const _

theorem persistent_insertionPoint (pivot : Value) (run : Array Value) (limit low high : Nat) :
    Persistent (fun e => insertionPoint (less e) pivot run limit low high) := by
  induction limit generalizing low high with
  | zero => exact .const _
  | succ limit ih => exact .ite ((hless pivot _).bind fun _ => .ite (ih _ _) (ih _ _)) (.const _)

theorem persistent_insertAll (run : Array Value) (rest : List Value) :
    Persistent (fun e => insertAll (less e) a run rest) := by
  induction rest generalizing run with
  | nil => exact .const _
  | cons pivot rest ih =>
    exact (persistent_keeping (persistent_insertionPoint hless pivot run _ _ _) _).bind fun _ => ih _

end Levels

section Parts

variable {E : Value → Prop} {le : Value → Value → Bool} {I : Store → Prop}

/-- What sorting relies on: a total preorder of the values with a property, and comparisons that return whether one such
value is below another. -/
structure Sorts (a : Address) (E : Value → Prop) (le : Value → Value → Bool) (I : Store → Prop)
    (less : Engine → Value → Value → Action Bool) : Prop where
  preorder : TotalPreorderOn E le
  persistent : ∀ x y, Persistent (fun e => less e x y)
  returns : ∀ {x y}, E x → E y → Returns I (fun e => less e x y) (· = !le y x)
  alone : ∀ {t}, I t → t.lists[a]? = some #[]

theorem returns_keeping {α : Type} {F : Engine → Action α} {Q : α → Prop} (h : Returns I F Q) (items : Array Value) :
    Returns I (fun e => keeping a items (F e)) Q := by
  intro t ht
  obtain ⟨b, u, ⟨-, level, hlevel⟩, hb, hu⟩ := h t ht
  exact ⟨b, u, ⟨nofun, level, by simp only [keeping, hlevel]⟩, hb, hu⟩

variable (h : Sorts a E le I less)
include h

theorem Sorts.runLength (descending : Bool) {previous : Value} (hprevious : E previous) {xs : List Value}
    (hxs : ∀ x ∈ xs, E x) :
    Returns I (fun e => Sort.runLength (less e) descending previous xs)
      (fun more => (previous :: xs.take more).Pairwise fun x y => le x y = !descending) := by
  induction xs generalizing previous with
  | nil => exact .pure (List.pairwise_singleton _ _)
  | cons item rest ih =>
    have hitem : E item := hxs item List.mem_cons_self
    have hrest : ∀ x ∈ rest, E x := fun x hx => hxs x (List.mem_cons_of_mem item hx)
    have hgoOn : Persistent fun e => Sort.runLength (less e) descending item rest >>= fun more => pure (more + 1) :=
      (persistent_runLength h.persistent _ _ _).bind fun _ => .const _
    refine Returns.bind (h.persistent item previous) (fun _ => .ite hgoOn (.const _)) (h.returns hitem hprevious)
      fun below hbelow => .ite (fun hstep => ?_) fun _ => .pure (List.pairwise_singleton _ _)
    have hstep : le previous item = !descending := by
      rw [beq_iff_eq, hbelow] at hstep
      rw [← hstep, Bool.not_not]
    refine Returns.bind (persistent_runLength h.persistent _ _ _) (fun _ => .const _) (ih hitem hrest) fun more hmore => ?_
    refine .pure (List.pairwise_cons.mpr ⟨fun x hx => ?_, hmore⟩)
    rcases List.mem_cons.mp hx with rfl | hx
    · exact hstep
    · have hx' : E x := hrest x (List.mem_of_mem_take hx)
      exact h.preorder.goesOn hprevious hitem hx' hstep (List.rel_of_pairwise_cons hmore hx)

theorem Sorts.frontRun {items : List Value} (hitems : ∀ x ∈ items, E x) :
    Returns I (fun e => Sort.frontRun (less e) items)
      (fun r => ∃ before, before ++ r.2 = items ∧ SortsStably E le r.1 before) := by
  match items with
  | [] => exact .pure ⟨[], rfl, .of_rising .nil⟩
  | [v] => exact .pure ⟨[v], rfl, .of_rising (List.pairwise_singleton _ _)⟩
  | first :: second :: rest =>
    have hfirst : E first := hitems first List.mem_cons_self
    have hsecond : E second := hitems second (List.mem_cons_of_mem _ List.mem_cons_self)
    have hrest : ∀ x ∈ rest, E x := fun x hx => hitems x (List.mem_cons_of_mem _ (List.mem_cons_of_mem _ hx))
    refine Returns.bind (h.persistent second first)
      (fun _ => (persistent_runLength h.persistent _ second rest).bind fun _ => .const _) (h.returns hsecond hfirst)
      fun descending hdescending => ?_
    refine Returns.bind (persistent_runLength h.persistent _ _ _) (fun _ => .const _)
      (h.runLength descending hsecond hrest) fun more hmore => ?_
    have hinside : ∀ x ∈ first :: second :: rest.take more, E x := fun x hx => by
      refine hitems x ?_
      have hsublist : (first :: second :: rest.take more).Sublist (first :: second :: rest) :=
        ((List.take_sublist more rest).cons_cons second).cons_cons first
      exact hsublist.mem hx
    have hfalls : le first second = !descending := by rw [hdescending, Bool.not_not]
    have hrun : (first :: second :: rest.take more).Pairwise fun x y => le x y = !descending := by
      refine List.pairwise_cons.mpr ⟨fun x hx => ?_, hmore⟩
      rcases List.mem_cons.mp hx with rfl | hx
      · exact hfalls
      · have hx' : E x := hrest x (List.mem_of_mem_take hx)
        exact h.preorder.goesOn hfirst hsecond hx' hfalls (List.rel_of_pairwise_cons hmore hx)
    refine .pure ⟨first :: second :: rest.take more, ?_, ?_⟩
    · rw [List.cons_append, List.cons_append, List.take_append_drop]
    · cases descending with
      | false => exact .of_rising hrun
      | true => exact .of_falling h.preorder hinside hrun

theorem Sorts.insertionPoint {pivot : Value} (hpivot : E pivot) {run : Array Value} (hrun : ∀ x ∈ run.toList, E x)
    (hordered : run.toList.Pairwise fun x y => le x y = true) (limit : Nat) {low high : Nat} (hlow : low ≤ high)
    (hhigh : high ≤ run.size) (hlimit : high ≤ low + limit) (hplace : BelongsBetween le run.toList pivot low high) :
    Returns I (fun e => Sort.insertionPoint (less e) pivot run limit low high)
      (fun place => place ≤ run.size ∧ BelongsBetween le run.toList pivot place place) := by
  induction limit generalizing low high with
  | zero =>
    obtain rfl : low = high := Nat.le_antisymm hlow hlimit
    exact .pure ⟨hhigh, hplace⟩
  | succ limit ih =>
    refine .ite (fun hless => ?_) fun hnot => ?_
    · have hmiddle : low + (high - low) / 2 < run.size := by omega
      obtain ⟨y, hy⟩ : ∃ y, run[low + (high - low) / 2]? = some y := ⟨_, Array.getElem?_eq_getElem hmiddle⟩
      have hy' : run.toList[low + (high - low) / 2]? = some y := by rw [Array.getElem?_toList, hy]
      have hE : E y := hrun y (List.mem_of_getElem? hy')
      simp only [hy, Option.getD_some]
      have hhalf (low high : Nat) : Persistent fun e => Sort.insertionPoint (less e) pivot run limit low high :=
        persistent_insertionPoint h.persistent pivot run limit low high
      refine Returns.bind (h.persistent pivot y) (fun _ => .ite (hhalf _ _) (hhalf _ _)) (h.returns hpivot hE)
        fun below hbelow => .ite (fun habove => ?_) fun hnot => ?_
      · have hy : le y pivot = false := by simpa [hbelow] using habove
        exact ih (by omega) (by omega) (by omega) (hplace.lower h.preorder hrun hpivot hordered hy' hy)
      · have hy : le y pivot = true := by simpa [hbelow] using hnot
        exact ih (by omega) (by omega) (by omega) (hplace.raise h.preorder hrun hpivot hordered hy' hy)
    · obtain rfl : low = high := by omega
      exact .pure ⟨hhigh, hplace⟩

theorem Sorts.insertAll {before rest : List Value} (hitems : ∀ x ∈ before ++ rest, E x) {run : Array Value}
    (hrun : SortsStably E le run.toList before) :
    Returns I (fun e => Sort.insertAll (less e) a run rest)
      (fun sorted => SortsStably E le sorted.toList (before ++ rest)) := by
  induction rest generalizing run before with
  | nil =>
    rw [List.append_nil]
    exact .pure hrun
  | cons pivot rest ih =>
    have hbefore : ∀ x ∈ before, E x := fun x hx => hitems x (List.mem_append_left _ hx)
    have hpivot : E pivot := hitems pivot (List.mem_append_right before List.mem_cons_self)
    have hE : ∀ x ∈ run.toList, E x := fun x hx => hbefore x (hrun.perm.mem_iff.mp hx)
    have hplaced := h.insertionPoint hpivot hE hrun.ordered run.size (Nat.zero_le _) (Nat.le_refl _) (Nat.le_add_left _ _)
      (.whole le run.toList pivot)
    refine Returns.bind (persistent_keeping (persistent_insertionPoint h.persistent _ _ _ _ _) _)
      (fun _ => persistent_insertAll h.persistent _ _) (returns_keeping hplaced _) fun place hplace => ?_
    have hinserted : SortsStably E le (run.insertIdxIfInBounds place pivot).toList (before ++ [pivot]) := by
      rw [toList_insertIdxIfInBounds hplace.1]
      exact hrun.insert h.preorder hbefore hpivot hplace.2
    rw [List.append_cons] at hitems ⊢
    exact ih hitems hinserted

/-- A sort ends, and the list has been sorted. -/
theorem Sorts.sortList {s : Store} (hitems : ∀ x ∈ (s.list a).toList, E x) (hs : I (s.setList a #[])) :
    ∃ t u, EndsWith (fun e => Sort.sortList (less e) a) s (.done () t) ∧
      SortsStably E le (t.list a).toList (s.list a).toList ∧ I u ∧ t = u.setList a (t.list a) := by
  obtain ⟨r, t, hfront, ⟨before, hbefore, hrun⟩, ht⟩ := returns_keeping (h.frontRun hitems) (s.list a) _ hs
  have hall : ∀ x ∈ before ++ r.2, E x := by rwa [hbefore]
  have hrun : SortsStably E le r.1.toArray.toList before := hrun
  obtain ⟨sorted, u, hinsert, hsorted, hu⟩ := h.insertAll hall hrun t ht
  have hfinish : finish a sorted u = .done () (u.setList a sorted) := by
    simp only [finish, Store.list, h.alone hu]
    rfl
  have hlist : (u.setList a sorted).list a = sorted := list_setList (Array.getElem?_eq_some_iff.mp (h.alone hu)).1 sorted
  refine ⟨u.setList a sorted, u, ?_, hlist.symm ▸ hbefore ▸ hsorted, hu, congrArg _ hlist.symm⟩
  simp only [EndsWith, sortList_apply]
  have hthen (r : List Value × List Value) :
      Persistent fun e => Sort.insertAll (less e) a r.1.toArray r.2 >>= fun sorted => finish a sorted :=
    (persistent_insertAll h.persistent _ _).bind fun _ => .const _
  refine (EndsWith.bind_iff_of_done (persistent_keeping (persistent_frontRun h.persistent _) _) hthen hfront).mpr ?_
  refine (EndsWith.bind_iff_of_done (persistent_insertAll h.persistent _ _) (fun v => .const (finish a v)) hinsert).mpr ?_
  exact EndsWith.const_iff.mpr ⟨hfinish, Outcome.ended_done _ _⟩

end Parts

/-! ### Comparisons by functions -/

/-- What a function does that compares the elements of a list by a total preorder, while the list is being sorted: from every
store with an invariant, a call of it with two elements ends with a whole number, which is negative if the first one is below
the second, and the list is left alone. -/
structure ComparesBy (depth : Nat) (function : Value) (a : Address) (items : List Value) (le : Value → Value → Bool)
    (I : Store → Prop) : Prop where
  preorder : TotalPreorderOn (· ∈ items) le
  results : ∀ {x y t}, x ∈ items → y ∈ items → I t →
    ∃ n u, Calls depth function [x, y] t (.done (.int n) u) ∧ (n < 0 ↔ le y x = false) ∧ I u
  alone : ∀ {t}, I t → t.lists[a]? = some #[]

variable {depth : Nat} {function : Value} {items : List Value} {le : Value → Value → Bool} {I : Store → Prop}

theorem ComparesBy.sorts (h : ComparesBy depth function a items le I) :
    Sorts a (· ∈ items) le I (fun e => functionLess (e.caller depth) function) where
  preorder := h.preorder
  persistent x y := (Persistent.call depth function [x, y]).bind fun _ => .const _
  returns {x y} hx hy t ht := by
    obtain ⟨n, u, hcall, hn, hu⟩ := h.results hx hy ht
    have hresult (v : Value) :
        Persistent fun _ => intArgument "sort comparator result" v >>= fun n => pure (decide (n < 0)) := .const _
    refine ⟨decide (n < 0), u, ?_, ?_, hu⟩
    · exact (EndsWith.bind_iff_of_done (.call depth function [x, y]) hresult hcall).mpr (EndsWith.const_iff.mpr ⟨rfl, nofun⟩)
    · change decide (n < 0) = !le y x
      rw [Bool.eq_iff_iff, decide_eq_true_iff, hn, Bool.not_eq_true']
  alone := h.alone

/-! ### Comparisons of numbers and texts -/

theorem order_int (m n : Int) : NumberMethod.order (.int m) (.int n) < 0 ↔ m < n := by
  rw [← Int.compare_eq_lt (a := m)]
  simp only [NumberMethod.order, Value.compareNumbers?]
  cases compare m n <;> decide

theorem naturalLess_int (m n : Int) : naturalLess (.int m) (.int n) = pure (decide (m < n)) := by
  change pure (decide (NumberMethod.order (.int m) (.int n) < 0)) = _
  rw [decide_eq_decide.mpr (order_int m n)]

theorem naturalLess_string (x y : String) : naturalLess (.string x) (.string y) = pure (decide (x < y)) := by
  have horder : TextMethod.order x y < 0 ↔ x < y := by
    unfold TextMethod.order
    by_cases hbelow : x < y
    · rw [if_pos hbelow]
      exact ⟨fun _ => hbelow, fun _ => by decide⟩
    · rw [if_neg hbelow]
      refine ⟨fun hnegative => absurd hnegative ?_, fun hxy => absurd hxy hbelow⟩
      split <;> decide
  change pure (decide (TextMethod.order x y < 0)) = _
  rw [decide_eq_decide.mpr horder]

section Kinds

variable {κ : Type} [LE κ] [LT κ] [DecidableLT κ] [Std.IsLinearPreorder κ] [Std.LawfulOrderLT κ] {make : κ → Value}

theorem setList_setList (s : Store) (a : Address) (xs ys : Array Value) :
    (s.setList a xs).setList a ys = s.setList a ys := by
  simp [Store.setList]

/-- Values of a kind that are compared without a function by an order of it. -/
theorem sorts_natural (hmake : Function.Injective make)
    (hless : ∀ m n, naturalLess (make m) (make n) = pure (decide (m < n))) {s : Store} (ha : a < s.lists.size) :
    ∃ le, (∀ m n, le (make m) (make n) = true ↔ m ≤ n) ∧
      Sorts a (· ∈ Set.range make) le (· = s.setList a #[]) (fun _ => naturalLess) := by
  classical
  let le : Value → Value → Bool := fun v w => decide (∃ m n, v = make m ∧ w = make n ∧ m ≤ n)
  have hle (m n : κ) : le (make m) (make n) = true ↔ m ≤ n := by
    rw [decide_eq_true_iff]
    refine ⟨fun ⟨m', n', hm, hn, h⟩ => ?_, fun h => ⟨m, n, rfl, rfl, h⟩⟩
    rwa [hmake hm, hmake hn]
  refine ⟨le, hle, ?preorder, fun _ _ => .const _, ?returns, ?alone⟩
  case preorder =>
    constructor
    · rintro _ _ ⟨m, rfl⟩ ⟨n, rfl⟩
      rw [hle, hle]
      exact Std.le_total
    · rintro _ _ _ ⟨k, rfl⟩ ⟨m, rfl⟩ ⟨n, rfl⟩
      rw [hle, hle, hle]
      exact Std.le_trans
  case returns =>
    rintro _ _ ⟨m, rfl⟩ ⟨n, rfl⟩ t ht
    refine ⟨decide (m < n), t, EndsWith.const_iff.mpr ⟨by rw [hless]; rfl, nofun⟩, ?_, ht⟩
    change decide (m < n) = !le (make n) (make m)
    rw [Bool.eq_iff_iff, decide_eq_true_iff, Bool.not_eq_true', ← Bool.not_eq_true, hle, Std.not_le]
  case alone =>
    rintro _ rfl
    simp [Store.setList, ha]

/-- A list of values of one kind is sorted by the order of the kind. -/
theorem sortList_natural (hmake : Function.Injective make)
    (hless : ∀ m n, naturalLess (make m) (make n) = pure (decide (m < n))) {s : Store} (ha : a < s.lists.size) {xs : List κ}
    (hxs : (s.list a).toList = xs.map make) :
    ∃ ys : List κ, ys.Perm xs ∧ ys.Pairwise (· ≤ ·) ∧
      sortList naturalLess a s = .done () (s.setList a (ys.map make).toArray) := by
  obtain ⟨le, hle, hsorts⟩ := sorts_natural hmake hless ha
  have hitems : ∀ v ∈ (s.list a).toList, v ∈ Set.range make := by
    intro v hv
    rw [hxs] at hv
    obtain ⟨x, -, rfl⟩ := List.mem_map.mp hv
    exact ⟨x, rfl⟩
  obtain ⟨t, _, hends, hsorted, rfl, ht⟩ := hsorts.sortList hitems rfl
  obtain ⟨ys, hys⟩ : (t.list a).toList ∈ Set.range (List.map make) := by
    rw [Set.range_list_map]
    exact fun v hv => hitems v (hsorted.perm.mem_iff.mp hv)
  have hperm := hsorted.perm
  have hordered := hsorted.ordered
  rw [← hys, hxs, List.map_perm_map_iff hmake] at hperm
  rw [← hys, List.pairwise_map] at hordered
  refine ⟨ys, hperm, hordered.imp (hle _ _).mp, ?_⟩
  rw [(EndsWith.const_iff.mp hends).1, hys, Array.toArray_toList, ← setList_setList s a #[], ← ht]

end Kinds
end Dartlet.Sort

/-! ### The member of lists -/

namespace Dartlet

open Dartlet.Action

section Members

variable [Host]

variable {e : Engine} {depth : Nat} {a : Address} {arguments : List Value} {s : Store}

theorem invokes_sort_function {function : Value} (hdepth : depth < Host.callLimit) (hfunction : function.isFunction = true)
    {t : Store} (hsorts : EndsWith (fun e => Sort.sortList (Sort.functionLess (e.caller (depth + 1)) function) a) s (.done () t)) :
    Invokes depth (.list a) "sort" [function] s (.done .null t) := by
  have hnull : argument [function] 0 ≠ .null := by
    rintro rfl
    cases hfunction
  obtain ⟨-, level, hlevel⟩ := hsorts
  refine (invokes_done_iff (m := .list .sort) rfl rfl rfl).mpr ⟨hdepth, nofun, level, ?_⟩
  change ListMethod.sort.run _ a [function] s = _
  rw [ListMethod.run_sort_function hnull]
  refine bind_eq_done_iff.mpr ⟨(), s, functionArgument_eq_done_iff.mpr ⟨hfunction, rfl⟩, ?_⟩
  exact bind_eq_done_iff.mpr ⟨(), t, hlevel, rfl⟩

theorem invokes_sort_natural (hdepth : depth < Host.callLimit) (hnone : arguments = [] ∨ arguments = [.null])
    {o : Outcome Value} (hsorts : (Sort.sortList Sort.naturalLess a >>= fun _ => pure Value.null) s = o) (hended : o.Ended) :
    Invokes depth (.list a) "sort" arguments s o.delegated := by
  have hnull : argument arguments 0 = .null := by
    rcases hnone with rfl | rfl <;> rfl
  have harity : (Method.list .sort).arity.accepts arguments.length = true := by
    rcases hnone with rfl | rfl <;> rfl
  refine (invokes_iff rfl rfl harity hdepth).mpr ⟨o, ⟨hended, 0, ?_⟩, rfl⟩
  change ListMethod.sort.run _ a arguments s = _
  rw [ListMethod.run_sort_natural hnull, hsorts]

theorem invokes_sort_kind {κ : Type} [LE κ] [LT κ] [DecidableLT κ] [Std.IsLinearPreorder κ] [Std.LawfulOrderLT κ]
    {make : κ → Value} (hmake : Function.Injective make)
    (hless : ∀ m n, Sort.naturalLess (make m) (make n) = pure (decide (m < n))) (ha : a < s.lists.size)
    (hdepth : depth < Host.callLimit) (hnone : arguments = [] ∨ arguments = [.null]) {xs : List κ}
    (hxs : (s.list a).toList = xs.map make) :
    ∃ sorted : List κ, sorted.Perm xs ∧ sorted.Pairwise (· ≤ ·) ∧
      Invokes depth (.list a) "sort" arguments s (.done .null (s.setList a (sorted.map make).toArray)) := by
  obtain ⟨sorted, hperm, hordered, hdone⟩ := Sort.sortList_natural hmake hless ha hxs
  exact ⟨sorted, hperm, hordered, invokes_sort_natural hdepth hnone (bind_eq_done_iff.mpr ⟨(), _, hdone, rfl⟩) nofun⟩

/-- Without a function, values of different kinds are not sorted. -/
theorem Sort.sortList_mixed (ha : a < s.lists.size) {v w : Value} (hv : v ∈ (s.list a).toList) (hw : w ∈ (s.list a).toList)
    (hkinds : comparable v ≠ comparable w) :
    ∃ error t, sortList naturalLess a s = .raised error t ∧ (t.fault error).kind = "TypeMismatchError" := by
  have hsplits := (comparing_natural ha).sortList rfl
  generalize sortList naturalLess a s = o at hsplits
  cases o with
  | done _ t => exact absurd (hsplits.2 v hv w hw) hkinds
  | raised error t =>
    obtain ⟨-, error, hsame, hkind⟩ := hsplits
    cases hsame
    exact ⟨error, t, rfl, hkind⟩
  | escaped f t =>
    obtain ⟨-, error, hsame, -⟩ := hsplits
    cases hsame
  | exhausted t =>
    obtain ⟨-, error, hsame, -⟩ := hsplits
    cases hsame

/-- However a call of `sort` ends, whatever its arguments, and whatever functions do meanwhile, the list has the elements that
it had. With a function that compares the elements by a total preorder and leaves the list alone, the call ends, and it has
sorted the list stably. Without a function, it sorts lists of whole numbers and lists of texts, and it raises an error if
there are both in the list. -/
theorem sort_permutes_and_sorts_stably (ha : a < s.lists.size) :
    (∀ level arguments, ((invokeMember (interpreter level) depth (.list a) "sort" arguments s).store.list a).toList.Perm
      (s.list a).toList) ∧
    (depth < Host.callLimit →
      (∀ {function le I}, function.isFunction = true →
        Sort.ComparesBy (depth + 1) function a (s.list a).toList le I → I (s.setList a #[]) →
        ∃ t u, Invokes depth (.list a) "sort" [function] s (.done .null t) ∧
          SortsStably (· ∈ (s.list a).toList) le (t.list a).toList (s.list a).toList ∧ I u ∧ t = u.setList a (t.list a)) ∧
      ∀ arguments, arguments = [] ∨ arguments = [.null] →
        (∀ ns : List Int, (s.list a).toList = ns.map .int → ∃ sorted : List Int, sorted.Perm ns ∧ sorted.Pairwise (· ≤ ·) ∧
          Invokes depth (.list a) "sort" arguments s (.done .null (s.setList a (sorted.map .int).toArray))) ∧
        (∀ ts : List String, (s.list a).toList = ts.map .string → ∃ sorted : List String, sorted.Perm ts ∧
          sorted.Pairwise (· ≤ ·) ∧
          Invokes depth (.list a) "sort" arguments s (.done .null (s.setList a (sorted.map .string).toArray))) ∧
        ∀ n text, .int n ∈ (s.list a).toList → .string text ∈ (s.list a).toList →
          ∃ error t, Invokes depth (.list a) "sort" arguments s (.raised error t) ∧
            (t.fault error).kind = "TypeMismatchError") := by
  refine ⟨fun level arguments => invokeMember_sort_holds level ha,
    fun hdepth => ⟨fun {function le I} hfunction hcompares hs => ?byFunction, fun arguments hnone => ⟨fun ns hns => ?numbers,
      fun ts hts => ?texts, fun n text hn htext => ?mixed⟩⟩⟩
  case byFunction =>
    obtain ⟨t, u, hends, hsorted⟩ := hcompares.sorts.sortList (fun _ h => h) hs
    exact ⟨t, u, invokes_sort_function hdepth hfunction hends, hsorted⟩
  case numbers => exact invokes_sort_kind (fun _ _ => Value.int.inj) Sort.naturalLess_int ha hdepth hnone hns
  case texts => exact invokes_sort_kind (fun _ _ => Value.string.inj) Sort.naturalLess_string ha hdepth hnone hts
  case mixed =>
    obtain ⟨error, t, hraised, hkind⟩ := Sort.sortList_mixed ha hn htext nofun
    have hfails : (Sort.sortList Sort.naturalLess a >>= fun _ => pure Value.null) s = .raised error t :=
      Failure.bind_outcome (f := .raised error) hraised
    exact ⟨error, t, invokes_sort_natural hdepth hnone hfails nofun, hkind⟩

end Members

/-- A function of two parameters, whose result is the second one less the first. -/
def differenceFunction : Closure :=
  ⟨none, ["a", "b"], .expression none (.binary none .sub (.identifier none "b") (.identifier none "a")), 0⟩

theorem calls_difference {t : Store} (ht : t.closures = #[differenceFunction]) (m n : Int) :
    Calls 1 (.closure 0) [.int m, .int n] t
      (.done (.int (n - m)) { t with scopes := t.scopes.push ⟨some 0, [("a", .int m), ("b", .int n)], none⟩ }) := by
  let c : Context := ⟨t.scopes.size, 2⟩
  let u : Store := { t with scopes := t.scopes.push ⟨some 0, [("a", .int m), ("b", .int n)], none⟩ }
  have hentered : (t.enter 0).2.declareAll t.scopes.size [("a", .int m), ("b", .int n)] = u := by
    simp only [Store.enter, Store.addScope, Store.declareAll, Store.declare, modify_push]
    rfl
  have hname {name : String} {v : Value} (h : u.lookup? c.scope name = some v) :
      (interpreter 1).eval c (.identifier none name) u = .done v u := by
    exact within_eq_done_iff.mpr (by simp only [evalForm, evalIdentifier, h])
  have ha : u.lookup? c.scope "a" = some (.int m) := by
    simp [Store.lookup?, Store.owner?, Store.ownerFrom?, Store.scope, Scope.binds, Scope.find?, u, c]
  have hb : u.lookup? c.scope "b" = some (.int n) := by
    simp [Store.lookup?, Store.owner?, Store.ownerFrom?, Store.scope, Scope.binds, Scope.find?, u, c]
  have hbody : runBody (interpreter 2) c differenceFunction.body u = .done (.int (n - m)) u := by
    have hform : evalBinary (interpreter 1) c .sub (.identifier none "b") (.identifier none "a") u = .done (.int (n - m)) u :=
      bind_eq_done_iff.mpr ⟨_, u, hname hb, bind_eq_done_iff.mpr ⟨_, u, hname ha, rfl⟩⟩
    exact within_eq_done_iff.mpr hform
  refine ⟨Outcome.ended_done _ _, 3, ?_⟩
  change callValue (interpreter 2) 1 (.closure 0) [.int m, .int n] t = _
  have hclosure : t.closures[0]? = some differenceFunction := by
    rw [ht]
    rfl
  simp only [callValue, hclosure]
  change guardNesting (runBody (interpreter 2) c differenceFunction.body)
    ((t.enter 0).2.declareAll t.scopes.size [("a", .int m), ("b", .int n)]) = _
  rw [hentered, guardNesting, hbody]

/-- A list of three numbers is sorted by their differences, the greatest one first. -/
theorem sort_permutes_and_sorts_stably_falling :
    let s : Store :=
      { scopes := #[⟨none, [], none⟩], lists := #[#[.int 1, .int 3, .int 2]], closures := #[differenceFunction] }
    ∃ t, Invokes 0 (.list 0) "sort" [.closure 0] s (.done .null t) ∧ (t.list 0).toList = [.int 3, .int 2, .int 1] := by
  intro s
  let le : Value → Value → Bool := fun v w => !decide (NumberMethod.order v w < 0)
  have hle (m n : Int) : le (.int m) (.int n) = true ↔ n ≤ m := by
    rw [Bool.not_eq_true', decide_eq_false_iff_not, Sort.order_int, Int.not_lt]
  have hitems {v : Value} (hv : v ∈ (s.list 0).toList) : ∃ n, v = .int n := by
    have hv : v ∈ [Value.int 1, .int 3, .int 2] := hv
    simp only [List.mem_cons, List.not_mem_nil, or_false] at hv
    rcases hv with rfl | rfl | rfl <;> exact ⟨_, rfl⟩
  have hcompares : Sort.ComparesBy 1 (.closure 0) 0 (s.list 0).toList le
      (fun t => t.closures = #[differenceFunction] ∧ t.lists = #[#[]]) := by
    refine ⟨⟨fun hx hy => ?total, fun hx hy hz => ?trans⟩, fun hx hy ht => ?results, fun ht => ?alone⟩
    case total =>
      obtain ⟨m, rfl⟩ := hitems hx
      obtain ⟨n, rfl⟩ := hitems hy
      rw [hle, hle]
      exact Int.le_total n m
    case trans =>
      obtain ⟨k, rfl⟩ := hitems hx
      obtain ⟨m, rfl⟩ := hitems hy
      obtain ⟨n, rfl⟩ := hitems hz
      rw [hle, hle, hle]
      exact fun hm hn => Int.le_trans hn hm
    case results =>
      obtain ⟨m, rfl⟩ := hitems hx
      obtain ⟨n, rfl⟩ := hitems hy
      refine ⟨n - m, _, calls_difference ht.1 m n, ?_, ht⟩
      rw [← Bool.not_eq_true, hle, Int.not_le]
      omega
    case alone =>
      rw [ht.2]
      rfl
  have hsort := (sort_permutes_and_sorts_stably (show 0 < s.lists.size by decide)).2 (show 0 < Host.callLimit by decide)
  obtain ⟨t, -, hends, hsorted, -⟩ := hsort.1 rfl hcompares ⟨rfl, rfl⟩
  have hperm : (t.list 0).toList.Perm [.int 3, .int 2, .int 1] :=
    have hrotated : ([Value.int 1] ++ [Value.int 3, Value.int 2]).Perm ([Value.int 3, Value.int 2] ++ [Value.int 1]) :=
      List.perm_append_comm
    hsorted.perm.trans hrotated
  refine ⟨t, hends, hperm.eq_of_pairwise (fun v w hv hw hvw hwv => ?_) hsorted.ordered (by decide)⟩
  obtain ⟨m, rfl⟩ := hitems (hsorted.perm.mem_iff.mp hv)
  obtain ⟨n, rfl⟩ := hitems (hsorted.perm.mem_iff.mp (hperm.mem_iff.mpr hw))
  rw [Int.le_antisymm ((hle n m).mp hwv) ((hle m n).mp hvw)]

end Dartlet
