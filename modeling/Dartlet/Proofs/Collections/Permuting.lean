import Dartlet.Proofs.Evaluation.Escapes
import Dartlet.Proofs.Evaluation.Invocations

/-!
# Sorting never loses an element

While a list is sorted, functions of the program run that may do anything: change the list, raise an error, return what is no
number. The sort keeps the elements to itself meanwhile, and puts them back however it ends. So whatever happens, the
elements in the list afterwards are those that were in it before, in some order; and if it comes to an end, it has compared
every element with another one.
-/

set_option linter.unusedSectionVars false

namespace Dartlet

open Dartlet.Action

variable [Host]

/-! ### Actions told by how they end -/

/-- What holds of an outcome: something of its result and its store, or something of the way in which it has none and of
its store. Nothing stands for a lack of levels. -/
def Outcome.Splits {α : Type} (Q : α → Store → Prop) (P : Option Failure → Store → Prop) : Outcome α → Prop
  | .done a t => Q a t
  | .raised e t => P (some (.raised e)) t
  | .escaped f t => P (some (.escaped f)) t
  | .exhausted t => P none t

theorem Outcome.Splits.mono {α : Type} {Q Q' : α → Store → Prop} {P P' : Option Failure → Store → Prop} {o : Outcome α}
    (h : o.Splits Q P) (hQ : ∀ a t, Q a t → Q' a t) (hP : ∀ f t, P f t → P' f t) : o.Splits Q' P' := by
  cases o with
  | done a t => exact hQ a t h
  | _ => exact hP _ _ h

/-- What holds of the store in any case. -/
theorem Outcome.Splits.store {α : Type} {J : Store → Prop} {o : Outcome α} (h : o.Splits (fun _ => J) (fun _ => J)) :
    J o.store := by
  cases o <;> exact h

namespace Action

variable {α β : Type} {I : Store → Prop} {Q : α → Store → Prop} {R : β → Store → Prop} {P : Option Failure → Store → Prop}
  {x : Action α}

/-- Every run of the action that begins with `I` ends with `Q`, or without a result and with `P`. -/
def Triple (I : Store → Prop) (x : Action α) (Q : α → Store → Prop) (P : Option Failure → Store → Prop) : Prop :=
  ∀ s, I s → (x s).Splits Q P

theorem Triple.pure {a : α} (h : ∀ s, I s → Q a s) : Triple I (pure a) Q P := h

theorem splits_bind {f : α → Action β} {s : Store} (hx : (x s).Splits Q P) (hf : ∀ a, Triple (Q a) (f a) R P) :
    ((x >>= f) s).Splits R P := by
  change (Action.bind x f s).Splits R P
  unfold Action.bind
  generalize x s = o at hx
  cases o with
  | done a t => exact hf a t hx
  | _ => exact hx

theorem Triple.bind {f : α → Action β} (hx : Triple I x Q P) (hf : ∀ a, Triple (Q a) (f a) R P) :
    Triple I (x >>= f) R P :=
  fun s hs => splits_bind (hx s hs) hf

theorem Triple.mono {Q' : α → Store → Prop} {P' : Option Failure → Store → Prop} (h : Triple I x Q P)
    (hQ : ∀ a t, Q a t → Q' a t) (hP : ∀ f t, P f t → P' f t) : Triple I x Q' P' :=
  fun s hs => (h s hs).mono hQ hP

/-- What becomes of a failure outside the language where code of the host runs. -/
theorem splits_delegate {s : Store} (hx : (x s).Splits Q P)
    (hP : ∀ f t, P (some (.escaped f)) t → P (some (.raised t.errors.size)) (t.addError (.host f)).2) :
    (delegate x s).Splits Q P := by
  rw [delegate_apply]
  generalize x s = o at hx
  cases o with
  | escaped f t =>
    cases f with
    | endlessNesting => exact hx
    | _ => exact hP _ t hx
  | _ => exact hx

theorem Triple.ite {p : Prop} [Decidable p] {y : Action α} (hx : p → Triple I x Q P) (hy : ¬p → Triple I y Q P) :
    Triple I (if p then x else y) Q P := by
  split
  · exact hx ‹p›
  · exact hy ‹¬p›

/-- What an action keeps holds however it ends. -/
theorem Keeps.triple (h : Keeps I x) : Triple I x (fun _ t => I t) (fun _ t => I t) := by
  intro s hs
  have hx := h s hs
  generalize x s = o at hx
  cases o with
  | done a t => exact hx.2
  | _ => exact hx

end Action

end Dartlet

/-! ### Comparisons -/

namespace Dartlet.Sort

open Dartlet.Action

variable [Host] {κ : Type} {less : Value → Value → Action Bool} {a : Address} {kind : Value → κ} {I : Store → Prop}
  {P : Option Failure → Store → Prop} {items : List Value}

/-- What holds of the comparisons of a sort: they keep an invariant, by which the list that is being sorted exists; values
that are compared successfully are of one kind; and how the comparisons fail is known, also where they have changed the
list. -/
structure Comparing (a : Address) (kind : Value → κ) (I : Store → Prop) (P : Option Failure → Store → Prop)
    (less : Value → Value → Action Bool) : Prop where
  compares : ∀ x y, Triple I (less x y) (fun _ t => kind x = kind y ∧ I t) (fun f t => I t ∧ P f t)
  room : ∀ {t}, I t → a < t.lists.size
  restored : ∀ {f t} (items : Array Value), P f t → P f (t.setList a items)
  changed : ∀ {t} (items : Array Value), I t → (t.list a).isEmpty = false →
    P (some (.escaped .sortedListChanged)) (t.setList a items)

/-- The list has given elements, in some order. -/
def Holds (a : Address) (items : List Value) (t : Store) : Prop := (t.list a).toList.Perm items

theorem list_setList {t : Store} (ha : a < t.lists.size) (xs : Array Value) : (t.setList a xs).list a = xs := by
  simp [Store.list, Store.setList, ha]

theorem holds_setList {t : Store} (ha : a < t.lists.size) {xs : Array Value} (h : xs.toList.Perm items) :
    Holds a items (t.setList a xs) := by
  rwa [Holds, list_setList ha]

theorem Comparing.keeping {α : Type} {x : Action α} {Q : α → Store → Prop} (h : Comparing a kind I P less)
    {xs : Array Value} (hxs : xs.toList.Perm items) (hx : Triple I x Q (fun f t => I t ∧ P f t)) :
    Triple I (keeping a xs x) Q (fun f t => Holds a items t ∧ P f t) := by
  intro s hs
  have hx := hx s hs
  unfold Sort.keeping
  generalize x s = o at hx
  cases o with
  | done r t => exact hx
  | raised e t => exact ⟨holds_setList (h.room hx.1) hxs, h.restored xs hx.2⟩
  | escaped f t => exact ⟨holds_setList (h.room hx.1) hxs, h.restored xs hx.2⟩
  | exhausted t => exact ⟨holds_setList (h.room hx.1) hxs, h.restored xs hx.2⟩

theorem Comparing.runLength (h : Comparing a kind I P less) (descending : Bool) (previous : Value) (xs : List Value) :
    Triple I (runLength less descending previous xs)
      (fun more t => (∀ x ∈ xs.take more, kind x = kind previous) ∧ I t) (fun f t => I t ∧ P f t) := by
  induction xs generalizing previous with
  | nil => exact .pure fun _ hs => ⟨fun x hx => absurd hx (by simp), hs⟩
  | cons item rest ih =>
    refine (h.compares item previous).bind fun below => .ite (fun _ => ?_) fun _ => ?_
    · intro s hs
      refine splits_bind (ih item s hs.2) fun more => .pure fun t ht => ⟨fun x hx => ?_, ht.2⟩
      rcases List.mem_cons.mp hx with rfl | hx
      · exact hs.1
      · exact (ht.1 x hx).trans hs.1
    · exact .pure fun t ht => ⟨fun x hx => absurd hx (by simp), ht.2⟩

/-- The elements of a list are all of one kind. -/
def Uniform (kind : Value → κ) (xs : List Value) : Prop := ∀ x ∈ xs, ∀ y ∈ xs, kind x = kind y

theorem Uniform.of_forall {k : κ} {xs : List Value} (h : ∀ x ∈ xs, kind x = k) : Uniform kind xs :=
  fun x hx y hy => (h x hx).trans (h y hy).symm

theorem Uniform.perm {xs ys : List Value} (h : Uniform kind xs) (hperm : xs.Perm ys) : Uniform kind ys :=
  fun x hx y hy => h x (hperm.mem_iff.mpr hx) y (hperm.mem_iff.mpr hy)

theorem Comparing.frontRun (h : Comparing a kind I P less) (items : List Value) :
    Triple I (frontRun less items) (fun r t => ((r.1 ++ r.2).Perm items ∧ Uniform kind r.1) ∧ I t)
      (fun f t => I t ∧ P f t) := by
  match items with
  | [] => exact .pure fun _ hs => ⟨⟨.refl _, fun x hx => absurd hx List.not_mem_nil⟩, hs⟩
  | [v] =>
    refine .pure fun _ hs => ⟨⟨.refl _, .of_forall (k := kind v) fun x hx => ?_⟩, hs⟩
    rw [List.mem_singleton.mp hx]
  | first :: second :: rest =>
    refine (h.compares second first).bind fun descending s hs => ?_
    refine splits_bind (h.runLength descending second rest s hs.2) fun more => .pure fun t ht => ⟨⟨?_, ?_⟩, ht.2⟩
    · have hwhole : ((first :: second :: rest.take more) ++ rest.drop more).Perm (first :: second :: rest) := by
        rw [List.cons_append, List.cons_append, List.take_append_drop]
      cases descending with
      | false => exact hwhole
      | true => exact ((List.reverse_perm _).append_right _).trans hwhole
    · have hrun : Uniform kind (first :: second :: rest.take more) := by
        refine .of_forall (k := kind second) fun x hx => ?_
        rcases List.mem_cons.mp hx with rfl | hx
        · exact hs.1.symm
        · rcases List.mem_cons.mp hx with rfl | hx
          · rfl
          · exact ht.1 x hx
      cases descending with
      | false => exact hrun
      | true => exact hrun.perm (List.reverse_perm _).symm

/-- The place for a value is in the run, and finding it in a stretch that is not empty takes a comparison. -/
theorem Comparing.insertionPoint (h : Comparing a kind I P less) (pivot : Value) (run : Array Value) (limit : Nat)
    {low high : Nat} (hlow : low ≤ high) (hhigh : high ≤ run.size) :
    Triple I (insertionPoint less pivot run limit low high)
      (fun place t => (place ≤ run.size ∧ (0 < limit → low < high → ∃ x ∈ run.toList, kind pivot = kind x)) ∧ I t)
      (fun f t => I t ∧ P f t) := by
  induction limit generalizing low high with
  | zero => exact .pure fun _ hs => ⟨⟨Nat.le_trans hlow hhigh, fun hlimit => absurd hlimit (Nat.lt_irrefl 0)⟩, hs⟩
  | succ limit ih =>
    refine .ite (fun hless => ?_) fun hnot => ?_
    · have hmiddle : low + (high - low) / 2 < run.size := by omega
      have hfound : ∃ x ∈ run.toList, kind (run[low + (high - low) / 2]?.getD .null) = kind x := by
        refine ⟨run[low + (high - low) / 2], Array.mem_toList_iff.mpr (Array.getElem_mem hmiddle), ?_⟩
        rw [Array.getElem?_eq_getElem hmiddle, Option.getD_some]
      have hlater {place : Nat} {t : Store} (hkind : kind pivot = kind (run[low + (high - low) / 2]?.getD .null))
          (hplace : place ≤ run.size) (ht : I t) :
          (place ≤ run.size ∧ (0 < limit + 1 → low < high → ∃ x ∈ run.toList, kind pivot = kind x)) ∧ I t := by
        obtain ⟨x, hx, hsame⟩ := hfound
        exact ⟨⟨hplace, fun _ _ => ⟨x, hx, hkind.trans hsame⟩⟩, ht⟩
      refine (h.compares pivot _).bind fun below => .ite (fun _ s hs => ?_) fun _ s hs => ?_
      · exact Triple.mono (ih (by omega) (by omega)) (fun _ _ ht => hlater hs.1 ht.1.1 ht.2) (fun _ _ ht => ht) s hs.2
      · exact Triple.mono (ih (by omega) (by omega)) (fun _ _ ht => hlater hs.1 ht.1.1 ht.2) (fun _ _ ht => ht) s hs.2
    · exact .pure fun _ hs => ⟨⟨Nat.le_trans hlow hhigh, fun _ hless => absurd hless hnot⟩, hs⟩

theorem insertIdx_eq_take_append_cons_drop (pivot : Value) {run : List Value} {place : Nat} (h : place ≤ run.length) :
    run.insertIdx place pivot = run.take place ++ pivot :: run.drop place := by
  induction place generalizing run with
  | zero => rfl
  | succ place ih =>
    cases run with
    | nil => cases h
    | cons x rest => rw [List.insertIdx_succ_cons, ih (Nat.le_of_succ_le_succ h)]; rfl

/-- A value that is inserted stands behind those before its place. -/
theorem toList_insertIdxIfInBounds {run : Array Value} {place : Nat} (hplace : place ≤ run.size) (pivot : Value) :
    (run.insertIdxIfInBounds place pivot).toList = run.toList.take place ++ pivot :: run.toList.drop place := by
  rw [Array.insertIdxIfInBounds, dif_pos hplace, Array.toList_insertIdx]
  exact insertIdx_eq_take_append_cons_drop pivot hplace

theorem perm_insert {run : Array Value} {place : Nat} (hplace : place ≤ run.size) (pivot : Value) :
    (run.insertIdxIfInBounds place pivot).toList.Perm (pivot :: run.toList) := by
  refine (List.Perm.of_eq (toList_insertIdxIfInBounds hplace pivot)).trans (List.perm_middle.trans ?_)
  rw [List.take_append_drop]

theorem Comparing.insertAll (h : Comparing a kind I P less) {run : Array Value} {rest : List Value}
    (hperm : (run.toList ++ rest).Perm items) (huniform : Uniform kind run.toList) :
    Triple I (insertAll less a run rest) (fun sorted t => (sorted.toList.Perm items ∧ Uniform kind sorted.toList) ∧ I t)
      (fun f t => Holds a items t ∧ P f t) := by
  induction rest generalizing run with
  | nil =>
    rw [List.append_nil] at hperm
    exact .pure fun _ hs => ⟨⟨hperm, huniform⟩, hs⟩
  | cons pivot rest ih =>
    have hall : (run ++ (pivot :: rest).toArray).toList.Perm items := by simpa using hperm
    refine (h.keeping hall (h.insertionPoint pivot run run.size (Nat.zero_le _) (Nat.le_refl _))).bind fun place s hs => ?_
    obtain ⟨⟨hplace, hcompared⟩, hI⟩ := hs
    have hinserted := perm_insert hplace pivot
    refine ih ?_ ?_ s hI
    · exact ((hinserted.append_right rest).trans List.perm_middle.symm).trans hperm
    · refine Uniform.perm ?_ hinserted.symm
      refine .of_forall (k := kind pivot) fun x hx => ?_
      rcases List.mem_cons.mp hx with rfl | hx
      · rfl
      · have hsize : 0 < run.size := by simpa using List.length_pos_of_mem hx
        obtain ⟨y, hy, hsame⟩ := hcompared hsize hsize
        exact (huniform x hx y hy).trans hsame.symm

theorem Comparing.finish (h : Comparing a kind I P less) {sorted : Array Value} (hperm : sorted.toList.Perm items) :
    Triple I (finish a sorted) (fun _ t => Holds a items t) (fun f t => Holds a items t ∧ P f t) := by
  intro s hs
  unfold Sort.finish
  cases hempty : (s.list a).isEmpty with
  | true => exact holds_setList (h.room hs) hperm
  | false => exact ⟨holds_setList (h.room hs) hperm, h.changed sorted hs hempty⟩

/-- A sort takes the elements out of the list. -/
theorem sortList_apply (less : Value → Value → Action Bool) (a : Address) (s : Store) :
    sortList less a s = (keeping a (s.list a) (frontRun less (s.list a).toList) >>= fun r =>
      insertAll less a r.1.toArray r.2 >>= fun sorted => finish a sorted) (s.setList a #[]) := rfl

/-- However a sort ends, the list has its elements again; and if it ends well, they are all of one kind. -/
theorem Comparing.sortList (h : Comparing a kind I P less) {s : Store} (hs : I (s.setList a #[])) :
    (sortList less a s).Splits (fun _ t => Holds a (s.list a).toList t ∧ Uniform kind (s.list a).toList)
      (fun f t => Holds a (s.list a).toList t ∧ P f t) := by
  have hfront := h.keeping (.refl (s.list a).toList) (h.frontRun (s.list a).toList) (s.setList a #[]) hs
  rw [sortList_apply]
  refine splits_bind hfront fun r t ht => ?_
  obtain ⟨⟨hperm, huniform⟩, hI⟩ := ht
  have hinsert := h.insertAll (show (r.1.toArray.toList ++ r.2).Perm (s.list a).toList from hperm) huniform
  refine splits_bind (hinsert t hI) fun sorted u hu => ?_
  exact Triple.mono (h.finish hu.1.1) (fun _ _ hheld => ⟨hheld, hu.1.2.perm hu.1.1⟩) (fun _ _ hheld => hheld) u hu.2

/-! ### The comparisons of programs -/

/-- How values are compared without a function: as numbers, as texts, or not at all. -/
inductive Comparable where
  | number | text | neither

/-- How a value is compared without a function. -/
def comparable : Value → Comparable
  | .int _ | .double _ => .number
  | .string _ => .text
  | _ => .neither

/-- A comparison ended with the error about values of the wrong type. -/
def Mismatches (f : Option Failure) (t : Store) : Prop := ∃ e, f = some (.raised e) ∧ (t.fault e).kind = "TypeMismatchError"

/-- A comparison without a function changes nothing, unless it raises an error because the values cannot be compared. -/
theorem naturalLess_cases (x y : Value) (s : Store) :
    (comparable x = comparable y ∧ ∃ b, naturalLess x y s = .done b s) ∨ ∃ m, naturalLess x y s = mismatch m s := by
  by_cases htexts : ∃ t u, x = .string t ∧ y = .string u
  · obtain ⟨t, u, rfl, rfl⟩ := htexts
    exact .inl ⟨rfl, _, rfl⟩
  · have hform : naturalLess x y =
        if x.isNumber && y.isNumber then pure (decide (NumberMethod.order x y < 0))
        else fun s => mismatch (.notComparable (x.typeName s) (y.typeName s)) s := by
      unfold naturalLess
      split
      · exact absurd ⟨_, _, rfl, rfl⟩ htexts
      · rfl
    rw [hform]
    cases hnumbers : x.isNumber && y.isNumber with
    | true =>
      rw [Bool.and_eq_true] at hnumbers
      have hnumber {v : Value} (hv : v.isNumber = true) : comparable v = .number := by
        cases v with
        | int _ | double _ => rfl
        | _ => cases hv
      exact .inl ⟨(hnumber hnumbers.1).trans (hnumber hnumbers.2).symm, _, rfl⟩
    | false => exact .inr ⟨_, rfl⟩

/-- Comparisons without a function leave an empty list empty, and they fail on values of different kinds. -/
theorem comparing_natural {s : Store} (ha : a < s.lists.size) :
    Comparing a comparable (fun t => t.lists = (s.setList a #[]).lists) Mismatches naturalLess where
  compares x y t ht := by
    rcases naturalLess_cases x y t with ⟨hkind, b, hdone⟩ | ⟨m, hfails⟩
    · rw [hdone]
      exact ⟨hkind, ht⟩
    · rw [hfails]
      exact ⟨ht, _, rfl, congrArg Fault.kind (t.fault_addError (.mismatch m))⟩
  room ht := by simpa [ht, Store.setList] using ha
  restored _ h := h
  changed _ ht hlist := by
    rw [Store.list, ht] at hlist
    simp [Store.setList, ha] at hlist

/-- Calls of functions may do anything but take the list out of the store. -/
theorem comparing_function {c : Caller} (hc : c.Keeps fun t => a < t.lists.size) (function : Value) :
    Comparing a (fun _ => ()) (fun t => a < t.lists.size) (fun _ _ => True) (functionLess c function) where
  compares x y := by
    have hkeeps : Keeps (fun t => a < t.lists.size) (functionLess c function x y) := by
      refine (hc function [x, y]).bind fun v => Keeps.bind ?_ fun n => keeps_pure _
      intro s hs
      cases v with
      | int n => exact ⟨trivial, hs⟩
      | _ => exact hs
    exact hkeeps.triple.mono (fun _ _ ht => ⟨rfl, ht⟩) (fun _ _ ht => ⟨ht, trivial⟩)
  room ht := ht
  restored _ _ := trivial
  changed _ _ _ := trivial

end Dartlet.Sort

namespace Dartlet

open Dartlet.Action

section Members

variable [Host] {e : Engine} {c : Caller} {depth level : Nat} {a : Address} {arguments : List Value} {s : Store}

theorem ListMethod.run_sort_natural (h : argument arguments 0 = .null) :
    ListMethod.sort.run c a arguments = Sort.sortList Sort.naturalLess a >>= fun _ => pure .null := by
  simp only [run, h]

theorem ListMethod.run_sort_function (h : argument arguments 0 ≠ .null) :
    ListMethod.sort.run c a arguments = functionArgument "sort" (argument arguments 0) >>= fun _ =>
      Sort.sortList (Sort.functionLess c (argument arguments 0)) a >>= fun _ => pure .null := by
  simp only [run]

/-- Actions that run alike beside themselves take no list out of the store. -/
theorem Comparison.Alike.lists_le {α β : Type} {Q : Store → Store → α → β → Prop} {x : Action α} {y : Action β}
    (h : plain.Alike false Q s s x y) : s.lists.size ≤ (x s).store.lists.size := by
  have hmatches := h (parallel_plain s)
  generalize x s = o at hmatches
  generalize y s = o' at hmatches
  cases hmatches with
  | done _ hf => exact hf.first.lists
  | raised _ hf => exact hf.first.lists
  | escaped _ hf => exact hf.first.lists
  | exhausted hf => exact hf.first.lists
  | gaveUp hw => cases hw

/-- No call takes a list out of the store. -/
theorem caller_keeps_list (level depth : Nat) (a : Address) :
    ((interpreter level).caller depth).Keeps fun t => a < t.lists.size := by
  intro function arguments s hs
  have hknown (v : Value) : v.Known (Comparison.plain.Known s) := Value.known_of_forall (Comparison.exact_known s) v
  have hle : s.lists.size ≤ ((interpreter level).call depth function arguments s).store.lists.size :=
    ((Comparison.agrees_plain level).call (hknown function) fun v (_ : v ∈ arguments) => hknown v).lists_le
  exact Outcome.meets_of_store (Nat.lt_of_lt_of_le hs hle)

/-- However sorting ends, the list has the elements that it had. -/
theorem ListMethod.run_sort_holds (hc : c.Keeps fun t => a < t.lists.size) (ha : a < s.lists.size) :
    (ListMethod.sort.run c a arguments s).Splits (fun _ => Sort.Holds a (s.list a).toList)
      (fun _ => Sort.Holds a (s.list a).toList) := by
  have hempty : a < (s.setList a #[]).lists.size := by simpa [Store.setList] using ha
  by_cases hnull : argument arguments 0 = .null
  · rw [run_sort_natural hnull]
    refine splits_bind ?_ fun _ => .pure fun _ ht => ht
    exact ((Sort.comparing_natural ha).sortList rfl).mono (fun _ _ h => h.1) (fun _ _ h => h.1)
  · rw [run_sort_function hnull]
    refine splits_bind (Q := fun _ t => t = s) ?_ fun _ => Triple.bind (fun t ht => ?_) fun _ => .pure fun _ ht => ht
    · have hcheck := inspects_functionArgument "sort" (argument arguments 0) s
      generalize functionArgument "sort" (argument arguments 0) s = o at hcheck
      cases hcheck with
      | done same => exact same
      | raised => exact .refl _
      | escaped => exact .refl _
    · subst ht
      exact ((Sort.comparing_function hc _).sortList hempty).mono (fun _ _ h => h.1) (fun _ _ h => h.1)

/-- However a call of `sort` ends, with whatever arguments, the list has the elements that it had. -/
theorem invokeMember_sort_holds (level : Nat) (ha : a < s.lists.size) :
    Sort.Holds a (s.list a).toList (invokeMember (interpreter level) depth (.list a) "sort" arguments s).store := by
  have hsame : Sort.Holds a (s.list a).toList s := .refl _
  rw [invokeMember_method (m := .list .sort) rfl rfl]
  refine Outcome.Splits.store (splits_bind (Q := fun _ t => t = s) ?_ fun _ => fun t ht => ?_)
  · have hcheck := inspects_checkArity (some "sort") (Method.list .sort).arity arguments.length s
    generalize checkArity (some "sort") (Method.list .sort).arity arguments.length s = o at hcheck
    cases hcheck with
    | done same => exact same
    | raised => exact hsame
    | escaped => exact hsame
  · subst ht
    unfold callHost
    split
    · exact hsame
    · exact splits_delegate (ListMethod.run_sort_holds (caller_keeps_list level (depth + 1) a) ha) fun _ _ h => h

end Members
end Dartlet
