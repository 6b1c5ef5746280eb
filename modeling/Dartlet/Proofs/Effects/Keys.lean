import Dartlet.Equality
import Dartlet.Store

/-!
# Sets and maps without equal keys

No two members of a set and no two keys of a map are equal. Adding a member or storing an entry keeps it
so, because both first look for an equal one; removing keeps it so in any case.
-/

namespace Dartlet

theorem Number.compareFloat?_swap (x y : Float) : compareFloat? y x = (compareFloat? x y).map Ordering.swap := by
  unfold compareFloat?
  cases decode x with
  | notANumber => cases decode y <;> rfl
  | infinite a =>
    cases decode y with
    | infinite b => cases a <;> cases b <;> rfl
    | notANumber => rfl
    | finite b n q => cases a <;> rfl
  | finite a m p =>
    cases decode y with
    | infinite b => cases b <;> rfl
    | notANumber => rfl
    | finite b n q => simp [Int.min_comm q p, Int.compare_swap]

namespace Value

theorem compareNumbers?_swap (a b : Value) : b.compareNumbers? a = (a.compareNumbers? b).map Ordering.swap := by
  cases a with
  | int m =>
    cases b with
    | int n => simp [compareNumbers?, Int.compare_swap]
    | _ => rfl
  | double x =>
    cases b with
    | int n => simp [compareNumbers?, Function.comp_def]
    | double y => exact Number.compareFloat?_swap x y
    | _ => rfl
  | _ => cases b <;> rfl

theorem equals_comm (a b : Value) : a.equals b = b.equals a := by
  have hnumbers : (a.compareNumbers? b == some .eq) = (b.compareNumbers? a == some .eq) := by
    rw [compareNumbers?_swap a b]
    cases a.compareNumbers? b with
    | none => rfl
    | some o => cases o <;> rfl
  cases a <;> cases b <;> first | exact hnumbers | simp only [equals, Bool.beq_comm]

/-- Maps and sets compare their keys as `==` compares values. -/
@[simp] theorem sameKey_eq_equals (a b : Value) : a.sameKey b = a.equals b := by
  cases a with
  | int m =>
    cases b with
    | int n =>
      change (m == n) = (some (compare m n) == some .eq)
      rw [Bool.eq_iff_iff, beq_iff_eq, beq_iff_eq, Option.some.injEq, Int.compare_eq_eq]
    | _ => rfl
  | double x =>
    cases b with
    | int n =>
      change (Number.compareInt? n x == some .eq) = ((Number.compareInt? n x).map Ordering.swap == some .eq)
      cases Number.compareInt? n x with
      | none => rfl
      | some o => cases o <;> rfl
    | _ => rfl
  | _ => cases b <;> rfl

end Value

namespace Members

variable {members : List Value}

/-- Values of which no two are equal. -/
def Distinct (members : List Value) : Prop := members.Pairwise (fun a b => a.equals b = false)

theorem has_eq_any (members : List Value) (v : Value) : has members v = members.any (fun m => m.equals v) := by
  simp [has]

theorem has_iff {v : Value} : has members v = true ↔ ∃ m ∈ members, m.equals v = true := by
  simp [has]

theorem has_eq_false {v : Value} : has members v = false ↔ ∀ m ∈ members, m.equals v = false := by
  simp [has]

theorem distinct_nil : Distinct [] := List.Pairwise.nil

theorem Distinct.append {v : Value} (h : Distinct members) (hv : has members v = false) : Distinct (members ++ [v]) :=
  List.pairwise_append.mpr ⟨h, List.pairwise_singleton _ _, by simpa using has_eq_false.mp hv⟩

theorem Distinct.add (h : Distinct members) (v : Value) : Distinct (add members v) := by
  unfold Members.add
  split
  · exact h
  · exact h.append (Bool.eq_false_iff.mpr ‹_›)

theorem Distinct.remove (h : Distinct members) (v : Value) : Distinct (remove members v) :=
  List.Pairwise.sublist List.eraseP_sublist h

theorem Distinct.foldl_add (h : Distinct members) (values : List Value) : Distinct (values.foldl Members.add members) := by
  induction values generalizing members with
  | nil => exact h
  | cons v rest ih => exact ih (h.add v)

theorem distinct_ofList (values : List Value) : Distinct (ofList values) := distinct_nil.foldl_add values

/-- Of two different places of a set without equal members, neither holds what equals the other. -/
theorem Distinct.getElem_ne (h : Distinct members) {i j : Nat} (hi : i < members.length) (hj : j < members.length)
    (hne : i ≠ j) : (members[i]).equals members[j] = false := by
  rcases Nat.lt_or_gt_of_ne hne with hlt | hlt
  · exact List.pairwise_iff_getElem.mp h i j hi hj hlt
  · rw [Value.equals_comm]
    exact List.pairwise_iff_getElem.mp h j i hj hi hlt

end Members

namespace Entries

variable {entries : List (Value × Value)}

/-- Entries of which no two have equal keys. -/
def Distinct (entries : List (Value × Value)) : Prop := Members.Distinct (entries.map Prod.fst)

theorem distinct_nil : Distinct [] := Members.distinct_nil

theorem put_cons (key value : Value) (e : Value × Value) (rest : List (Value × Value)) :
    put key value (e :: rest) = if e.1.equals key then (e.1, value) :: rest else e :: put key value rest := by
  rw [put, Value.sameKey_eq_equals]

/-- Storing an entry does to the keys what adding a member does to a set. -/
theorem keys_put (key value : Value) (entries : List (Value × Value)) :
    (put key value entries).map Prod.fst = Members.add (entries.map Prod.fst) key := by
  induction entries with
  | nil => rfl
  | cons e rest ih =>
    by_cases he : e.1.equals key = true
    · simp [put, Members.add, Members.has, he]
    · have hhas : Members.has (e.1 :: rest.map Prod.fst) key = Members.has (rest.map Prod.fst) key := by
        simp [Members.has, he]
      rw [put_cons, if_neg he, List.map_cons, List.map_cons, ih, Members.add, Members.add, hhas]
      split <;> rfl

theorem Distinct.put (h : Distinct entries) (key value : Value) : Distinct (put key value entries) := by
  rw [Distinct, keys_put]
  exact Members.Distinct.add h key

theorem Distinct.remove (h : Distinct entries) (key : Value) : Distinct (remove entries key) :=
  List.Pairwise.sublist (List.eraseP_sublist.map _) h

theorem Distinct.putAll (h : Distinct entries) (more : List (Value × Value)) : Distinct (putAll entries more) := by
  unfold Entries.putAll
  induction more generalizing entries with
  | nil => exact h
  | cons e rest ih => exact ih (h.put e.1 e.2)

end Entries

/-- A store in which no set has two equal members and no map two equal keys. -/
structure Store.DistinctKeys (s : Store) : Prop where
  sets : ∀ members ∈ s.sets, Members.Distinct members
  maps : ∀ entries ∈ s.maps, Entries.Distinct entries

namespace Store.DistinctKeys

variable {s t : Store}

/-- Only the sets and the maps matter. -/
theorem of_same (hsets : t.sets = s.sets) (hmaps : t.maps = s.maps) (h : s.DistinctKeys) : t.DistinctKeys :=
  ⟨hsets ▸ h.sets, hmaps ▸ h.maps⟩

theorem set (h : s.DistinctKeys) (a : Address) : Members.Distinct (s.set a) := by
  unfold Store.set
  cases ha : s.sets[a]? with
  | none => exact Members.distinct_nil
  | some members => exact h.sets members (Array.mem_of_getElem? ha)

theorem map (h : s.DistinctKeys) (a : Address) : Entries.Distinct (s.map a) := by
  unfold Store.map
  cases ha : s.maps[a]? with
  | none => exact Entries.distinct_nil
  | some entries => exact h.maps entries (Array.mem_of_getElem? ha)

theorem addSet (h : s.DistinctKeys) {members : List Value} (hmembers : Members.Distinct members) :
    (s.addSet members).2.DistinctKeys := by
  refine ⟨fun ms hms => ?_, h.maps⟩
  rcases Array.mem_push.mp hms with hms | rfl
  · exact h.sets ms hms
  · exact hmembers

theorem addMap (h : s.DistinctKeys) {entries : List (Value × Value)} (hentries : Entries.Distinct entries) :
    (s.addMap entries).2.DistinctKeys := by
  refine ⟨h.sets, fun es hes => ?_⟩
  rcases Array.mem_push.mp hes with hes | rfl
  · exact h.maps es hes
  · exact hentries

theorem setSet (h : s.DistinctKeys) (a : Address) {members : List Value} (hmembers : Members.Distinct members) :
    (s.setSet a members).DistinctKeys := by
  refine ⟨fun ms hms => ?_, h.maps⟩
  rcases Array.mem_or_eq_of_mem_setIfInBounds hms with hms | rfl
  · exact h.sets ms hms
  · exact hmembers

theorem setMap (h : s.DistinctKeys) (a : Address) {entries : List (Value × Value)} (hentries : Entries.Distinct entries) :
    (s.setMap a entries).DistinctKeys := by
  refine ⟨h.sets, fun es hes => ?_⟩
  rcases Array.mem_or_eq_of_mem_setIfInBounds hes with hes | rfl
  · exact h.maps es hes
  · exact hentries

end Store.DistinctKeys
end Dartlet
