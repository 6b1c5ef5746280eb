import Mathlib.Data.List.Basic
import Mathlib.Data.List.Perm.Basic

/-!
# Lists in order

A comparison may tell that values come before others and that values tie. A list sorts another one stably if it has the
same values, none of them before one that it should follow, and those that tie as they were. A run that rises is sorted, one
that falls is sorted the other way round, and a value is inserted into a sorted list behind all that are not above it.
-/

namespace Dartlet

variable {α : Type}

/-- A comparison orders the values with a property: of any two of them one is not above the other, consistently. -/
structure TotalPreorderOn (E : α → Prop) (le : α → α → Bool) : Prop where
  total : ∀ {x y}, E x → E y → le x y = true ∨ le y x = true
  trans : ∀ {x y z}, E x → E y → E z → le x y = true → le y z = true → le x z = true

/-- Whether neither of two values is above the other. -/
def tied (le : α → α → Bool) (x y : α) : Bool := le x y && le y x

/-- A list has the values of another one in order, and those that tie in their former order. -/
structure SortsStably (E : α → Prop) (le : α → α → Bool) (sorted items : List α) : Prop where
  ordered : sorted.Pairwise fun x y => le x y = true
  perm : sorted.Perm items
  stable : ∀ v, E v → sorted.filter (tied le v) = items.filter (tied le v)

/-- Where a value belongs in a sorted list: what is before the lower place is not above it, what is from the higher place on
is. -/
structure BelongsBetween (le : α → α → Bool) (run : List α) (pivot : α) (low high : ℕ) : Prop where
  below : ∀ {i x}, i < low → run[i]? = some x → le x pivot = true
  above : ∀ {i x}, high ≤ i → run[i]? = some x → le x pivot = false

namespace TotalPreorderOn

variable {E : α → Prop} {le : α → α → Bool} {x y z : α}

theorem refl (h : TotalPreorderOn E le) (hx : E x) : le x x = true := (h.total hx hx).elim id id

theorem le_of_not_le (h : TotalPreorderOn E le) (hx : E x) (hy : E y) (hxy : le x y = false) : le y x = true :=
  (h.total hx hy).resolve_left (Bool.eq_false_iff.mp hxy)

/-- What falls goes on falling, and what rises goes on rising. -/
theorem goesOn (h : TotalPreorderOn E le) (hx : E x) (hy : E y) (hz : E z) {falling : Bool} (hxy : le x y = !falling)
    (hyz : le y z = !falling) : le x z = !falling := by
  cases falling with
  | false => exact h.trans hx hy hz hxy hyz
  | true =>
    by_contra hxz
    have hxz : le x z = true := (Bool.not_eq_false _).mp hxz
    have hyx : le y x = true := h.le_of_not_le hx hy hxy
    exact absurd (h.trans hy hx hz hyx hxz) (Bool.eq_false_iff.mp hyz)

/-- Two values that tie with a third one are in order. -/
theorem le_of_tied (h : TotalPreorderOn E le) (hx : E x) (hy : E y) (hz : E z) (hzx : tied le z x = true)
    (hzy : tied le z y = true) : le x y = true := by
  rw [tied, Bool.and_eq_true] at hzx hzy
  exact h.trans hx hz hy hzx.2 hzy.1

end TotalPreorderOn

namespace SortsStably

variable {E : α → Prop} {le : α → α → Bool} {run items : List α} {pivot : α}

theorem of_rising (h : items.Pairwise fun x y => le x y = true) : SortsStably E le items items :=
  ⟨h, .refl _, fun _ _ => rfl⟩

theorem of_falling (hle : TotalPreorderOn E le) (hE : ∀ x ∈ items, E x) (h : items.Pairwise fun x y => le x y = false) :
    SortsStably E le items.reverse items where
  ordered := by
    rw [List.pairwise_reverse]
    refine h.imp_of_mem fun {x y} hx hy hxy => ?_
    exact hle.le_of_not_le (hE x hx) (hE y hy) hxy
  perm := List.reverse_perm items
  stable v hv := by
    induction items with
    | nil => rfl
    | cons x rest ih =>
      obtain ⟨hfirst, hrest⟩ := List.pairwise_cons.mp h
      have ih := ih (fun y hy => hE y (List.mem_cons_of_mem x hy)) hrest
      rw [List.reverse_cons, List.filter_append, ih]
      by_cases hx : tied le v x = true
      · -- nothing else ties with what ties with the first element
        have hnone : rest.filter (tied le v) = [] := by
          refine List.filter_eq_nil_iff.mpr fun y hy htied => ?_
          have hxy := hle.le_of_tied (hE x List.mem_cons_self) (hE y (List.mem_cons_of_mem x hy)) hv hx htied
          rw [hfirst y hy] at hxy
          cases hxy
        rw [List.filter_cons_of_pos hx, List.filter_cons_of_pos hx, hnone]
        rfl
      · rw [List.filter_cons_of_neg hx, List.filter_cons_of_neg hx, List.filter_nil, List.append_nil]

/-- A value that is inserted where it belongs, behind all that tie with it. -/
theorem insert (hle : TotalPreorderOn E le) (h : SortsStably E le run items) (hE : ∀ x ∈ items, E x) (hpivot : E pivot)
    {place : ℕ} (hplace : BelongsBetween le run pivot place place) :
    SortsStably E le (run.take place ++ pivot :: run.drop place) (items ++ [pivot]) := by
  have hrun : ∀ x ∈ run, E x := fun x hx => hE x (h.perm.mem_iff.mp hx)
  have hbelow : ∀ x ∈ run.take place, le x pivot = true := by
    intro x hx
    obtain ⟨i, hi, rfl⟩ := List.mem_take_iff_getElem.mp hx
    exact hplace.below (by omega) (List.getElem?_eq_getElem _)
  have habove : ∀ x ∈ run.drop place, le x pivot = false := by
    intro x hx
    obtain ⟨i, hi, rfl⟩ := List.mem_drop_iff_getElem.mp hx
    exact hplace.above (Nat.le_add_right place i) (List.getElem?_eq_getElem _)
  have hordered := h.ordered
  rw [← List.take_append_drop place run] at hordered
  obtain ⟨htake, hdrop, hacross⟩ := List.pairwise_append.mp hordered
  refine ⟨?ordered, ?perm, fun v hv => ?stable⟩
  case ordered =>
    refine List.pairwise_append.mpr ⟨htake, List.pairwise_cons.mpr ⟨fun x hx => ?_, hdrop⟩, fun x hx y hy => ?_⟩
    · exact hle.le_of_not_le (hrun x (List.mem_of_mem_drop hx)) hpivot (habove x hx)
    · rcases List.mem_cons.mp hy with rfl | hy
      · exact hbelow x hx
      · exact hacross x hx y hy
  case perm =>
    refine List.perm_middle.trans ?_
    rw [List.take_append_drop]
    exact (h.perm.cons pivot).trans (List.perm_append_singleton pivot items).symm
  case stable =>
    have hsame := h.stable v hv
    rw [← List.take_append_drop place run, List.filter_append] at hsame
    rw [List.filter_append, List.filter_append, ← hsame]
    by_cases htied : tied le v pivot = true
    · have hnone : (run.drop place).filter (tied le v) = [] := by
        refine List.filter_eq_nil_iff.mpr fun x hx htied' => ?_
        have hx' := hle.le_of_tied (hrun x (List.mem_of_mem_drop hx)) hpivot hv htied' htied
        rw [habove x hx] at hx'
        cases hx'
      rw [List.filter_cons_of_pos htied, hnone, List.filter_cons_of_pos htied, List.append_nil, List.filter_nil]
    · rw [List.filter_cons_of_neg htied, List.filter_cons_of_neg htied, List.filter_nil, List.append_nil]

end SortsStably

namespace BelongsBetween

variable {E : α → Prop} {le : α → α → Bool} {run : List α} {pivot y : α} {low middle high : ℕ}

theorem whole (le : α → α → Bool) (run : List α) (pivot : α) : BelongsBetween le run pivot 0 run.length where
  below hi := absurd hi (Nat.not_lt_zero _)
  above hi hx := by
    rw [List.getElem?_eq_none hi] at hx
    cases hx

theorem le_getElem? (hle : TotalPreorderOn E le) (hrun : ∀ x ∈ run, E x) (h : run.Pairwise fun x y => le x y = true)
    {i j : ℕ} (hij : i ≤ j) {x z : α} (hx : run[i]? = some x) (hz : run[j]? = some z) : le x z = true := by
  obtain ⟨hi, rfl⟩ := List.getElem?_eq_some_iff.mp hx
  obtain ⟨hj, rfl⟩ := List.getElem?_eq_some_iff.mp hz
  rcases Nat.eq_or_lt_of_le hij with rfl | hlt
  · exact hle.refl (hrun _ (List.getElem_mem hi))
  · exact List.pairwise_iff_getElem.mp h i j hi hj hlt

/-- An element that is above the value is a higher bound. -/
theorem lower (hle : TotalPreorderOn E le) (hrun : ∀ x ∈ run, E x) (hpivot : E pivot)
    (hordered : run.Pairwise fun x y => le x y = true) (h : BelongsBetween le run pivot low high)
    (hy : run[middle]? = some y) (habove : le y pivot = false) : BelongsBetween le run pivot low middle where
  below := h.below
  above {i x} hi hx := by
    by_contra hxpivot
    have hyx := le_getElem? hle hrun hordered hi hy hx
    have hypivot := hle.trans (hrun y (List.mem_of_getElem? hy)) (hrun x (List.mem_of_getElem? hx)) hpivot hyx
      ((Bool.not_eq_false _).mp hxpivot)
    exact absurd hypivot (Bool.eq_false_iff.mp habove)

/-- An element that is not above the value is a lower bound. -/
theorem raise (hle : TotalPreorderOn E le) (hrun : ∀ x ∈ run, E x) (hpivot : E pivot)
    (hordered : run.Pairwise fun x y => le x y = true) (h : BelongsBetween le run pivot low high)
    (hy : run[middle]? = some y) (hbelow : le y pivot = true) : BelongsBetween le run pivot (middle + 1) high where
  below {i x} hi hx := by
    have hxy := le_getElem? hle hrun hordered (Nat.le_of_lt_succ hi) hx hy
    exact hle.trans (hrun x (List.mem_of_getElem? hx)) (hrun y (List.mem_of_getElem? hy)) hpivot hxy hbelow
  above := h.above

end BelongsBetween
end Dartlet
