import Mathlib.Data.List.Count
import Mathlib.Data.List.Perm.Subperm
import Dartlet.Render

/-!
# Going through what a value holds

Showing a value goes through the collections that it holds, and so does the host when it refuses to show it. Both take
a collection that is being shown further out as it is, and so they count down from the number of collections without
ever reaching the end: with a higher limit they come to the same.
-/

namespace Dartlet.Value

set_option linter.unusedSectionVars false

/-- The marker of a collection. -/
def marker? : Value → Option Marker
  | .list a => some (.list a)
  | .iterable a => some (.iterable a)
  | .set a => some (.set a)
  | .map a => some (.map a)
  | _ => none

namespace Marker

/-- The values in a collection, in their order. Those of a map are its keys, each before its value. -/
def elements (s : Store) : Marker → List Value
  | list a => (s.list a).toList
  | iterable a => s.iterable a
  | set a => s.set a
  | map a => (s.map a).flatMap fun e => [e.1, e.2]

/-- What stands for a collection that is being shown further out. -/
def elided : Marker → String
  | list _ | iterable _ => "[...]"
  | set _ | map _ => "\x7b...\x7d"

/-- The texts of keys, each with that of its value. -/
def pairs : List String → List String
  | key :: value :: rest => (key ++ ": " ++ value) :: pairs rest
  | rest => rest

/-- A collection in full, given the texts of what is in it. -/
def enclose (texts : List String) : Marker → String
  | list _ => "[" ++ ", ".intercalate texts ++ "]"
  | iterable _ => "(" ++ ", ".intercalate texts ++ ")"
  | set _ => "\x7b" ++ ", ".intercalate texts ++ "\x7d"
  | map _ => "\x7b" ++ ", ".intercalate (pairs texts) ++ "\x7d"

end Marker

/-- A way to go through the parts of a value: it says what a value comes to that is no collection, and what a collection
comes to by what its elements do while it is being shown too. Those of one that is being shown already do not count. -/
structure GoesThrough {β : Type} (s : Store) (whole : List Marker → Marker → List β → β)
    (F : Nat → List Marker → Value → β) : Prop where
  plain : ∀ {v}, v.marker? = none → ∀ limit limit' path path', F limit path v = F limit' path' v
  step : ∀ {v m}, v.marker? = some m → ∀ limit path,
    F (limit + 1) path v = whole path m ((m.elements s).map (F limit (m :: path)))
  again : ∀ {path m}, m ∈ path → ∀ rs rs', whole path m rs = whole path m rs'

/-- The markers of all collections of a store. -/
def markers (s : Store) : List Marker :=
  (List.range s.lists.size).map .list ++ (List.range s.iterables.size).map .iterable ++
    (List.range s.sets.size).map .set ++ (List.range s.maps.size).map .map

variable {s : Store} {v w : Value} {m : Marker}

theorem length_markers (s : Store) : (markers s).length + 1 = nestingLimit s := by
  simp [markers, nestingLimit]
  omega

/-- Distinct collections of a store are not more than it has. -/
theorem length_le_of_nodup {shown : List Marker} (hnodup : shown.Nodup) (hshown : shown ⊆ markers s) :
    shown.length ≤ (markers s).length :=
  (List.subperm_of_subset hnodup hshown).length_le

theorem list_mem_markers {a : Nat} (h : (s.list a).toList ≠ []) : Marker.list a ∈ markers s := by
  have ha : a < s.lists.size := by
    by_contra hlt
    exact h (by simp [Store.list, Array.getElem?_eq_none (Nat.not_lt.mp hlt)])
  simp [markers, ha]

theorem iterable_mem_markers {a : Nat} (h : s.iterable a ≠ []) : Marker.iterable a ∈ markers s := by
  have ha : a < s.iterables.size := by
    by_contra hlt
    exact h (by simp [Store.iterable, Array.getElem?_eq_none (Nat.not_lt.mp hlt)])
  simp [markers, ha]

theorem set_mem_markers {a : Nat} (h : s.set a ≠ []) : Marker.set a ∈ markers s := by
  have ha : a < s.sets.size := by
    by_contra hlt
    exact h (by simp [Store.set, Array.getElem?_eq_none (Nat.not_lt.mp hlt)])
  simp [markers, ha]

theorem map_mem_markers {a : Nat} (h : s.map a ≠ []) : Marker.map a ∈ markers s := by
  have ha : a < s.maps.size := by
    by_contra hlt
    exact h (by simp [Store.map, Array.getElem?_eq_none (Nat.not_lt.mp hlt)])
  simp [markers, ha]

/-- Only collections of the store have elements. -/
theorem Marker.mem_markers (h : w ∈ m.elements s) : m ∈ markers s := by
  cases m with
  | list a => exact list_mem_markers (List.ne_nil_of_mem h)
  | iterable a => exact iterable_mem_markers (List.ne_nil_of_mem h)
  | set a => exact set_mem_markers (List.ne_nil_of_mem h)
  | map a =>
    obtain ⟨e, he, -⟩ := List.mem_flatMap.mp h
    exact map_mem_markers (List.ne_nil_of_mem he)

/-- Collections that are being shown are never gone into again, so every limit above the number of collections that
are not being shown comes to the same. -/
theorem GoesThrough.eq {β : Type} {whole : List Marker → Marker → List β → β} {F : Nat → List Marker → Value → β}
    (hF : GoesThrough s whole F) {n k : Nat} {shown : List Marker} (hnodup : shown.Nodup) (hshown : shown ⊆ markers s)
    (hn : (markers s).length < n + shown.length) (hk : (markers s).length < k + shown.length) (v : Value) :
    F n shown v = F k shown v := by
  have hle := length_le_of_nodup hnodup hshown
  induction n generalizing k shown v with
  | zero => omega
  | succ n ih =>
    cases k with
    | zero => omega
    | succ k =>
      cases hv : v.marker? with
      | none => exact hF.plain hv _ _ _ _
      | some m =>
        rw [hF.step hv, hF.step hv]
        by_cases hagain : m ∈ shown
        · exact hF.again hagain _ _
        · -- one collection more is being shown
          refine congrArg (whole shown m) (List.map_congr_left fun w hw => ?_)
          have hnodup' : (m :: shown).Nodup := List.nodup_cons.mpr ⟨hagain, hnodup⟩
          have hshown' : m :: shown ⊆ markers s := List.cons_subset.mpr ⟨Marker.mem_markers hw, hshown⟩
          have hlength : (m :: shown).length = shown.length + 1 := List.length_cons
          exact ih hnodup' hshown' (by omega) (by omega) w (length_le_of_nodup hnodup' hshown')

theorem GoesThrough.of_le {β : Type} {whole : List Marker → Marker → List β → β} {F : Nat → List Marker → Value → β}
    (hF : GoesThrough s whole F) {limit : Nat} (h : nestingLimit s ≤ limit) (v : Value) :
    F limit [] v = F (nestingLimit s) [] v := by
  have hmarkers := length_markers s
  refine hF.eq List.nodup_nil (List.nil_subset _) ?_ ?_ v <;> simp only [List.length_nil] <;> omega

/-! ### Showing -/

theorem Marker.pairs_flatMap (f : Value → String) (entries : List (Value × Value)) :
    pairs ((entries.flatMap fun e => [e.1, e.2]).map f) = entries.map fun e => f e.1 ++ ": " ++ f e.2 := by
  induction entries with
  | nil => rfl
  | cons e rest ih => exact congrArg (_ :: ·) ih


/-- What is no collection is shown without regard to limits and to what is being shown. -/
theorem textWithin_plain (hv : v.marker? = none) (limit : Nat) (path : List Marker) : textWithin s limit path v = v.text s := by
  cases v with
  | list _ | iterable _ | set _ | map _ => cases hv
  | _ => simp only [text, textWithin]

/-- What a collection is shown as, given the texts of its elements. -/
def showCollection (path : List Marker) (m : Marker) (texts : List String) : String :=
  if m ∈ path then m.elided else m.enclose texts

/-- One step into a collection. -/
theorem textWithin_collection (hv : v.marker? = some m) (limit : Nat) (path : List Marker) :
    textWithin s (limit + 1) path v = showCollection path m ((m.elements s).map (textWithin s limit (m :: path))) := by
  cases v with
  | list a =>
    cases hv
    rfl
  | iterable a =>
    cases hv
    rfl
  | set a =>
    cases hv
    rfl
  | map a =>
    cases hv
    simp only [textWithin, showCollection, Marker.elements, Marker.enclose, Marker.pairs_flatMap]
    rfl
  | _ => cases hv

theorem goesThrough_textWithin (s : Store) : GoesThrough s showCollection (textWithin s) where
  plain hv limit limit' path path' := by rw [textWithin_plain hv, textWithin_plain hv]
  step hv limit path := textWithin_collection hv limit path
  again hagain _ _ := by rw [showCollection, if_pos hagain, showCollection, if_pos hagain]

/-- Every limit from the number of collections on suffices to show a value. -/
theorem textWithin_of_le {limit : Nat} (h : nestingLimit s ≤ limit) (v : Value) : textWithin s limit [] v = v.text s :=
  (goesThrough_textWithin s).of_le h v

/-! ### Refusing to show -/

variable [Host]

/-- Why the host does not show a collection, given why it does not show its elements. -/
def refuseCollection (path : List Marker) (m : Marker) (refusals : List (Option HostFailure)) : Option HostFailure :=
  if m ∈ path then none
  else if Host.nestingLimit ≤ path.length then some .endlessNesting
  else refusals.findSome? id

theorem findSome?_map_id {α β : Type} (f : α → Option β) (xs : List α) : (xs.map f).findSome? id = xs.findSome? f := by
  rw [List.findSome?_map]
  rfl

theorem findSome?_pairs (f : Value → Option HostFailure) (entries : List (Value × Value)) :
    (entries.flatMap fun e => [e.1, e.2]).findSome? f = entries.findSome? fun e => (f e.1).or (f e.2) := by
  induction entries with
  | nil => rfl
  | cons e rest ih =>
    simp only [List.flatMap_cons, List.cons_append, List.nil_append, List.findSome?_cons, ih]
    cases f e.1 <;> cases f e.2 <;> rfl

theorem refusalWithin_plain (hv : v.marker? = none) (limit : Nat) (path : List Marker) :
    refusalWithin s limit path v = v.refusal? s := by
  cases v with
  | list _ | iterable _ | set _ | map _ => cases hv
  | _ => simp only [refusal?, refusalWithin]

theorem refusalWithin_collection (hv : v.marker? = some m) (limit : Nat) (path : List Marker) :
    refusalWithin s (limit + 1) path v =
      refuseCollection path m ((m.elements s).map (refusalWithin s limit (m :: path))) := by
  rw [refuseCollection, findSome?_map_id]
  cases v with
  | list a =>
    cases hv
    rfl
  | iterable a =>
    cases hv
    rfl
  | set a =>
    cases hv
    rfl
  | map a =>
    cases hv
    simp only [refusalWithin, Marker.elements, findSome?_pairs]
  | _ => cases hv

theorem goesThrough_refusalWithin (s : Store) : GoesThrough s refuseCollection (refusalWithin s) where
  plain hv limit limit' path path' := by rw [refusalWithin_plain hv, refusalWithin_plain hv]
  step hv limit path := refusalWithin_collection hv limit path
  again hagain _ _ := by rw [refuseCollection, if_pos hagain, refuseCollection, if_pos hagain]

/-- What is no collection is refused for its digits only. -/
theorem refusal?_of_plain {f : HostFailure} (hv : v.marker? = none) (h : v.refusal? s = some f) :
    f = .lengthyNumber Host.digitLimit := by
  cases v with
  | list _ | iterable _ | set _ | map _ => cases hv
  | int _ | error _ | object _ =>
    simp only [refusal?, refusalWithin, Option.ite_none_right_eq_some, Option.some.injEq] at h
    exact h.2.symm
  | _ => simp only [refusal?, refusalWithin, reduceCtorEq] at h

/-- There are two reasons not to show a value: too many digits, and collections that nest too deep. -/
theorem refusalWithin_cases {limit : Nat} {path : List Marker} {f : HostFailure}
    (h : refusalWithin s limit path v = some f) : f = .lengthyNumber Host.digitLimit ∨ f = .endlessNesting := by
  induction limit generalizing path v with
  | zero =>
    cases hv : v.marker? with
    | none => exact .inl (refusal?_of_plain hv (refusalWithin_plain hv 0 path ▸ h))
    | some m =>
      cases v with
      | list _ | iterable _ | set _ | map _ => simp only [refusalWithin, reduceCtorEq] at h
      | _ => cases hv
  | succ limit ih =>
    cases hv : v.marker? with
    | none => exact .inl (refusal?_of_plain hv (refusalWithin_plain hv _ path ▸ h))
    | some m =>
      rw [refusalWithin_collection hv, refuseCollection, findSome?_map_id] at h
      split at h
      · cases h
      · split at h
        · exact .inr (Option.some.inj h).symm
        · obtain ⟨w, -, hw⟩ := List.exists_of_findSome?_eq_some h
          exact ih hw

theorem refusalWithin_of_le {limit : Nat} (h : nestingLimit s ≤ limit) (v : Value) :
    refusalWithin s limit [] v = v.refusal? s :=
  (goesThrough_refusalWithin s).of_le h v

end Dartlet.Value
