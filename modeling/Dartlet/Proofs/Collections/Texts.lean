import Dartlet.Proofs.Effects.Stable
import Dartlet.Proofs.Numbers.Digits
import Dartlet.Proofs.Parallel.Showing

/-!
# Texts of collections that hold themselves

A value is shown by its parts, and a collection that is being shown further out is elided. This is told here by rules
without a limit on how deep collections nest, so that what can be shown by them is shown in finitely many steps. The rules
show every value of every store in exactly one way, and that is its text. The host writes the text, unless something that
occurs in the value has too many digits or is too far inside.
-/

namespace Dartlet

open Dartlet.Action

namespace Value

/-- A text shows a value while the collections of a path are being shown: a collection of the path is elided, and every
other one is shown in full, by its elements in their order, while it is being shown itself. -/
inductive Shows (s : Store) : List Marker → Value → String → Prop where
  | plain {path v} (data : v.marker? = none) : Shows s path v (v.text s)
  | elided {path v m} (collection : v.marker? = some m) (again : m ∈ path) : Shows s path v m.elided
  | whole {path v m} {texts : Value → String} (collection : v.marker? = some m) (new : m ∉ path)
      (each : ∀ w ∈ m.elements s, Shows s (m :: path) w (texts w)) : Shows s path v (m.enclose ((m.elements s).map texts))

/-- Where values occur when a value is shown while the collections of `base` are: with which collections being shown, the
innermost first. -/
inductive Occurs (s : Store) (base : List Marker) (v : Value) : List Marker → Value → Prop where
  | root : Occurs s base v base v
  | inside {path w m u} (outer : Occurs s base v path w) (collection : w.marker? = some m) (new : m ∉ path)
      (element : u ∈ m.elements s) : Occurs s base v (m :: path) u

/-- Whether the host writes what occurs somewhere: a collection is not too far inside, unless it is elided, and whatever
else occurs has not too many digits. -/
def Writable [Host] (s : Store) (path : List Marker) (w : Value) : Prop :=
  match w.marker? with
  | none => w.refusal? s = none
  | some m => m ∈ path ∨ path.length < Host.nestingLimit

variable {s : Store} {base path : List Marker} {v w : Value} {m : Marker} {t t' : String}

/-- The collections of a store that are not on a path. -/
def unopened (s : Store) (path : List Marker) : List Marker := (markers s).filter fun m => m ∉ path

theorem length_unopened_lt (s : Store) (path : List Marker) : (unopened s path).length < nestingLimit s := by
  rw [← length_markers]
  exact Nat.lt_succ_of_le (List.length_filter_le _ _)

/-- Each step into a collection leaves fewer that are not being shown. -/
theorem length_unopened_cons (hm : m ∈ markers s) (hnew : m ∉ path) :
    (unopened s (m :: path)).length < (unopened s path).length := by
  have hfewer : unopened s (m :: path) = (unopened s path).filter (· ≠ m) := by
    rw [unopened, unopened, List.filter_filter]
    exact List.filter_congr fun k _ => by simp
  rw [hfewer, List.length_filter_lt_length_iff_exists]
  exact ⟨m, List.mem_filter.mpr ⟨hm, by simpa using hnew⟩, by simp⟩

/-- A limit above the number of collections that are not being shown suffices to show a value. -/
theorem shows_textWithin {limit : Nat} (hlimit : (unopened s path).length < limit) (v : Value) :
    Shows s path v (textWithin s limit path v) := by
  induction limit generalizing path v with
  | zero => exact absurd hlimit (Nat.not_lt_zero _)
  | succ limit ih =>
    cases hv : v.marker? with
    | none => exact textWithin_plain hv (limit + 1) path ▸ .plain hv
    | some m =>
      rw [textWithin_collection hv, showCollection]
      split
      · exact .elided hv ‹_›
      · rename_i hnew
        refine .whole hv hnew fun w hw => ih ?_ w
        exact Nat.lt_of_lt_of_le (length_unopened_cons (Marker.mem_markers hw) hnew) (Nat.le_of_lt_succ hlimit)

/-- No value is shown in two ways. -/
theorem Shows.unique (h : Shows s path v t) (h' : Shows s path v t') : t = t' := by
  induction h generalizing t' with
  | plain data =>
    cases h' with
    | plain => rfl
    | elided collection => cases data.symm.trans collection
    | whole collection => cases data.symm.trans collection
  | elided collection again =>
    cases h' with
    | plain data => cases data.symm.trans collection
    | elided collection' => cases collection.symm.trans collection'; rfl
    | whole collection' new => cases collection.symm.trans collection'; exact absurd again new
  | whole collection new each ih =>
    cases h' with
    | plain data => cases data.symm.trans collection
    | elided collection' again => cases collection.symm.trans collection'; exact absurd again new
    | whole collection' _ each' =>
      cases collection.symm.trans collection'
      rw [List.map_congr_left fun w hw => ih w hw (each' w hw)]

theorem shows_iff (v : Value) : Shows s path v t ↔ textWithin s (nestingLimit s) path v = t := by
  have hshows : Shows s path v (textWithin s (nestingLimit s) path v) := shows_textWithin (length_unopened_lt s path) v
  exact ⟨hshows.unique, fun h => h ▸ hshows⟩

/-- Collections that are being shown are different ones, and they are in the store. -/
theorem Occurs.nodup (h : Occurs s base v path w) (hbase : base.Nodup ∧ base ⊆ markers s) :
    path.Nodup ∧ path ⊆ markers s := by
  induction h with
  | root => exact hbase
  | inside _ _ new element ih =>
    exact ⟨List.nodup_cons.mpr ⟨new, ih.1⟩, List.cons_subset.mpr ⟨Marker.mem_markers element, ih.2⟩⟩

/-! ### What the host writes -/

/-- What occurs in a value is the value itself or occurs in one of its elements. -/
theorem occurs_iff : Occurs s base v path w ↔ path = base ∧ w = v ∨
    ∃ m u, v.marker? = some m ∧ m ∉ base ∧ u ∈ m.elements s ∧ Occurs s (m :: base) u path w := by
  constructor
  · intro h
    induction h with
    | root => exact .inl ⟨rfl, rfl⟩
    | inside _ collection new element ih =>
      rcases ih with ⟨rfl, rfl⟩ | ⟨m, u, hv, hm, hu, hin⟩
      · exact .inr ⟨_, _, collection, new, element, .root⟩
      · exact .inr ⟨m, u, hv, hm, hu, .inside hin collection new element⟩
  · rintro (⟨rfl, rfl⟩ | ⟨m, u, hv, hm, hu, hin⟩)
    · exact .root
    · induction hin with
      | root => exact .inside .root hv hm hu
      | inside _ collection new element ih => exact .inside ih collection new element

theorem forall_occurs_iff {P : List Marker → Value → Prop} : (∀ path w, Occurs s base v path w → P path w) ↔
    P base v ∧ ∀ m, v.marker? = some m → m ∉ base → ∀ u ∈ m.elements s, ∀ path w, Occurs s (m :: base) u path w → P path w := by
  simp only [occurs_iff (v := v)]
  constructor
  · exact fun h => ⟨h _ _ (.inl ⟨rfl, rfl⟩), fun m hv hm u hu path w hw => h _ _ (.inr ⟨m, u, hv, hm, hu, hw⟩)⟩
  · rintro ⟨hroot, hinside⟩ path w (⟨rfl, rfl⟩ | ⟨m, u, hv, hm, hu, hw⟩)
    · exact hroot
    · exact hinside m hv hm u hu path w hw

variable [Host]

/-- Nothing stops the host exactly if it writes whatever occurs. -/
theorem refusalWithin_eq_none_iff {limit : Nat} (hlimit : (unopened s base).length < limit) (v : Value) :
    refusalWithin s limit base v = none ↔ ∀ path w, Occurs s base v path w → Writable s path w := by
  induction limit generalizing base v with
  | zero => exact absurd hlimit (Nat.not_lt_zero _)
  | succ limit ih =>
    rw [forall_occurs_iff]
    cases hv : v.marker? with
    | none => simp [refusalWithin_plain hv, Writable, hv]
    | some m =>
      have hroot : Writable s base v ↔ m ∈ base ∨ base.length < Host.nestingLimit := by rw [Writable, hv]
      simp only [refusalWithin_collection hv, refuseCollection, hroot, Option.some.injEq, forall_eq']
      by_cases hopen : m ∈ base
      · simp [hopen]
      by_cases hdeep : Host.nestingLimit ≤ base.length
      · simp [hopen, hdeep, Nat.not_lt.mpr hdeep]
      have hinside (u : Value) (hu : u ∈ m.elements s) : refusalWithin s limit (m :: base) u = none ↔
          ∀ path w, Occurs s (m :: base) u path w → Writable s path w :=
        ih (Nat.lt_of_lt_of_le (length_unopened_cons (Marker.mem_markers hu) hopen) (Nat.le_of_lt_succ hlimit)) u
      rw [if_neg hopen, if_neg hdeep, findSome?_map_id, List.findSome?_eq_none_iff, forall₂_congr hinside]
      simp [hopen, Nat.not_le.mp hdeep]

/-- The host writes the text of a value if it writes whatever occurs in it, and it fails otherwise. -/
theorem textOf_of_occurs (s : Store) (v : Value) :
    ((∀ path w, Occurs s [] v path w → Writable s path w) → textOf v s = .done (v.text s) s) ∧
      (¬(∀ path w, Occurs s [] v path w → Writable s path w) →
        ∃ f, textOf v s = .escaped f s ∧ (f = .lengthyNumber Host.digitLimit ∨ f = .endlessNesting)) := by
  have hnone : v.refusal? s = none ↔ ∀ path w, Occurs s [] v path w → Writable s path w :=
    refusalWithin_eq_none_iff (length_unopened_lt s []) v
  rw [← hnone]
  rcases textOf_cases v s with ⟨hwritten, htext⟩ | ⟨f, hrefused, htext⟩
  · exact ⟨fun _ => htext, fun h => absurd hwritten h⟩
  · exact ⟨fun h => absurd h (by simp [hrefused]), fun _ => ⟨f, htext, refusalWithin_cases hrefused⟩⟩

end Value

section

variable [Host]

open Value in
/-- Showing a value comes to an end in every store, whatever collections hold each other and themselves: by the rules there
is exactly one text for it, whichever collections are being shown, and it is its text. Where a value occurs in another one,
only different collections are being shown, so that showing never goes deeper than there are collections; and a collection
that occurs there is elided if it is one of those that are being shown, and it is shown in full, by the texts of its
elements in their order, if it is not. The text is written unless something that occurs in the value has more digits than
the host writes or is further inside than it goes; then writing fails. -/
theorem texts_elide_open_collections_only (s : Store) :
    (∀ v t, Shows s [] v t ↔ v.text s = t) ∧
      (∀ path v, ∃! t, Shows s path v t) ∧
      (∀ {v path w}, Occurs s [] v path w →
        path.Nodup ∧ path.length < nestingLimit s ∧
          ∀ {m}, w.marker? = some m →
            (m ∈ path → ∀ t, Shows s path w t ↔ t = m.elided) ∧
              (m ∉ path → (∀ u ∈ m.elements s, Occurs s [] v (m :: path) u) ∧
                ∀ t, Shows s path w t ↔ ∃ texts : Value → String,
                  (∀ u ∈ m.elements s, Shows s (m :: path) u (texts u)) ∧ t = m.enclose ((m.elements s).map texts))) ∧
      ∀ v, ((∀ path w, Occurs s [] v path w → Writable s path w) → textOf v s = .done (v.text s) s) ∧
        (¬(∀ path w, Occurs s [] v path w → Writable s path w) →
          ∃ f, textOf v s = .escaped f s ∧ (f = .lengthyNumber Host.digitLimit ∨ f = .endlessNesting)) := by
  refine ⟨fun v t => shows_iff v, fun path v => ⟨_, (shows_iff v).mpr rfl, fun t h => ((shows_iff v).mp h).symm⟩,
    fun {v path w} hoccurs => ?_, textOf_of_occurs s⟩
  obtain ⟨hnodup, hstored⟩ := hoccurs.nodup ⟨List.nodup_nil, List.nil_subset _⟩
  refine ⟨hnodup, ?_, fun {m} hw => ⟨fun hopen t => ⟨fun h => ?_, fun h => ?_⟩,
    fun hnew => ⟨fun u hu => .inside hoccurs hw hnew hu, fun t => ⟨fun h => ?_, ?_⟩⟩⟩⟩
  · rw [← length_markers]
    exact Nat.lt_succ_of_le (length_le_of_nodup hnodup hstored)
  · exact h.unique (.elided hw hopen)
  · exact h ▸ .elided hw hopen
  · cases h with
    | plain data => cases data.symm.trans hw
    | elided collection again => cases collection.symm.trans hw; exact absurd again hnew
    | whole collection _ each => cases collection.symm.trans hw; exact ⟨_, each, rfl⟩
  · rintro ⟨texts, heach, rfl⟩
    exact .whole hw hnew heach

end

open Value in
/-- A list that holds itself twice over is shown in full each time, and it is elided inside itself. One that holds a number
with one digit too many is not written. -/
theorem texts_elide_open_collections_only_inside :
    let s : Store := { lists := #[#[.list 0], #[.list 0, .list 0], #[.int (10 ^ 4300 : Nat)]] }
    let path : List Marker := [.list 0, .list 1]
    Shows s [] (.list 1) "[[[...]], [[...]]]" ∧ Occurs s [] (.list 1) path (.list 0) ∧
      (∀ t, Shows s path (.list 0) t ↔ t = "[...]") ∧ ∃ f, textOf (.list 2) s = .escaped f s := by
  intro s path
  obtain ⟨htext, -, hoccurrences, hwritten⟩ := texts_elide_open_collections_only s
  have houter : Occurs s [] (.list 1) [.list 1] (.list 0) := .inside .root rfl (by decide) List.mem_cons_self
  have hoccurs : Occurs s [] (.list 1) path (.list 0) := .inside houter rfl (by decide) List.mem_cons_self
  refine ⟨(htext _ _).mpr ?_, hoccurs, ((hoccurrences hoccurs).2.2 rfl).1 (by decide), ?_⟩
  · decide
  · have hnumber : Occurs s [] (.list 2) [.list 2] (.int (10 ^ 4300 : Nat)) :=
      .inside .root rfl (by decide) List.mem_cons_self
    have hlong : Host.refusesNumber (10 ^ 4300 : Nat) = true := Host.refusesNumber_standard
    have hunwritten : (Value.int (10 ^ 4300 : Nat)).refusal? s ≠ none := by
      rw [refusal?_int, if_pos hlong]
      exact Option.some_ne_none _
    obtain ⟨f, hf, -⟩ := (hwritten (.list 2)).2 fun hall => hunwritten (hall _ _ hnumber)
    exact ⟨f, hf⟩

end Dartlet
