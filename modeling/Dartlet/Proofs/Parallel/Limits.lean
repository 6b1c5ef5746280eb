import Dartlet.Host.Conversion
import Dartlet.Proofs.Parallel.Showing
import Dartlet.Scope

/-!
# Limits that suffice

Walking outward through scopes and handing a value to the host count down from the size of the store. The count
never decides anything: with a higher limit they come to the same.
-/

namespace Dartlet

namespace Store

/-- The scope around a scope is older. -/
def Descends (s : Store) : Prop := ∀ a p : Nat, (s.scope a).parent = some p → p < a

variable {s : Store}

/-- An address without a scope leads nowhere. -/
theorem scope_of_size_le {a : Nat} (h : s.scopes.size ≤ a) : s.scope a = ⟨none, [], none⟩ := by
  simp [scope, Array.getElem?_eq_none h]

theorem ownerFrom?_of_size_le {a : Nat} (h : s.scopes.size ≤ a) (name : String) (limit : Nat) :
    s.ownerFrom? name limit a = none := by
  cases limit with
  | zero => rfl
  | succ limit => simp [ownerFrom?, scope_of_size_le h, Scope.binds]

theorem handledFrom?_of_size_le {a : Nat} (h : s.scopes.size ≤ a) (limit : Nat) : s.handledFrom? limit a = none := by
  cases limit with
  | zero => rfl
  | succ limit => simp [handledFrom?, scope_of_size_le h]

/-- A limit above the address suffices to find the owner of a name. -/
theorem ownerFrom?_eq (hs : s.Descends) (name : String) {m n a : Nat} (hm : a < m) (hn : a < n) :
    s.ownerFrom? name m a = s.ownerFrom? name n a := by
  induction m generalizing n a with
  | zero => omega
  | succ m ih =>
    cases n with
    | zero => omega
    | succ n =>
      simp only [ownerFrom?]
      split
      · rfl
      · cases hparent : (s.scope a).parent with
        | none => rfl
        | some p =>
          have hp := hs a p hparent
          exact ih (by omega) (by omega)

/-- A limit above the address suffices to find the error that is being handled. -/
theorem handledFrom?_eq (hs : s.Descends) {m n a : Nat} (hm : a < m) (hn : a < n) :
    s.handledFrom? m a = s.handledFrom? n a := by
  induction m generalizing n a with
  | zero => omega
  | succ m ih =>
    cases n with
    | zero => omega
    | succ n =>
      simp only [handledFrom?]
      split
      · rfl
      · cases hparent : (s.scope a).parent with
        | none => rfl
        | some p =>
          have hp := hs a p hparent
          exact ih (by omega) (by omega)

theorem ownerFrom?_of_le (hs : s.Descends) (name : String) {limit : Nat} (h : s.scopes.size ≤ limit) (a : Nat) :
    s.ownerFrom? name limit a = s.owner? a name := by
  by_cases ha : a < s.scopes.size
  · exact ownerFrom?_eq hs name (by omega) ha
  · rw [owner?, ownerFrom?_of_size_le (by omega), ownerFrom?_of_size_le (by omega)]

theorem handledFrom?_of_le (hs : s.Descends) {limit : Nat} (h : s.scopes.size ≤ limit) (a : Nat) :
    s.handledFrom? limit a = s.handledError? a := by
  by_cases ha : a < s.scopes.size
  · exact handledFrom?_eq hs (by omega) ha
  · rw [handledError?, handledFrom?_of_size_le (by omega), handledFrom?_of_size_le (by omega)]

end Store

namespace Value

variable {s : Store}

/-! ### Handing values to the host -/

/-- What comes to the same with a higher limit, unless the limit was too low. -/
def Settles {α : Type} (r r' : Except HostFailure α) : Prop := r = .error .endlessNesting ∨ r' = r

theorem Settles.bind {α β : Type} {r r' : Except HostFailure α} {k k' : α → Except HostFailure β}
    (hr : Settles r r') (hk : ∀ a, Settles (k a) (k' a)) : Settles (r >>= k) (r' >>= k') := by
  rcases hr with rfl | rfl
  · exact .inl rfl
  · cases r' with
    | error f => exact .inr rfl
    | ok a => exact hk a

theorem Settles.refl {α : Type} (r : Except HostFailure α) : Settles r r := .inr rfl

theorem Settles.map {α β : Type} {r r' : Except HostFailure α} (hr : Settles r r') (g : α → β) :
    Settles (r.map g) (r'.map g) := by
  rcases hr with rfl | rfl
  · exact .inl rfl
  · exact .refl _

theorem Settles.mapM {α β : Type} {f g : α → Except HostFailure β} (h : ∀ x, Settles (f x) (g x)) (xs : List α) :
    Settles (xs.mapM f) (xs.mapM g) := by
  induction xs with
  | nil => exact .refl _
  | cons x rest ih =>
    simp only [List.mapM_cons]
    exact (h x).bind (fun y => ih.bind (fun ys => .refl _))

theorem Settles.foldlM {α β : Type} {f g : β → α → Except HostFailure β} (h : ∀ b x, Settles (f b x) (g b x))
    (xs : List α) (b : β) : Settles (xs.foldlM f b) (xs.foldlM g b) := by
  induction xs generalizing b with
  | nil => exact .refl _
  | cons x rest ih =>
    simp only [List.foldlM_cons]
    exact (h b x).bind ih

/-- A limit that is one higher changes nothing if it was not too low. -/
theorem toHostWithin_settles (s : Store) (limit : Nat) (v : Value) :
    Settles (toHostWithin s limit v) (toHostWithin s (limit + 1) v) := by
  induction limit generalizing v with
  | zero =>
    cases v with
    | list a => exact .inl rfl
    | iterable a => exact .inl rfl
    | set a => exact .inl rfl
    | map a => exact .inl rfl
    | _ => exact .refl _
  | succ limit ih =>
    cases v with
    | list a => exact (Settles.mapM ih _).map _
    | iterable a => exact (Settles.mapM ih _).map _
    | set a =>
      refine (Settles.foldlM (fun members v => ?_) _ _).map _
      exact (ih v).bind (fun h => .refl _)
    | map a =>
      refine (Settles.foldlM (fun entries e => ?_) _ _).map _
      exact (ih e.1).bind (fun h => (ih e.2).bind (fun value => .refl _))
    | _ => exact .refl _

/-- Whether handing over did not come to an end. -/
def isEndless {α : Type} : Except HostFailure α → Bool
  | .error .endlessNesting => true
  | _ => false

theorem isEndless_iff {α : Type} {r : Except HostFailure α} : isEndless r = true ↔ r = .error .endlessNesting := by
  unfold isEndless
  split <;> simp_all

/-- The collection that a marker stands for. -/
def ofMarker : Marker → Value
  | .list a => .list a
  | .iterable a => .iterable a
  | .set a => .set a
  | .map a => .map a

/-- How many collections cannot be handed over with a limit. -/
def endlessCount (s : Store) (limit : Nat) : Nat :=
  (markers s).countP (fun k => isEndless (toHostWithin s limit (ofMarker k)))

/-- What cannot be handed over with some limit is a collection of the store, or the limit is zero. -/
theorem exists_marker_of_isEndless {limit : Nat} {v : Value} (h : isEndless (toHostWithin s (limit + 1) v) = true) :
    ∃ k ∈ markers s, ofMarker k = v := by
  cases v with
  | list a =>
    refine ⟨.list a, list_mem_markers (fun hempty => ?_), rfl⟩
    simp [toHostWithin, hempty, isEndless] at h
    cases h
  | iterable a =>
    refine ⟨.iterable a, iterable_mem_markers (fun hempty => ?_), rfl⟩
    simp [toHostWithin, hempty, isEndless] at h
    cases h
  | set a =>
    refine ⟨.set a, set_mem_markers (fun hempty => ?_), rfl⟩
    simp [toHostWithin, hempty, isEndless] at h
    cases h
  | map a =>
    refine ⟨.map a, map_mem_markers (fun hempty => ?_), rfl⟩
    simp [toHostWithin, hempty, isEndless] at h
    cases h
  | _ => cases h

/-- As long as a higher limit changes anything, it lets more collections be handed over. -/
theorem endlessCount_lt {limit : Nat} (h : ¬∀ v, toHostWithin s (limit + 2) v = toHostWithin s (limit + 1) v) :
    endlessCount s (limit + 2) < endlessCount s (limit + 1) := by
  obtain ⟨v, hv⟩ := not_forall.mp h
  have hendless : isEndless (toHostWithin s (limit + 1) v) = true :=
    isEndless_iff.mpr ((toHostWithin_settles s (limit + 1) v).resolve_right hv)
  have hnot : isEndless (toHostWithin s (limit + 2) v) = false := by
    rw [← Bool.not_eq_true, isEndless_iff]
    intro hv'
    exact hv (hv'.trans (isEndless_iff.mp hendless).symm)
  obtain ⟨k, hk, rfl⟩ := exists_marker_of_isEndless hendless
  -- of those that the lower limit does not suffice for, it suffices for one
  have hfewer := List.countP_lt_length_iff (p := fun k => isEndless (toHostWithin s (limit + 2) (ofMarker k)))
    (l := (markers s).filter (fun k => isEndless (toHostWithin s (limit + 1) (ofMarker k)))) |>.mpr
      ⟨k, by simp [hk, hendless], hnot⟩
  rw [List.countP_filter, ← List.countP_eq_length_filter] at hfewer
  refine Nat.lt_of_le_of_lt (List.countP_mono_left (fun k _ hk => ?_)) hfewer
  simp only [Bool.and_eq_true]
  refine ⟨hk, ?_⟩
  rcases toHostWithin_settles s (limit + 1) (ofMarker k) with hk' | hk'
  · exact isEndless_iff.mpr hk'
  · rwa [← hk']

theorem toHostWithin_succ {limit : Nat} (h : ∀ v, toHostWithin s (limit + 1) v = toHostWithin s limit v) (v : Value) :
    toHostWithin s (limit + 2) v = toHostWithin s (limit + 1) v := by
  have hfun : toHostWithin s (limit + 1) = toHostWithin s limit := funext h
  cases v with
  | list a => exact congrArg (fun f => ((s.list a).toList.mapM f).map HostValue.list) hfun
  | iterable a => exact congrArg (fun f => ((s.iterable a).mapM f).map HostValue.list) hfun
  | set a =>
    exact congrArg (fun f => ((s.set a).foldlM (fun members v => do
      let h ← f v
      let key ← h.asKey
      .ok (HostValue.addMember members key)) []).map HostValue.set) hfun
  | map a =>
    exact congrArg (fun f => ((s.map a).foldlM (fun entries (e : Value × Value) => do
      let h ← f e.1
      let value ← f e.2
      let key ← h.asKey
      .ok (HostValue.putEntry key value entries)) []).map HostValue.dict) hfun
  | _ => rfl

/-- From the number of collections on, a higher limit changes nothing. -/
theorem toHostWithin_nestingLimit (s : Store) (v : Value) :
    toHostWithin s (nestingLimit s + 1) v = toHostWithin s (nestingLimit s) v := by
  -- either a higher limit changes nothing, or each one so far has let more collections through
  have hprogress (n : Nat) : (∀ v, toHostWithin s (n + 2) v = toHostWithin s (n + 1) v) ∨
      endlessCount s (n + 1) + n ≤ (markers s).length := by
    induction n with
    | zero => exact .inr List.countP_le_length
    | succ n ih =>
      by_cases hstill : ∀ v, toHostWithin s (n + 2) v = toHostWithin s (n + 1) v
      · exact .inl (toHostWithin_succ hstill)
      · have hless := endlessCount_lt hstill
        have hbound := ih.resolve_left hstill
        have hsame : endlessCount s (n + 1 + 1) = endlessCount s (n + 2) := rfl
        exact .inr (by omega)
  have hmarkers := length_markers s
  rw [← hmarkers]
  by_contra hchanges
  have hchanges' : ¬∀ v, toHostWithin s ((markers s).length + 2) v = toHostWithin s ((markers s).length + 1) v :=
    fun h => hchanges (h v)
  have hbound := (hprogress (markers s).length).resolve_left hchanges'
  have hless := endlessCount_lt hchanges'
  omega

/-- Every limit from the number of collections on suffices to hand a value to the host. -/
theorem toHostWithin_of_le {limit : Nat} (h : nestingLimit s ≤ limit) (v : Value) :
    toHostWithin s limit v = v.toHost s := by
  obtain ⟨more, rfl⟩ := Nat.exists_eq_add_of_le h
  have hstill (n : Nat) : ∀ v, toHostWithin s (nestingLimit s + n + 1) v = toHostWithin s (nestingLimit s + n) v := by
    induction n with
    | zero => exact toHostWithin_nestingLimit s
    | succ n ih => exact toHostWithin_succ ih
  induction more with
  | zero => rfl
  | succ more ih => exact (hstill more v).trans (ih (by omega))

end Value
end Dartlet
