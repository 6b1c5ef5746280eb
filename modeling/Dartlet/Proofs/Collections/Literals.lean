import Dartlet.Proofs.Collections.Maps
import Dartlet.Proofs.Collections.Staging

/-!
# What collection literals make

The row that the elements of a literal fill is made into a list, a set or a map, or it is an error. Which of these it is,
and what is in it, is told here without the loops that add one value after the other: a set has the values that equal
none before them, and a map has the keys that equal none before them, each with the last value that follows for it.
-/

namespace Dartlet

open Dartlet.Action
open Dartlet.Syntax (Element Expr Location)

set_option linter.unusedSectionVars false

variable [Host]

/-! ### First occurrences and last values -/

/-- The values of a list that equal none before them, nor any of some earlier ones. A value that is not a number equals
nothing, not even itself, and so it always counts as new. -/
def firstOccurrences (earlier : List Value) : List Value → List Value
  | [] => []
  | v :: vs =>
    if Members.has earlier v then firstOccurrences (v :: earlier) vs else v :: firstOccurrences (v :: earlier) vs

/-- The value that comes last for a key after a first one. -/
def lastValue (k v : Value) (later : List (Value × Value)) : Value :=
  ((later.filter fun e => k.equals e.1).map Prod.snd).getLastD v

/-- The entries of a list with keys that equal none before them, nor any of some earlier ones, each with the value that
comes last for its key. -/
def entriesByKey (earlier : List Value) : List (Value × Value) → List (Value × Value)
  | [] => []
  | e :: rest =>
    if Members.has earlier e.1 then entriesByKey (e.1 :: earlier) rest
    else (e.1, lastValue e.1 e.2 rest) :: entriesByKey (e.1 :: earlier) rest

theorem keys_entriesByKey (earlier : List Value) (entries : List (Value × Value)) :
    (entriesByKey earlier entries).map Prod.fst = firstOccurrences earlier (entries.map Prod.fst) := by
  induction entries generalizing earlier with
  | nil => rfl
  | cons e rest ih =>
    simp only [entriesByKey, List.map_cons, firstOccurrences]
    split
    · exact ih _
    · rw [List.map_cons, ih]

namespace Members

variable {members earlier : List Value}

theorem has_cons (v : Value) (members : List Value) (w : Value) : has (v :: members) w = (v.equals w || has members w) := by
  rw [has, List.any_cons, ← has, Value.sameKey_eq_equals]

theorem has_of_equals {v w : Value} (h : has members v = true) (hvw : v.equals w = true) : has members w = true := by
  obtain ⟨m, hm, hmv⟩ := has_iff.mp h
  exact has_iff.mpr ⟨m, hm, Value.equals_trans hmv hvw⟩

/-- A value that equals an earlier one tells no more values apart. -/
theorem has_again {v : Value} (h : has earlier v = true) (w : Value) : has (v :: earlier) w = has earlier w := by
  rw [has_cons]
  cases hvw : v.equals w with
  | false => rfl
  | true => rw [has_of_equals h hvw, Bool.or_true]

theorem has_append (v w : Value) : has (members ++ [v]) w = (v.equals w || has members w) := by
  simp [has, Bool.or_comm]

/-- Values that are added one after the other: the first occurrences are new. -/
theorem foldl_add (members earlier : List Value) (h : ∀ v, has members v = has earlier v) (values : List Value) :
    values.foldl add members = members ++ firstOccurrences earlier values := by
  induction values generalizing members earlier with
  | nil => simp [firstOccurrences]
  | cons v vs ih =>
    rw [List.foldl_cons, add, firstOccurrences, h v]
    split
    · rename_i hold
      exact ih _ _ fun w => by rw [h w, has_again hold]
    · rw [ih _ (v :: earlier) fun w => by rw [has_append, has_cons, h w], List.append_assoc]
      rfl

end Members

namespace Entries

variable {entries : List (Value × Value)}

/-- A value that is stored for a key that is there takes the place of the old one. -/
theorem put_eq_map (h : Distinct entries) {key : Value} (hkey : Members.has (entries.map Prod.fst) key = true) (v : Value) :
    put key v entries = entries.map fun e => (e.1, if e.1.equals key then v else e.2) := by
  induction entries with
  | nil => cases hkey
  | cons e rest ih =>
    obtain ⟨hothers, hrest⟩ := List.pairwise_cons.mp h
    rw [put_cons, List.map_cons]
    split
    · rename_i he
      -- no other key equals this one
      have hkept : rest.map (fun e => (e.1, if e.1.equals key then v else e.2)) = rest := by
        refine (List.map_congr_left fun x hx => ?_).trans rest.map_id
        have hx : e.1.equals x.1 = false := hothers x.1 (List.mem_map_of_mem hx)
        rw [Value.equals_congr he, Value.equals_comm] at hx
        simp [hx]
      rw [hkept]
    · rename_i he
      rw [List.map_cons, Members.has_cons, Bool.eq_false_iff.mpr he, Bool.false_or] at hkey
      rw [ih hrest hkey]

theorem lastValue_cons (k v : Value) (e : Value × Value) (rest : List (Value × Value)) :
    lastValue k v (e :: rest) = lastValue k (if k.equals e.1 then e.2 else v) rest := by
  unfold lastValue
  rw [List.filter_cons]
  split
  · rw [List.map_cons, List.getLastD_cons]
  · rfl

/-- Entries that are stored one after the other: those with new keys come last, and every key has the value that comes
last for it. -/
theorem putAll_eq (earlier : List Value) (h : Distinct entries)
    (hearlier : ∀ k, Members.has (entries.map Prod.fst) k = Members.has earlier k)
    (more : List (Value × Value)) :
    putAll entries more = entries.map (fun e => (e.1, lastValue e.1 e.2 more)) ++ entriesByKey earlier more := by
  induction more generalizing entries earlier with
  | nil => simp [putAll, entriesByKey, lastValue]
  | cons e rest ih =>
    have hput : putAll entries (e :: rest) = putAll (put e.1 e.2 entries) rest := rfl
    rw [hput, entriesByKey, ← hearlier]
    split
    · rename_i hold
      have hkeys : (put e.1 e.2 entries).map Prod.fst = entries.map Prod.fst := by
        rw [keys_put, Members.add, if_pos hold]
      rw [ih (e.1 :: earlier) (h.put _ _) fun k => by
        rw [hkeys, hearlier, Members.has_again (hearlier e.1 ▸ hold)]]
      rw [put_eq_map h hold, List.map_map]
      refine congrArg (· ++ _) (List.map_congr_left fun x _ => ?_)
      rw [lastValue_cons]
      rfl
    · rename_i hnew
      have hnew : Members.has (entries.map Prod.fst) e.1 = false := Bool.eq_false_iff.mpr hnew
      rw [ih (e.1 :: earlier) (h.put _ _) fun k => by
        rw [keys_put, Members.add, hnew, if_neg Bool.false_ne_true, Members.has_append, Members.has_cons, hearlier]]
      rw [put_of_not_hasKey hnew, List.map_append, List.append_assoc]
      refine congrArg₂ (· ++ ·) (List.map_congr_left fun x hx => ?_) rfl
      have hother : x.1.equals e.1 = false := Members.has_eq_false.mp hnew x.1 (List.mem_map_of_mem hx)
      rw [lastValue_cons, hother, if_neg Bool.false_ne_true]

end Entries

/-! ### Values that are not numbers -/

theorem has_of_isNaN {v : Value} (hv : v.isNaN = true) (members : List Value) : Members.has members v = false := by
  rw [Members.has_eq_false]
  intro m _
  rw [Value.equals_comm]
  exact Value.equals_of_isNaN hv m

theorem mem_firstOccurrences_of_isNaN {v : Value} (hv : v.isNaN = true) {items : List Value} (hmem : v ∈ items)
    (earlier : List Value) : v ∈ firstOccurrences earlier items := by
  induction items generalizing earlier with
  | nil => cases hmem
  | cons w rest ih =>
    rw [firstOccurrences]
    rcases List.mem_cons.mp hmem with rfl | hrest
    · rw [has_of_isNaN hv, if_neg Bool.false_ne_true]
      exact List.mem_cons_self
    · split
      · exact ih hrest _
      · exact List.mem_cons_of_mem _ (ih hrest _)

theorem lastValue_of_isNaN {k : Value} (hk : k.isNaN = true) (v : Value) (later : List (Value × Value)) :
    lastValue k v later = v := by
  have hnone : later.filter (fun e => k.equals e.1) = [] :=
    List.filter_eq_nil_iff.mpr fun e _ => by simp [Value.equals_of_isNaN hk e.1]
  rw [lastValue, hnone]
  rfl

theorem exists_of_mem_entriesByKey {e : Value × Value} {entries : List (Value × Value)} {earlier : List Value}
    (he : e ∈ entriesByKey earlier entries) (hkey : e.1.isNaN = true) : e ∈ entries := by
  induction entries generalizing earlier with
  | nil => cases he
  | cons first rest ih =>
    rw [entriesByKey] at he
    split at he
    · exact List.mem_cons_of_mem _ (ih he)
    · rcases List.mem_cons.mp he with rfl | hrest
      · rw [lastValue_of_isNaN hkey]
        exact List.mem_cons_self
      · exact List.mem_cons_of_mem _ (ih hrest)

/-- What a set keeps of some values: the ones that equal none before them. Of those that are not numbers, which equal
nothing, the host may take one that comes again for the same; it keeps one of them at least. -/
structure KeepsFirst (items kept : List Value) : Prop where
  sublist : kept.Sublist (firstOccurrences [] items)
  numbers : kept.filter (fun v => !v.isNaN) = (firstOccurrences [] items).filter (fun v => !v.isNaN)
  others : (∃ v ∈ items, v.isNaN = true) → ∃ v ∈ kept, v.isNaN = true

/-- What a map keeps of some entries: those with keys that equal none before them, each with the last value for its key.
Of those with keys that are not numbers, the host may take a key that comes again for the same; it keeps one of them at
least, with a value that one of them has. -/
structure KeepsFirstKeys (entries kept : List (Value × Value)) : Prop where
  keys : (kept.map Prod.fst).Sublist (firstOccurrences [] (entries.map Prod.fst))
  numbers : kept.filter (fun e => !e.1.isNaN) = (entriesByKey [] entries).filter (fun e => !e.1.isNaN)
  values : ∀ e ∈ kept, e.1.isNaN = true → ∃ e' ∈ entries, e'.1.isNaN = true ∧ e'.2 = e.2
  others : (∃ e ∈ entries, e.1.isNaN = true) → ∃ e ∈ kept, e.1.isNaN = true

theorem keepsFirst_firstOccurrences (items : List Value) : KeepsFirst items (firstOccurrences [] items) where
  sublist := List.Sublist.refl _
  numbers := rfl
  others := by
    rintro ⟨v, hmem, hv⟩
    exact ⟨v, mem_firstOccurrences_of_isNaN hv hmem [], hv⟩

theorem keepsFirstKeys_entriesByKey (entries : List (Value × Value)) :
    KeepsFirstKeys entries (entriesByKey [] entries) where
  keys := by rw [keys_entriesByKey]
  numbers := rfl
  values e he hkey := ⟨e, exists_of_mem_entriesByKey he hkey, hkey, rfl⟩
  others := by
    rintro ⟨e, hmem, hkey⟩
    have hfirst := mem_firstOccurrences_of_isNaN hkey (List.mem_map_of_mem hmem) []
    rw [← keys_entriesByKey] at hfirst
    obtain ⟨e', he', heq⟩ := List.mem_map.mp hfirst
    exact ⟨e', he', heq ▸ hkey⟩

theorem isNaN_of_mem_firstOccurrences {items earlier : List Value} (h : ∀ v ∈ items, v.isNaN = false) :
    ∀ v ∈ firstOccurrences earlier items, v.isNaN = false := by
  induction items generalizing earlier with
  | nil => exact List.forall_mem_nil _
  | cons v rest ih =>
    obtain ⟨hv, hrest⟩ := List.forall_mem_cons.mp h
    rw [firstOccurrences]
    split
    · exact ih hrest
    · exact List.forall_mem_cons.mpr ⟨hv, ih hrest⟩

/-- If all values are numbers, or no numbers at all, a set keeps the first ones exactly. -/
theorem KeepsFirst.eq {items kept : List Value} (h : KeepsFirst items kept) (hitems : ∀ v ∈ items, v.isNaN = false) :
    kept = firstOccurrences [] items := by
  have hfirst : ∀ v ∈ firstOccurrences [] items, v.isNaN = false := isNaN_of_mem_firstOccurrences hitems
  have hkept : ∀ v ∈ kept, v.isNaN = false := fun v hv => hfirst v (h.sublist.subset hv)
  have hnumbers := h.numbers
  rwa [List.filter_eq_self.mpr fun v hv => by simp [hkept v hv],
    List.filter_eq_self.mpr fun v hv => by simp [hfirst v hv]] at hnumbers

theorem KeepsFirstKeys.eq {entries kept : List (Value × Value)} (h : KeepsFirstKeys entries kept)
    (hentries : ∀ e ∈ entries, e.1.isNaN = false) : kept = entriesByKey [] entries := by
  have hfirst : ∀ k ∈ firstOccurrences [] (entries.map Prod.fst), k.isNaN = false :=
    isNaN_of_mem_firstOccurrences (List.forall_mem_map.mpr hentries)
  have hkept : ∀ e ∈ kept, e.1.isNaN = false := fun e he => hfirst e.1 (h.keys.subset (List.mem_map_of_mem he))
  have hbyKey : ∀ e ∈ entriesByKey [] entries, e.1.isNaN = false :=
    fun e he => hfirst e.1 (keys_entriesByKey [] entries ▸ List.mem_map_of_mem he)
  have hnumbers := h.numbers
  rwa [List.filter_eq_self.mpr fun e he => by simp [hkept e he],
    List.filter_eq_self.mpr fun e he => by simp [hbyKey e he]] at hnumbers

/-! ### What a row makes -/

/-- The row of some values. -/
def itemRow (items : List Value) : List Staged := items.map .item

/-- The row of some entries. -/
def entryRow (entries : List (Value × Value)) : List Staged := entries.map fun e => .entry e.1 e.2

/-- What a list literal makes of its row: a new list of it, unless there is an entry. -/
inductive MakesList (t : Store) : List Staged → Outcome Value → Prop where
  | list (items : List Value) :
      MakesList t (itemRow items) (.done (.list t.lists.size) { t with lists := t.lists.push items.toArray })
  | refused {row k v} (mem : .entry k v ∈ row) : MakesList t row (mismatch .entryInList t)

/-- What a literal in braces makes of its row: if it is empty, an empty set or map; if it begins with an entry, a new map,
unless there is a value; and else a new set, unless there is an entry. -/
inductive MakesSetOrMap (typeArguments : List String) (t : Store) : List Staged → Outcome Value → Prop where
  | emptySet (one : typeArguments.length = 1) :
      MakesSetOrMap typeArguments t [] (.done (.set t.sets.size) { t with sets := t.sets.push [] })
  | emptyMap (other : typeArguments.length ≠ 1) :
      MakesSetOrMap typeArguments t [] (.done (.map t.maps.size) { t with maps := t.maps.push [] })
  | map {entries kept} (some : entries ≠ []) (keeps : KeepsFirstKeys entries kept) :
      MakesSetOrMap typeArguments t (entryRow entries) (.done (.map t.maps.size) { t with maps := t.maps.push kept })
  | notMap {k v row u} (mem : .item u ∈ row) :
      MakesSetOrMap typeArguments t (.entry k v :: row) (mismatch .elementInMap t)
  | set {items kept} (some : items ≠ []) (keeps : KeepsFirst items kept) :
      MakesSetOrMap typeArguments t (itemRow items) (.done (.set t.sets.size) { t with sets := t.sets.push kept })
  | notSet {v row k u} (mem : .entry k u ∈ row) :
      MakesSetOrMap typeArguments t (.item v :: row) (mismatch .entryInSet t)

section Rows

variable {t : Store} {row : List Staged} {o : Outcome Value} {typeArguments : List String}

theorem row_cases_item (row : List Staged) : (∃ items, row = itemRow items) ∨ ∃ k v, .entry k v ∈ row := by
  induction row with
  | nil => exact .inl ⟨[], rfl⟩
  | cons x rest ih =>
    cases x with
    | entry k v => exact .inr ⟨k, v, List.mem_cons_self⟩
    | item v =>
      rcases ih with ⟨items, rfl⟩ | ⟨k, u, hmem⟩
      · exact .inl ⟨v :: items, rfl⟩
      · exact .inr ⟨k, u, List.mem_cons_of_mem _ hmem⟩

theorem row_cases_entry (row : List Staged) : (∃ entries, row = entryRow entries) ∨ ∃ v, .item v ∈ row := by
  induction row with
  | nil => exact .inl ⟨[], rfl⟩
  | cons x rest ih =>
    cases x with
    | item v => exact .inr ⟨v, List.mem_cons_self⟩
    | entry k v =>
      rcases ih with ⟨entries, rfl⟩ | ⟨u, hmem⟩
      · exact .inl ⟨(k, v) :: entries, rfl⟩
      · exact .inr ⟨u, List.mem_cons_of_mem _ hmem⟩

theorem listItems_items (items : List Value) : listItems (itemRow items) = .ok items := by
  induction items with
  | nil => rfl
  | cons v rest ih =>
    change (listItems (itemRow rest)).map (v :: ·) = _
    rw [ih]
    rfl

theorem listItems_entry {k v : Value} (h : .entry k v ∈ row) : listItems row = .error .entryInList := by
  induction row with
  | nil => exact absurd h List.not_mem_nil
  | cons x rest ih =>
    cases x with
    | entry k' v' => rfl
    | item u =>
      cases h with
      | tail _ hrest =>
        rw [listItems, ih hrest]
        rfl

theorem setMembers_items (members items : List Value) :
    setMembers members (itemRow items) = .ok (items.foldl Members.add members) := by
  induction items generalizing members with
  | nil => rfl
  | cons v rest ih => exact ih _

theorem setMembers_entry {k v : Value} (h : .entry k v ∈ row) (members : List Value) :
    setMembers members row = .error .entryInSet := by
  induction row generalizing members with
  | nil => exact absurd h List.not_mem_nil
  | cons x rest ih =>
    cases x with
    | entry k' v' => rfl
    | item u =>
      cases h with
      | tail _ hrest => exact ih hrest _

theorem mapEntries_entries (found entries : List (Value × Value)) :
    mapEntries found (entryRow entries) = .ok (Entries.putAll found entries) := by
  induction entries generalizing found with
  | nil => rfl
  | cons e rest ih => exact ih _

theorem mapEntries_item {v : Value} (h : .item v ∈ row) (found : List (Value × Value)) :
    mapEntries found row = .error .elementInMap := by
  induction row generalizing found with
  | nil => exact absurd h List.not_mem_nil
  | cons x rest ih =>
    cases x with
    | item u => rfl
    | entry k u =>
      cases h with
      | tail _ hrest => exact ih hrest _

theorem MakesList.apply (h : MakesList t row o) : listOf row t = o := by
  cases h with
  | list items =>
    rw [listOf, listItems_items]
    rfl
  | refused mem =>
    rw [listOf, listItems_entry mem]
    rfl

theorem exists_makesList (t : Store) (row : List Staged) : ∃ o, MakesList t row o := by
  rcases row_cases_item row with ⟨items, rfl⟩ | ⟨k, v, hmem⟩
  · exact ⟨_, .list items⟩
  · exact ⟨_, .refused hmem⟩

theorem setOrMapOf_entries {entries : List (Value × Value)} (hsome : entries ≠ []) :
    setOrMapOf typeArguments (entryRow entries) t =
      .done (.map t.maps.size) { t with maps := t.maps.push (entriesByKey [] entries) } := by
  obtain ⟨e, rest, rfl⟩ := List.exists_cons_of_ne_nil hsome
  have hentries := Entries.putAll_eq [] Entries.distinct_nil (fun _ => rfl) (e :: rest)
  change ((orMismatch (mapEntries [] (entryRow (e :: rest))) >>= fun es => newMap es) t) = _
  rw [mapEntries_entries, hentries]
  rfl

theorem setOrMapOf_items {items : List Value} (hsome : items ≠ []) : setOrMapOf typeArguments (itemRow items) t =
    .done (.set t.sets.size) { t with sets := t.sets.push (firstOccurrences [] items) } := by
  obtain ⟨v, rest, rfl⟩ := List.exists_cons_of_ne_nil hsome
  have hmembers := Members.foldl_add [] [] (fun _ => rfl) (v :: rest)
  change ((orMismatch (setMembers [] (itemRow (v :: rest))) >>= fun vs => newSet vs) t) = _
  rw [setMembers_items, hmembers]
  rfl

theorem makesSetOrMap_nil : MakesSetOrMap typeArguments t [] (setOrMapOf typeArguments [] t) := by
  by_cases h : typeArguments.length = 1
  · have hset : setOrMapOf typeArguments [] t = .done (.set t.sets.size) { t with sets := t.sets.push [] } := by
      simp [setOrMapOf, h, newSet, update, Store.addSet]
    exact hset ▸ .emptySet h
  · have hmap : setOrMapOf typeArguments [] t = .done (.map t.maps.size) { t with maps := t.maps.push [] } := by
      simp [setOrMapOf, h, newMap, update, Store.addMap]
    exact hmap ▸ .emptyMap h

/-- A literal in braces makes something of every row. -/
theorem makesSetOrMap (typeArguments : List String) (t : Store) (row : List Staged) :
    MakesSetOrMap typeArguments t row (setOrMapOf typeArguments row t) := by
  cases row with
  | nil => exact makesSetOrMap_nil
  | cons x rest =>
    cases x with
    | entry k v =>
      rcases row_cases_entry rest with ⟨entries, rfl⟩ | ⟨u, hmem⟩
      · have hsome : (k, v) :: entries ≠ [] := List.cons_ne_nil _ _
        have hmap : setOrMapOf typeArguments (entryRow ((k, v) :: entries)) t = _ := setOrMapOf_entries hsome
        exact hmap ▸ .map hsome (keepsFirstKeys_entriesByKey _)
      · have hrefused : setOrMapOf typeArguments (.entry k v :: rest) t = mismatch .elementInMap t := by
          change ((orMismatch (mapEntries [] (.entry k v :: rest)) >>= fun es => newMap es) t) = _
          rw [mapEntries_item (List.mem_cons_of_mem _ hmem)]
          rfl
        exact hrefused ▸ .notMap hmem
    | item v =>
      rcases row_cases_item rest with ⟨items, rfl⟩ | ⟨k, u, hmem⟩
      · have hsome : v :: items ≠ [] := List.cons_ne_nil _ _
        have hset : setOrMapOf typeArguments (itemRow (v :: items)) t = _ := setOrMapOf_items hsome
        exact hset ▸ .set hsome (keepsFirst_firstOccurrences _)
      · have hrefused : setOrMapOf typeArguments (.item v :: rest) t = mismatch .entryInSet t := by
          change ((orMismatch (setMembers [] (.item v :: rest)) >>= fun vs => newSet vs) t) = _
          rw [setMembers_entry (List.mem_cons_of_mem _ hmem)]
          rfl
        exact hrefused ▸ .notSet hmem

end Rows

/-! ### Literals -/

section Literals

variable {c : Context} {s t : Store} {xs : List Element} {row : List Staged}

/-- A literal that has laid out its row ends as what it makes of that does, with its place for an error. -/
theorem endsWith_literal_iff (hrow : StagesAll c xs s row t) {make : List Staged → Action Value} {l : Location}
    {o o' : Outcome Value} (hmake : make row t = o') (hended : o'.Ended) (hunhooked : o'.Unhooked) :
    EndsWith (fun e => within (e.caller c.depth) l (stageAll e c xs >>= make)) s o ↔ o = o'.locate l := by
  have hform (o'' : Outcome Value) : EndsWith (fun e => stageAll e c xs >>= make) s o'' ↔ o'' = o' := by
    refine (EndsWith.bind_iff_of_done (G := fun _ row => make row) (.stageAll c xs) (fun _ => .const _)
      (stageAll_iff.mpr hrow)).trans ?_
    rw [EndsWith.const_iff, hmake]
    exact ⟨fun h => h.1.symm, fun h => ⟨h.symm, h ▸ hended⟩⟩
  have hpersistent : Persistent (fun e => stageAll e c xs >>= make) := (Persistent.stageAll c xs).bind fun _ => .const _
  rw [EndsWith.within_iff hpersistent]
  simp only [hform, exists_eq_left, Outcome.leaves_iff_of_unhooked hended hunhooked]

theorem evaluates_list_iff (hrow : StagesAll c xs s row t) {l : Location} {typeArguments : List String}
    {o o' : Outcome Value} (hmake : MakesList t row o') :
    Evaluates c (.listLiteral l xs typeArguments) s o ↔ o = o'.locate l := by
  have hended : o'.Ended := by cases hmake <;> nofun
  have hunhooked : o'.Unhooked := by
    cases hmake with
    | list => exact Outcome.unhooked_of_ne_raised nofun
    | refused => exact fail_unhooked _ _
  exact EndsWith.eval_iff.trans (endsWith_literal_iff hrow hmake.apply hended hunhooked)

theorem evaluates_setOrMap_iff (hrow : StagesAll c xs s row t) {l : Location} {typeArguments : List String}
    {o : Outcome Value} : Evaluates c (.setOrMapLiteral l xs typeArguments) s o ↔
      o = (setOrMapOf typeArguments row t).locate l := by
  have hmake := makesSetOrMap typeArguments t row
  generalize ho' : setOrMapOf typeArguments row t = o' at hmake ⊢
  have hended : o'.Ended := by cases hmake <;> nofun
  have hunhooked : o'.Unhooked := by
    cases hmake with
    | notMap | notSet => exact fail_unhooked _ _
    | _ => exact Outcome.unhooked_of_ne_raised nofun
  exact EndsWith.eval_iff.trans (endsWith_literal_iff hrow ho' hended hunhooked)

end Literals

end Dartlet
