import Dartlet.Proofs.Host.Handover
import Dartlet.Proofs.Parallel.Stores

/-!
# Taking data of the host over

Data of the host with a content are taken over as a value with the same content. Only new collections are
made; all others stay as they are.
-/

namespace Dartlet

open Dartlet.Action

/-- A store in which everything is as it was, besides what is new. -/
structure Store.Preserves (s t : Store) : Prop where
  lists : ∀ {a : Address} {items : Array Value}, s.lists[a]? = some items → t.lists[a]? = some items
  iterables : ∀ {a : Address} {items : List Value}, s.iterables[a]? = some items → t.iterables[a]? = some items
  sets : ∀ {a : Address} {members : List Value}, s.sets[a]? = some members → t.sets[a]? = some members
  maps : ∀ {a : Address} {entries : List (Value × Value)}, s.maps[a]? = some entries → t.maps[a]? = some entries
  natives : t.natives = s.natives

namespace Store.Preserves

variable {s t u : Store}

theorem refl (s : Store) : s.Preserves s := ⟨id, id, id, id, rfl⟩

theorem trans (h : s.Preserves t) (h' : t.Preserves u) : s.Preserves u :=
  ⟨h'.lists ∘ h.lists, h'.iterables ∘ h.iterables, h'.sets ∘ h.sets, h'.maps ∘ h.maps, h'.natives.trans h.natives⟩

theorem addList (s : Store) (items : Array Value) : s.Preserves (s.addList items).2 :=
  ⟨Array.getElem?_push_of_some items, id, id, id, rfl⟩

theorem addSet (s : Store) (members : List Value) : s.Preserves (s.addSet members).2 :=
  ⟨id, id, Array.getElem?_push_of_some members, id, rfl⟩

theorem addMap (s : Store) (entries : List (Value × Value)) : s.Preserves (s.addMap entries).2 :=
  ⟨id, id, id, Array.getElem?_push_of_some entries, rfl⟩

mutual

/-- A value keeps its content. -/
theorem hasContent (h : s.Preserves t) : ∀ (c : Content) {v : Value}, v.HasContent s c → v.HasContent t c
  | .atom _, _, hv => hv
  | .list items, _, ⟨a, elements, hv, ha, hitems⟩ => ⟨a, elements, hv, h.lists ha, haveContents h items hitems⟩
  | .iterable items, _, ⟨a, elements, hv, ha, hitems⟩ => ⟨a, elements, hv, h.iterables ha, haveContents h items hitems⟩
  | .set members, _, ⟨a, elements, hv, ha, hmembers⟩ => ⟨a, elements, hv, h.sets ha, haveContents h members hmembers⟩
  | .map entries, _, ⟨a, pairs, hv, ha, hentries⟩ => ⟨a, pairs, hv, h.maps ha, entriesHaveContents h entries hentries⟩

theorem haveContents (h : s.Preserves t) : ∀ (cs : List Content) {vs : List Value}, s.HaveContents vs cs → t.HaveContents vs cs
  | [], [], _ => trivial
  | c :: cs, _ :: _, hvs => ⟨hasContent h c hvs.1, haveContents h cs hvs.2⟩

theorem entriesHaveContents (h : s.Preserves t) : ∀ (cs : List (Content × Content)) {vs : List (Value × Value)},
    s.EntriesHaveContents vs cs → t.EntriesHaveContents vs cs
  | [], [], _ => trivial
  | (k, c) :: cs, _ :: _, hvs => ⟨hasContent h k hvs.1, hasContent h c hvs.2.1, entriesHaveContents h cs hvs.2.2⟩

end

end Store.Preserves

/-- An action that is done goes on with the next one. -/
theorem Action.bind_of_done {α β : Type} {x : Action α} {f : α → Action β} {s t : Store} {a : α} (h : x s = .done a t) :
    (x >>= f) s = f a t := by
  change Action.bind x f s = f a t
  rw [Action.bind, h]

/-! ### Keys of contents -/

variable {s : Store}

theorem Store.EntriesHaveContents.keys {vs : List (Value × Value)} {cs : List (Content × Content)}
    (h : s.EntriesHaveContents vs cs) : s.HaveContents (vs.map Prod.fst) (cs.map Prod.fst) := by
  induction vs generalizing cs with
  | nil =>
    cases cs with
    | nil => trivial
    | cons c cs => cases h
  | cons v vs ih =>
    cases cs with
    | nil => cases h
    | cons c cs => exact ⟨h.1, ih h.2.2⟩

/-- Values whose contents are atoms are these atoms. -/
theorem Store.HaveContents.atoms {as : List Atom} {vs : List Value} (h : s.HaveContents vs (as.map .atom)) :
    vs = as.map Atom.value := by
  induction as generalizing vs with
  | nil =>
    cases vs with
    | nil => rfl
    | cons v vs => cases h
  | cons a as ih =>
    cases vs with
    | nil => cases h
    | cons v vs => rw [show v = a.value from h.1, ih h.2, List.map_cons]

theorem Store.haveContents_atoms (s : Store) (as : List Atom) : s.HaveContents (as.map Atom.value) (as.map .atom) := by
  induction as with
  | nil => trivial
  | cons a as ih => exact ⟨rfl, ih⟩

/-- The keys of a table of the host are different atoms. -/
theorem HostValue.EntriesHaveContents.keys {hs : List (HostValue × HostValue)} {cs : List (Content × Content)}
    (h : HostValue.EntriesHaveContents hs cs) : ∃ as : List Atom, cs.map Prod.fst = as.map .atom ∧ as.Pairwise Atom.Apart := by
  induction hs generalizing cs with
  | nil =>
    cases cs with
    | nil => exact ⟨[], rfl, .nil⟩
    | cons c cs => cases h
  | cons e hs ih =>
    cases cs with
    | nil => cases h
    | cons c cs =>
      obtain ⟨⟨a, hkey, -, hapart⟩, -, hrest⟩ := h
      obtain ⟨as, hatoms, has⟩ := ih hrest
      refine ⟨a :: as, by rw [List.map_cons, List.map_cons, hatoms]; exact congrArg (· :: _) hkey, ?_⟩
      exact List.pairwise_cons.mpr ⟨fun b hb => hapart b (by rw [hatoms]; exact List.mem_map_of_mem hb), has⟩

theorem distinct_values {as : List Atom} (h : as.Pairwise Atom.Apart) : Members.Distinct (as.map Atom.value) :=
  List.pairwise_map.mpr (h.imp Atom.Apart.equals)

/-! ### Taking data over -/

theorem Members.ofList_of_distinct {values : List Value} (h : Distinct values) : ofList values = values := by
  have hadd (members : List Value) (hdistinct : Distinct (members ++ values)) :
      values.foldl add members = members ++ values := by
    induction values generalizing members with
    | nil => simp
    | cons v rest ih =>
      have hv : has members v = false :=
        has_eq_false.mpr (fun m hm => (List.pairwise_append.mp hdistinct).2.2 m hm v List.mem_cons_self)
      have hsplit : members ++ v :: rest = (members ++ [v]) ++ rest := by simp
      rw [hsplit] at hdistinct ⊢
      rw [List.foldl_cons, add, hv]
      exact ih (List.pairwise_cons.mp h).2 _ hdistinct
  exact hadd [] h

theorem Entries.put_of_not_hasKey {entries : List (Value × Value)} {key value : Value}
    (h : Members.has (entries.map Prod.fst) key = false) : put key value entries = entries ++ [(key, value)] := by
  induction entries with
  | nil => rfl
  | cons e rest ih =>
    rw [Members.has_eq_false] at h
    obtain ⟨he, hrest⟩ := List.forall_mem_cons.mp h
    rw [put, if_neg (by simp [he]), ih (Members.has_eq_false.mpr hrest), List.cons_append]

theorem Entries.putAll_of_distinct {entries : List (Value × Value)} (h : Distinct entries) : putAll [] entries = entries := by
  have hput (before : List (Value × Value)) (hdistinct : Distinct (before ++ entries)) :
      entries.foldl (fun es e => put e.1 e.2 es) before = before ++ entries := by
    induction entries generalizing before with
    | nil => simp
    | cons e rest ih =>
      have hkey : Members.has (before.map Prod.fst) e.1 = false := by
        rw [Distinct, List.map_append] at hdistinct
        exact Members.has_eq_false.mpr (fun m hm => (List.pairwise_append.mp hdistinct).2.2 m hm e.1 List.mem_cons_self)
      have hsplit : before ++ e :: rest = (before ++ [e]) ++ rest := by simp
      rw [hsplit] at hdistinct ⊢
      rw [List.foldl_cons, put_of_not_hasKey hkey]
      exact ih (List.pairwise_cons.mp h).2 _ hdistinct
  exact hput [] h

theorem Atom.fromHost_data (a : Atom) (s : Store) : fromHost a.data s = .done a.value s := by
  cases a <;> rfl

theorem Atom.fromHostAll_data (as : List Atom) (s : Store) :
    fromHostAll (as.map Atom.data) s = .done (as.map Atom.value) s := by
  induction as with
  | nil => rfl
  | cons a as ih =>
    rw [List.map_cons, fromHostAll, bind_of_done (a.fromHost_data s), bind_of_done ih]
    rfl

mutual

/-- Data with a content become a value with this content. -/
theorem HostValue.HasContent.taken : ∀ (c : Content) {h : HostValue} (s : Store), h.HasContent c →
    ∃ v t, fromHost h s = .done v t ∧ s.Preserves t ∧ v.HasContent t c
  | .atom a, _, s, hh => by
    subst hh
    exact ⟨a.value, s, a.fromHost_data s, .refl s, rfl⟩
  | .list items, _, s, ⟨hs, hh, hitems⟩ => by
    subst hh
    obtain ⟨vs, t, hvs, hpreserves, hcontents⟩ := HostValue.HaveContents.taken items s hitems
    have hadd := Store.Preserves.addList t vs.toArray
    refine ⟨.list t.lists.size, (t.addList vs.toArray).2, ?_, hpreserves.trans hadd, t.lists.size, vs.toArray, rfl,
      Array.getElem?_push_size, hadd.haveContents items hcontents⟩
    rw [fromHost, bind_of_done hvs]
    rfl
  | .set members, _, s, ⟨as, hmembers, hh, has⟩ => by
    subst hh hmembers
    have hadd := Store.Preserves.addSet s (as.map Atom.value)
    refine ⟨.set s.sets.size, (s.addSet (as.map Atom.value)).2, ?_, hadd, s.sets.size, as.map Atom.value, rfl,
      Array.getElem?_push_size, Store.haveContents_atoms _ as⟩
    rw [fromHost, bind_of_done (Atom.fromHostAll_data as s), Members.ofList_of_distinct (distinct_values has)]
    rfl
  | .map entries, _, s, ⟨hs, hh, hentries⟩ => by
    subst hh
    obtain ⟨vs, t, hvs, hpreserves, hcontents⟩ := HostValue.EntriesHaveContents.taken entries s hentries
    obtain ⟨as, hkeys, has⟩ := hentries.keys
    have hdistinct : Entries.Distinct vs := by
      have hvalues := hcontents.keys
      rw [hkeys] at hvalues
      rw [Entries.Distinct, hvalues.atoms]
      exact distinct_values has
    have hadd := Store.Preserves.addMap t vs
    refine ⟨.map t.maps.size, (t.addMap vs).2, ?_, hpreserves.trans hadd, t.maps.size, vs, rfl,
      Array.getElem?_push_size, hadd.entriesHaveContents entries hcontents⟩
    rw [fromHost, bind_of_done hvs, Entries.putAll_of_distinct hdistinct]
    rfl

theorem HostValue.HaveContents.taken : ∀ (cs : List Content) {hs : List HostValue} (s : Store),
    HostValue.HaveContents hs cs → ∃ vs t, fromHostAll hs s = .done vs t ∧ s.Preserves t ∧ t.HaveContents vs cs
  | [], [], s, _ => ⟨[], s, rfl, .refl s, trivial⟩
  | c :: cs, h :: hs, s, hhs => by
    obtain ⟨v, t, hv, hpreserves, hcontent⟩ := HostValue.HasContent.taken c s hhs.1
    obtain ⟨vs, u, hvs, hpreserves', hcontents⟩ := HostValue.HaveContents.taken cs t hhs.2
    refine ⟨v :: vs, u, ?_, hpreserves.trans hpreserves', hpreserves'.hasContent c hcontent, hcontents⟩
    rw [fromHostAll, bind_of_done hv, bind_of_done hvs]
    rfl

theorem HostValue.EntriesHaveContents.taken : ∀ (cs : List (Content × Content)) {hs : List (HostValue × HostValue)}
    (s : Store), HostValue.EntriesHaveContents hs cs →
    ∃ vs t, fromHostEntries hs s = .done vs t ∧ s.Preserves t ∧ t.EntriesHaveContents vs cs
  | [], [], s, _ => ⟨[], s, rfl, .refl s, trivial⟩
  | (k, c) :: cs, (g, h) :: hs, s, ⟨⟨a, hk, hg, _⟩, hc, hrest⟩ => by
    subst hk
    obtain rfl : g = a.data := hg
    obtain ⟨v, t, hv, hpreserves, hcontent⟩ := HostValue.HasContent.taken c s hc
    obtain ⟨vs, u, hvs, hpreserves', hcontents⟩ := HostValue.EntriesHaveContents.taken cs t hrest
    refine ⟨(a.value, v) :: vs, u, ?_, hpreserves.trans hpreserves', rfl, hpreserves'.hasContent c hcontent, hcontents⟩
    rw [fromHostEntries, bind_of_done (a.fromHost_data s), bind_of_done hv, bind_of_done hvs]
    rfl

end

end Dartlet
