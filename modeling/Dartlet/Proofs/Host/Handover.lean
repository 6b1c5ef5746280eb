import Dartlet.Proofs.Host.Content

/-!
# Handing contents to the host

A value with a content becomes data of the host, unless a set or a map inside has a collection among its
members or keys. The data are the content with lists for iterables, but for keys that are equal for the
host: of these only the first is left.
-/

namespace Dartlet

/-- Of two contents that are atoms, each is another key for the host. -/
def Content.ApartKeys (c d : Content) : Prop := ∀ a b, c = .atom a → d = .atom b → a.Apart b

/-- The keys of a content are different for the host. -/
def Content.KeysApart (c : Content) : Prop := c.keys.Pairwise Content.ApartKeys

mutual

/-- Data of the host have a content without iterables, whose keys are different atoms. -/
def HostValue.HasContent (h : HostValue) : Content → Prop
  | .atom a => h = a.data
  | .list items => ∃ hs, h = .list hs ∧ HostValue.HaveContents hs items
  | .iterable _ => False
  | .set members => ∃ as : List Atom, members = as.map .atom ∧ h = .set (as.map Atom.data) ∧ as.Pairwise Atom.Apart
  | .map entries => ∃ hs, h = .dict hs ∧ HostValue.EntriesHaveContents hs entries

/-- Data of the host have their contents, in order. -/
def HostValue.HaveContents : List HostValue → List Content → Prop
  | [], [] => True
  | h :: hs, c :: cs => h.HasContent c ∧ HostValue.HaveContents hs cs
  | _, _ => False

/-- Entries have different atoms as keys, and values with their contents, in order. -/
def HostValue.EntriesHaveContents : List (HostValue × HostValue) → List (Content × Content) → Prop
  | [], [] => True
  | h :: hs, (k, c) :: cs =>
    (∃ a, k = .atom a ∧ h.1 = a.data ∧ ∀ b, .atom b ∈ cs.map Prod.fst → a.Apart b) ∧
      h.2.HasContent c ∧ HostValue.EntriesHaveContents hs cs
  | _, _ => False

end

/-! ### Merging keys -/

/-- Adding an atom to a set of the host. -/
theorem exists_addMember {as : List Atom} (has : as.Pairwise Atom.Apart) (a : Atom) :
    ∃ bs : List Atom, HostValue.addMember (as.map Atom.data) a.data = bs.map Atom.data ∧ bs.Pairwise Atom.Apart ∧
      ((∀ b ∈ as, b.Apart a) → bs = as ++ [a]) := by
  unfold HostValue.addMember
  split
  · rename_i hany
    refine ⟨as, rfl, has, fun hapart => ?_⟩
    obtain ⟨m, hm, hsame⟩ := List.any_eq_true.mp hany
    obtain ⟨b, hb, rfl⟩ := List.mem_map.mp hm
    exact absurd (hsame.symm.trans (hapart b hb)) (by decide)
  · rename_i hany
    refine ⟨as ++ [a], by simp, List.pairwise_append.mpr ⟨has, List.pairwise_singleton _ _, ?_⟩, fun _ => rfl⟩
    simpa [Atom.Apart] using hany

/-- Storing a value under an atom in a table of the host. -/
theorem HostValue.EntriesHaveContents.put {a : Atom} {h : HostValue} {c : Content} (hc : h.HasContent c)
    {hs : List (HostValue × HostValue)} {cs : List (Content × Content)} (hcs : HostValue.EntriesHaveContents hs cs) :
    ∃ ds, HostValue.EntriesHaveContents (HostValue.putEntry a.data h hs) ds ∧
      (∀ b, .atom b ∈ ds.map Prod.fst → .atom b ∈ cs.map Prod.fst ∨ b = a) ∧
      ((∀ b, .atom b ∈ cs.map Prod.fst → b.Apart a) → ds = cs ++ [(.atom a, c)]) := by
  induction hs generalizing cs with
  | nil =>
    cases cs with
    | nil => exact ⟨[(.atom a, c)], ⟨⟨a, rfl, rfl, by simp⟩, hc, trivial⟩, by simp, fun _ => rfl⟩
    | cons c' cs => cases hcs
  | cons e hs ih =>
    cases cs with
    | nil => cases hcs
    | cons c' cs =>
      obtain ⟨⟨b, hkey, hb, hapart⟩, hvalue, hrest⟩ := hcs
      rw [HostValue.putEntry]
      split
      · rename_i hsame
        refine ⟨(c'.1, c) :: cs, ⟨⟨b, hkey, hb, hapart⟩, hc, hrest⟩, fun d hd => .inl hd, fun hall => ?_⟩
        have hba : b.Apart a := hall b (by simp [hkey])
        rw [hb] at hsame
        exact absurd (hsame.symm.trans hba) (by decide)
      · rename_i hsame
        obtain ⟨ds, hds, hkeys, hnew⟩ := ih hrest
        refine ⟨c' :: ds, ⟨⟨b, hkey, hb, fun d hd => ?_⟩, hvalue, hds⟩, fun d hd => ?_, fun hall => ?_⟩
        · rcases hkeys d hd with hd | rfl
          · exact hapart d hd
          · simpa [hb, Atom.Apart] using hsame
        · rcases List.mem_cons.mp hd with hd | hd
          · exact .inl (List.mem_cons.mpr (.inl hd))
          · exact (hkeys d hd).imp (List.mem_cons_of_mem _) id
        · rw [hnew (fun d hd => hall d (List.mem_cons_of_mem _ hd)), List.cons_append]

/-! ### From values to data -/

/-- What holds from some limit on. -/
def FromSomeLimit (P : Nat → Prop) : Prop := ∃ least, ∀ limit, least ≤ limit → P limit

namespace FromSomeLimit

variable {P Q R : Nat → Prop}

theorem of_forall (h : ∀ limit, P limit) : FromSomeLimit P := ⟨0, fun limit _ => h limit⟩

theorem map (h : FromSomeLimit P) (hPQ : ∀ limit, P limit → Q limit) : FromSomeLimit Q :=
  h.imp (fun _ hleast limit hlimit => hPQ limit (hleast limit hlimit))

theorem map₂ (h : FromSomeLimit P) (h' : FromSomeLimit Q) (hPQR : ∀ limit, P limit → Q limit → R limit) :
    FromSomeLimit R := by
  obtain ⟨n, hn⟩ := h
  obtain ⟨m, hm⟩ := h'
  exact ⟨max n m, fun limit hlimit => hPQR limit (hn limit (by omega)) (hm limit (by omega))⟩

theorem of_succ (h : FromSomeLimit (fun limit => P (limit + 1))) : FromSomeLimit P := by
  obtain ⟨n, hn⟩ := h
  refine ⟨n + 1, fun limit hlimit => ?_⟩
  obtain ⟨k, rfl⟩ : ∃ k, limit = k + 1 := ⟨limit - 1, by omega⟩
  exact hn k (by omega)

end FromSomeLimit

variable {s : Store}

@[simp] theorem Atom.toHostWithin_value (a : Atom) (limit : Nat) : a.value.toHostWithin s limit = .ok a.data := by
  cases a <;> simp [Atom.value, Atom.data, Value.toHostWithin]

@[simp] theorem Atom.asKey_data (a : Atom) : a.data.asKey = .ok a.data := by cases a <;> rfl

/-- Collections are no keys for the host. -/
theorem asKey_toHostWithin {v : Value} {c : Content} (hv : v.HasContent s c) {kind : String} (hc : c.hostKind? = some kind)
    {limit : Nat} {h : HostValue} (hh : v.toHostWithin s limit = .ok h) : h.asKey = .error (.unhashable kind) := by
  have hof {α : Type} {r : Except HostFailure α} {f : α → HostValue} (hr : r.map f = .ok h) : ∃ x, h = f x := by
    cases r with
    | ok x => exact ⟨x, (Except.ok.inj hr).symm⟩
    | error e => cases hr
  cases c with
  | atom a => cases hc
  | list items =>
    obtain ⟨a, elements, rfl, -, -⟩ := hv
    cases hc
    cases limit with
    | zero => cases hh
    | succ limit =>
      obtain ⟨x, rfl⟩ := hof hh
      rfl
  | iterable items =>
    obtain ⟨a, elements, rfl, -, -⟩ := hv
    cases hc
    cases limit with
    | zero => cases hh
    | succ limit =>
      obtain ⟨x, rfl⟩ := hof hh
      rfl
  | set members =>
    obtain ⟨a, elements, rfl, -, -⟩ := hv
    cases hc
    cases limit with
    | zero => cases hh
    | succ limit =>
      obtain ⟨x, rfl⟩ := hof hh
      rfl
  | map entries =>
    obtain ⟨a, elements, rfl, -, -⟩ := hv
    cases hc
    cases limit with
    | zero => cases hh
    | succ limit =>
      obtain ⟨x, rfl⟩ := hof hh
      rfl

/-- How handing something over may end. It may fail, but only for a collection that is a key; or else no collection
is one, and if moreover all keys are different for the host, then its data have the contents that are expected. -/
def Handed {α δ : Type} (parts : List Content) (hasContent : α → δ → Prop) (expected : δ) : Except HostFailure α → Prop
  | .error f => ∃ kind, f = .unhashable kind ∧ ∃ p ∈ parts, ∃ k ∈ p.keys, k.hostKind? = some kind
  | .ok h => (∀ p ∈ parts, ∀ k ∈ p.keys, k.hostKind? = none) ∧
    ∃ d, hasContent h d ∧ ((∀ p ∈ parts, p.KeysApart) → d = expected)

/-- How handing over the members of a set may end, when some are already in a set of the host. -/
def MembersHanded (as : List Atom) (members : List Content) : Except HostFailure (List HostValue) → Prop
  | .error f => ∃ kind, f = .unhashable kind ∧
    ((∃ k ∈ members, k.hostKind? = some kind) ∨ ∃ p ∈ Content.partsAll members, ∃ k ∈ p.keys, k.hostKind? = some kind)
  | .ok hs => ∃ bs ds : List Atom, members = bs.map .atom ∧ hs = ds.map Atom.data ∧ ds.Pairwise Atom.Apart ∧
    ((as ++ bs).Pairwise Atom.Apart → ds = as ++ bs)

/-- How handing over the entries of a map may end, when some are already in a table of the host. -/
def EntriesHanded (before entries : List (Content × Content)) : Except HostFailure (List (HostValue × HostValue)) → Prop
  | .error f => ∃ kind, f = .unhashable kind ∧ ((∃ e ∈ entries, e.1.hostKind? = some kind) ∨
    ∃ p ∈ Content.partsEntries entries, ∃ k ∈ p.keys, k.hostKind? = some kind)
  | .ok hs => (∀ e ∈ entries, e.1.hostKind? = none) ∧
    (∀ p ∈ Content.partsEntries entries, ∀ k ∈ p.keys, k.hostKind? = none) ∧
    ∃ ds, HostValue.EntriesHaveContents hs ds ∧ ((∀ p ∈ Content.partsEntries entries, p.KeysApart) →
      (before.map Prod.fst ++ entries.map Prod.fst).Pairwise Content.ApartKeys →
      ds = before ++ Content.listedEntries entries)

/-- Add a value to a set of the host. -/
def addValue (s : Store) (limit : Nat) (members : List HostValue) (v : Value) : Except HostFailure (List HostValue) := do
  let h ← v.toHostWithin s limit
  let key ← h.asKey
  .ok (HostValue.addMember members key)

/-- Store an entry in a table of the host. -/
def putValues (s : Store) (limit : Nat) (entries : List (HostValue × HostValue)) (e : Value × Value) :
    Except HostFailure (List (HostValue × HostValue)) := do
  let h ← e.1.toHostWithin s limit
  let value ← e.2.toHostWithin s limit
  let key ← h.asKey
  .ok (HostValue.putEntry key value entries)

section

variable {limit : Nat} {f : HostFailure} {h h' : HostValue}

theorem addValue_error {members : List HostValue} {v : Value} (hv : v.toHostWithin s limit = .error f) :
    addValue s limit members v = .error f := by
  rw [addValue, hv]
  rfl

theorem addValue_ok {members : List HostValue} {v : Value} (hv : v.toHostWithin s limit = .ok h) :
    addValue s limit members v = h.asKey.map (HostValue.addMember members) := by
  rw [addValue, hv]
  change (h.asKey >>= fun key => Except.ok (HostValue.addMember members key)) = _
  cases h.asKey <;> rfl

variable {entries : List (HostValue × HostValue)} {e : Value × Value}

theorem putValues_key_error (hk : e.1.toHostWithin s limit = .error f) : putValues s limit entries e = .error f := by
  rw [putValues, hk]
  rfl

theorem putValues_error (hk : e.1.toHostWithin s limit = .ok h) (hv : e.2.toHostWithin s limit = .error f) :
    putValues s limit entries e = .error f := by
  rw [putValues, hk, hv]
  rfl

theorem putValues_ok (hk : e.1.toHostWithin s limit = .ok h) (hv : e.2.toHostWithin s limit = .ok h') :
    putValues s limit entries e = h.asKey.map (HostValue.putEntry · h' entries) := by
  rw [putValues, hk, hv]
  change (h.asKey >>= fun key => Except.ok (HostValue.putEntry key h' entries)) = _
  cases h.asKey <;> rfl

end

theorem toHostWithin_set (limit : Nat) (a : Address) :
    (Value.set a).toHostWithin s (limit + 1) = ((s.set a).foldlM (addValue s limit) []).map .set := rfl

theorem toHostWithin_map (limit : Nat) (a : Address) :
    (Value.map a).toHostWithin s (limit + 1) = ((s.map a).foldlM (putValues s limit) []).map .dict := rfl

theorem Content.partsAll_atoms (as : List Atom) : partsAll (as.map .atom) = as.map .atom := by
  induction as <;> simp_all [partsAll, parts]

theorem Content.listedAll_atoms (as : List Atom) : listedAll (as.map .atom) = as.map .atom := by
  induction as <;> simp_all [listedAll, listed]

theorem Content.hostKind?_eq_none {c : Content} (h : c.hostKind? = none) : ∃ a, c = .atom a := by
  cases c with
  | atom a => exact ⟨a, rfl⟩
  | _ => cases h

/-- The items of a list or an iterable are handed over with it. -/
theorem Handed.list {c : Content} {items : List Content} (hc : c.keys = []) {r : Except HostFailure (List HostValue)}
    (h : Handed (Content.partsAll items) HostValue.HaveContents (Content.listedAll items) r) :
    Handed (c :: Content.partsAll items) HostValue.HasContent (.list (Content.listedAll items)) (r.map .list) := by
  cases r with
  | error f =>
    obtain ⟨kind, rfl, p, hp, hkey⟩ := h
    exact ⟨kind, rfl, p, List.mem_cons_of_mem c hp, hkey⟩
  | ok hs =>
    obtain ⟨hnone, ds, hds, hlisted⟩ := h
    refine ⟨List.forall_mem_cons.mpr ⟨by simp [hc], hnone⟩, .list ds, ⟨hs, rfl, hds⟩, fun hapart => ?_⟩
    rw [hlisted (List.forall_mem_cons.mp hapart).2]

/-- One content is handed over, and then others. -/
theorem Handed.cons {c : Content} {cs : List Content} {h : HostValue} {r : Except HostFailure (List HostValue)}
    (hc : Handed c.parts HostValue.HasContent c.listed (.ok h))
    (hcs : Handed (Content.partsAll cs) HostValue.HaveContents (Content.listedAll cs) r) :
    Handed (Content.partsAll (c :: cs)) HostValue.HaveContents (Content.listedAll (c :: cs)) (r.map (h :: ·)) := by
  obtain ⟨hnone, d, hd, hlisted⟩ := hc
  cases r with
  | error f =>
    obtain ⟨kind, rfl, p, hp, hkey⟩ := hcs
    exact ⟨kind, rfl, p, List.mem_append_right _ hp, hkey⟩
  | ok hs =>
    obtain ⟨hnone', ds, hds, hlisted'⟩ := hcs
    refine ⟨List.forall_mem_append.mpr ⟨hnone, hnone'⟩, d :: ds, ⟨hd, hds⟩, fun hapart => ?_⟩
    obtain ⟨hapart, hapart'⟩ := List.forall_mem_append.mp hapart
    rw [hlisted hapart, hlisted' hapart', Content.listedAll]

/-- An atom is added to a set of the host, and then other members. -/
theorem MembersHanded.cons {as bs : List Atom} {a : Atom} {members : List Content} {r : Except HostFailure (List HostValue)}
    (hnew : (∀ b ∈ as, b.Apart a) → bs = as ++ [a]) (h : MembersHanded bs members r) :
    MembersHanded as (.atom a :: members) r := by
  cases r with
  | error f =>
    obtain ⟨kind, rfl, ⟨k, hk, hkey⟩ | ⟨p, hp, hkey⟩⟩ := h
    · exact ⟨kind, rfl, .inl ⟨k, List.mem_cons_of_mem _ hk, hkey⟩⟩
    · exact ⟨kind, rfl, .inr ⟨p, List.mem_append_right _ hp, hkey⟩⟩
  | ok hs =>
    obtain ⟨cs, ds, rfl, rfl, hds, hall⟩ := h
    refine ⟨a :: cs, ds, rfl, rfl, hds, fun hapart => ?_⟩
    have hbs := hnew (fun b hb => (List.pairwise_append.mp hapart).2.2 b hb a List.mem_cons_self)
    have hsplit : as ++ a :: cs = bs ++ cs := by rw [hbs, List.append_assoc, List.singleton_append]
    rw [hsplit] at hapart ⊢
    exact hall hapart

/-- An entry is stored in a table of the host, and then others. -/
theorem EntriesHanded.cons {before ds entries : List (Content × Content)} {a : Atom} {c d : Content}
    {r : Except HostFailure (List (HostValue × HostValue))} (hnone : ∀ p ∈ c.parts, ∀ k ∈ p.keys, k.hostKind? = none)
    (hlisted : (∀ p ∈ c.parts, p.KeysApart) → d = c.listed)
    (hnew : (∀ b, .atom b ∈ before.map Prod.fst → b.Apart a) → ds = before ++ [(.atom a, d)])
    (h : EntriesHanded ds entries r) : EntriesHanded before ((.atom a, c) :: entries) r := by
  have hparts : Content.partsEntries ((.atom a, c) :: entries) = .atom a :: (c.parts ++ Content.partsEntries entries) := by
    simp [Content.partsEntries, Content.parts]
  cases r with
  | error f =>
    obtain ⟨kind, rfl, ⟨e, he, hkey⟩ | ⟨p, hp, hkey⟩⟩ := h
    · exact ⟨kind, rfl, .inl ⟨e, List.mem_cons_of_mem _ he, hkey⟩⟩
    · exact ⟨kind, rfl, .inr ⟨p, hparts ▸ List.mem_cons_of_mem _ (List.mem_append_right _ hp), hkey⟩⟩
  | ok hs =>
    obtain ⟨hatoms, hnone', es, hes, hall⟩ := h
    refine ⟨List.forall_mem_cons.mpr ⟨rfl, hatoms⟩, ?_, es, hes, fun hapart hpairwise => ?_⟩
    · rw [hparts]
      exact List.forall_mem_cons.mpr ⟨by simp [Content.keys], List.forall_mem_append.mpr ⟨hnone, hnone'⟩⟩
    · rw [hparts] at hapart
      obtain ⟨hapart, hapart'⟩ := List.forall_mem_append.mp (List.forall_mem_cons.mp hapart).2
      have hds : ds = before ++ [(.atom a, c.listed)] := by
        rw [← hlisted hapart]
        exact hnew (fun b hb => (List.pairwise_append.mp hpairwise).2.2 _ hb _ List.mem_cons_self b a rfl rfl)
      subst hds
      rw [hall hapart' (by simpa using hpairwise), Content.listedEntries, Content.listed, List.append_assoc,
        List.singleton_append]

/-- The members of a set are handed over with it. -/
theorem MembersHanded.set {members : List Content} {r : Except HostFailure (List HostValue)}
    (h : MembersHanded [] members r) :
    Handed (Content.set members).parts HostValue.HasContent (Content.set members).listed (r.map .set) := by
  cases r with
  | error f =>
    obtain ⟨kind, rfl, hkey | ⟨p, hp, hkey⟩⟩ := h
    · exact ⟨kind, rfl, .set members, List.mem_cons_self, hkey⟩
    · exact ⟨kind, rfl, p, List.mem_cons_of_mem _ hp, hkey⟩
  | ok hs =>
    obtain ⟨as, ds, rfl, rfl, hds, hall⟩ := h
    refine ⟨?_, .set (ds.map .atom), ⟨ds, rfl, rfl, hds⟩, fun hapart => ?_⟩
    · simp [Content.parts, Content.partsAll_atoms, Content.keys, Content.hostKind?]
    · have has : as.Pairwise Atom.Apart := by
        have hkeys := hapart _ List.mem_cons_self
        rw [Content.KeysApart, Content.keys, List.pairwise_map] at hkeys
        exact hkeys.imp (fun hab => hab _ _ rfl rfl)
      rw [hall has, Content.listed, Content.listedAll_atoms, List.nil_append]

/-- The entries of a map are handed over with it. -/
theorem EntriesHanded.map {entries : List (Content × Content)} {r : Except HostFailure (List (HostValue × HostValue))}
    (h : EntriesHanded [] entries r) :
    Handed (Content.map entries).parts HostValue.HasContent (Content.map entries).listed (r.map .dict) := by
  cases r with
  | error f =>
    obtain ⟨kind, rfl, ⟨e, he, hkey⟩ | ⟨p, hp, hkey⟩⟩ := h
    · exact ⟨kind, rfl, .map entries, List.mem_cons_self, e.1, List.mem_map_of_mem he, hkey⟩
    · exact ⟨kind, rfl, p, List.mem_cons_of_mem _ hp, hkey⟩
  | ok hs =>
    obtain ⟨hatoms, hnone, ds, hds, hall⟩ := h
    refine ⟨List.forall_mem_cons.mpr ⟨by simpa [Content.keys] using fun k c hkc => hatoms (k, c) hkc, hnone⟩,
      .map ds, ⟨hs, rfl, hds⟩, fun hapart => ?_⟩
    obtain ⟨hkeys, hapart⟩ := List.forall_mem_cons.mp hapart
    rw [hall hapart hkeys, Content.listed, List.nil_append]

mutual

/-- With enough levels, a value with a content is handed over. -/
theorem Value.HasContent.handed : ∀ (c : Content) {v : Value}, v.HasContent s c →
    ∃ r, FromSomeLimit (fun limit => v.toHostWithin s limit = r) ∧ Handed c.parts HostValue.HasContent c.listed r
  | .atom a, v, hv => by
    obtain rfl : v = a.value := hv
    refine ⟨.ok a.data, .of_forall (by simp), ?_, .atom a, rfl, fun _ => rfl⟩
    simp [Content.parts, Content.keys]
  | .list items, v, hv => by
    obtain ⟨a, elements, rfl, ha, hitems⟩ := hv
    obtain ⟨r, hr, hhanded⟩ := Store.HaveContents.handed items hitems
    have hlist : s.list a = elements := by simp [Store.list, ha]
    refine ⟨r.map .list, .of_succ (hr.map fun limit hlimit => ?_), hhanded.list rfl⟩
    rw [Value.toHostWithin, hlist, hlimit]
  | .iterable items, v, hv => by
    obtain ⟨a, elements, rfl, ha, hitems⟩ := hv
    obtain ⟨r, hr, hhanded⟩ := Store.HaveContents.handed items hitems
    have hiterable : s.iterable a = elements := by simp [Store.iterable, ha]
    refine ⟨r.map .list, .of_succ (hr.map fun limit hlimit => ?_), hhanded.list rfl⟩
    rw [Value.toHostWithin, hiterable, hlimit]
  | .set members, v, hv => by
    obtain ⟨a, elements, rfl, ha, hmembers⟩ := hv
    obtain ⟨r, hr, hhanded⟩ := Store.HaveContents.membersHanded members List.Pairwise.nil hmembers
    have hset : s.set a = elements := by simp [Store.set, ha]
    refine ⟨r.map .set, .of_succ (hr.map fun limit hlimit => ?_), hhanded.set⟩
    rw [toHostWithin_set, hset]
    exact congrArg (Except.map _) hlimit
  | .map entries, v, hv => by
    obtain ⟨a, pairs, rfl, ha, hentries⟩ := hv
    have hnothing : HostValue.EntriesHaveContents [] [] := trivial
    obtain ⟨r, hr, hhanded⟩ := Store.EntriesHaveContents.handed entries hnothing hentries
    have hmap : s.map a = pairs := by simp [Store.map, ha]
    refine ⟨r.map .dict, .of_succ (hr.map fun limit hlimit => ?_), hhanded.map⟩
    rw [toHostWithin_map, hmap, hlimit]

/-- With enough levels, values with contents are handed over. -/
theorem Store.HaveContents.handed : ∀ (cs : List Content) {vs : List Value}, s.HaveContents vs cs →
    ∃ r, FromSomeLimit (fun limit => vs.mapM (Value.toHostWithin s limit) = r) ∧
      Handed (Content.partsAll cs) HostValue.HaveContents (Content.listedAll cs) r
  | [], vs, hvs => by
    cases vs with
    | nil => exact ⟨.ok [], .of_forall (fun _ => rfl), by simp [Content.partsAll], [], trivial, fun _ => rfl⟩
    | cons v vs => cases hvs
  | c :: cs, vs, hvs => by
    cases vs with
    | nil => cases hvs
    | cons v vs =>
      obtain ⟨r, hr, hhanded⟩ := Value.HasContent.handed c hvs.1
      cases r with
      | error f =>
        refine ⟨.error f, hr.map fun limit hlimit => ?_, ?_⟩
        · rw [List.mapM_cons, hlimit]
          rfl
        · obtain ⟨kind, rfl, p, hp, hkey⟩ := hhanded
          exact ⟨kind, rfl, p, List.mem_append_left _ hp, hkey⟩
      | ok h =>
        obtain ⟨r, hr', hhanded'⟩ := Store.HaveContents.handed cs hvs.2
        refine ⟨r.map (h :: ·), hr.map₂ hr' fun limit hlimit hlimit' => ?_, hhanded.cons hhanded'⟩
        rw [List.mapM_cons, hlimit, hlimit']
        cases r <;> rfl

/-- With enough levels, members with contents are handed over. -/
theorem Store.HaveContents.membersHanded : ∀ (cs : List Content) {vs : List Value} {as : List Atom},
    as.Pairwise Atom.Apart → s.HaveContents vs cs →
    ∃ r, FromSomeLimit (fun limit => vs.foldlM (addValue s limit) (as.map Atom.data) = r) ∧ MembersHanded as cs r
  | [], vs, as, has, hvs => by
    cases vs with
    | nil => exact ⟨.ok _, .of_forall (fun _ => rfl), [], as, rfl, rfl, has, fun _ => by simp⟩
    | cons v vs => cases hvs
  | c :: cs, vs, as, has, hvs => by
    cases vs with
    | nil => cases hvs
    | cons v vs =>
      obtain ⟨r, hr, hhanded⟩ := Value.HasContent.handed c hvs.1
      cases r with
      | error f =>
        refine ⟨.error f, hr.map fun limit hlimit => ?_, ?_⟩
        · rw [List.foldlM_cons, addValue_error hlimit]
          rfl
        · obtain ⟨kind, rfl, p, hp, hkey⟩ := hhanded
          exact ⟨kind, rfl, .inr ⟨p, List.mem_append_left _ hp, hkey⟩⟩
      | ok h =>
        cases hkind : c.hostKind? with
        | some kind =>
          refine ⟨.error (.unhashable kind), hr.map fun limit hlimit => ?_, kind, rfl, .inl ⟨c, List.mem_cons_self, hkind⟩⟩
          rw [List.foldlM_cons, addValue_ok hlimit, asKey_toHostWithin hvs.1 hkind hlimit]
          rfl
        | none =>
          obtain ⟨a, rfl⟩ := Content.hostKind?_eq_none hkind
          obtain rfl : v = a.value := hvs.1
          obtain ⟨bs, hadd, hbs, hnew⟩ := exists_addMember has a
          obtain ⟨r, hr, hhanded⟩ := Store.HaveContents.membersHanded cs hbs hvs.2
          refine ⟨r, hr.map fun limit hlimit => ?_, ?_⟩
          · rw [List.foldlM_cons, addValue_ok (a.toHostWithin_value limit), a.asKey_data, ← hlimit, ← hadd]
            rfl
          · exact hhanded.cons hnew

/-- With enough levels, entries with contents are handed over. -/
theorem Store.EntriesHaveContents.handed : ∀ (cs : List (Content × Content)) {vs : List (Value × Value)}
    {hs : List (HostValue × HostValue)} {before : List (Content × Content)},
    HostValue.EntriesHaveContents hs before → s.EntriesHaveContents vs cs →
    ∃ r, FromSomeLimit (fun limit => vs.foldlM (putValues s limit) hs = r) ∧ EntriesHanded before cs r
  | [], vs, hs, before, hhs, hvs => by
    cases vs with
    | nil => exact ⟨.ok hs, .of_forall (fun _ => rfl), by simp, by simp [Content.partsEntries], before, hhs, fun _ _ => by simp [Content.listedEntries]⟩
    | cons v vs => cases hvs
  | (k, c) :: cs, vs, hs, before, hhs, hvs => by
    cases vs with
    | nil => cases hvs
    | cons e vs =>
      obtain ⟨hk, hc, hrest⟩ := hvs
      obtain ⟨r, hr, hhanded⟩ := Value.HasContent.handed k hk
      cases r with
      | error f =>
        refine ⟨.error f, hr.map fun limit hlimit => ?_, ?_⟩
        · rw [List.foldlM_cons, putValues_key_error hlimit]
          rfl
        · obtain ⟨kind, rfl, p, hp, hkey⟩ := hhanded
          exact ⟨kind, rfl, .inr ⟨p, List.mem_append_left _ (List.mem_append_left _ hp), hkey⟩⟩
      | ok g =>
        obtain ⟨r, hr', hhanded'⟩ := Value.HasContent.handed c hc
        cases r with
        | error f =>
          refine ⟨.error f, hr.map₂ hr' fun limit hlimit hlimit' => ?_, ?_⟩
          · rw [List.foldlM_cons, putValues_error hlimit hlimit']
            rfl
          · obtain ⟨kind, rfl, p, hp, hkey⟩ := hhanded'
            exact ⟨kind, rfl, .inr ⟨p, List.mem_append_left _ (List.mem_append_right _ hp), hkey⟩⟩
        | ok h =>
          cases hkind : k.hostKind? with
          | some kind =>
            refine ⟨.error (.unhashable kind), hr.map₂ hr' fun limit hlimit hlimit' => ?_, kind, rfl,
              .inl ⟨(k, c), List.mem_cons_self, hkind⟩⟩
            rw [List.foldlM_cons, putValues_ok hlimit hlimit', asKey_toHostWithin hk hkind hlimit]
            rfl
          | none =>
            obtain ⟨a, rfl⟩ := Content.hostKind?_eq_none hkind
            have ha : e.1 = a.value := hk
            obtain ⟨hnone, d, hd, hlisted⟩ := hhanded'
            obtain ⟨ds, hds, -, hnew⟩ := hhs.put (a := a) hd
            obtain ⟨r, hr'', hhanded''⟩ := Store.EntriesHaveContents.handed cs hds hrest
            refine ⟨r, hr'.map₂ hr'' fun limit hlimit' hlimit'' => ?_, hhanded''.cons hnone hlisted hnew⟩
            have hlimit : e.1.toHostWithin s limit = .ok a.data := by rw [ha, a.toHostWithin_value]
            rw [List.foldlM_cons, putValues_ok hlimit hlimit', a.asKey_data, ← hlimit'']
            rfl

end

end Dartlet
