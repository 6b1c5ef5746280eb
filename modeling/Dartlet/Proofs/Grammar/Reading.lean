import Dartlet.Proofs.Grammar.Charts

/-!
# Reading terminals

Every terminal that fits takes a chart whose sets hold exactly the valid items to the next such
chart. So the chart that has read all it can tells which beginnings of the terminals begin sentences.
-/

namespace Dartlet.Syntax.RuleTable

variable {g : RuleTable} {start c : Category} {w : List Terminal} {sets : ItemSets}

/-! ### How many items there are -/

/-- The length of the longest body. -/
def longestBody (g : RuleTable) : Nat := g.rules.foldl (fun n r => max n r.body.length) 0

theorem length_le_longestBody {r : Rule} (hr : r ∈ g.rules) : r.body.length ≤ g.longestBody := by
  have h (rules : List Rule) (n : Nat) : n ≤ rules.foldl (fun n r => max n r.body.length) n ∧
      ∀ r ∈ rules, r.body.length ≤ rules.foldl (fun n r => max n r.body.length) n := by
    induction rules generalizing n with
    | nil => simp
    | cons r₀ rules ih =>
      obtain ⟨hn, hrules⟩ := ih (max n r₀.body.length)
      simp only [List.foldl_cons, List.mem_cons, forall_eq_or_imp]
      exact ⟨by omega, by omega, hrules⟩
  rw [longestBody, ← Array.foldl_toList]
  exact (h g.rules.toList 0).2 r (Array.mem_toList_iff.mpr hr)

/-- The items that may be valid at places up to a given one. -/
def possibleItems (g : RuleTable) (place : Nat) : Finset Item :=
  (Finset.range g.rules.size ×ˢ Finset.range (g.longestBody + 1) ×ˢ Finset.range (place + 1)).image
    (fun t => ⟨t.1, t.2.1, t.2.2⟩)

theorem card_possibleItems_le (g : RuleTable) (place : Nat) :
    (g.possibleItems place).card ≤ g.rules.size * (g.longestBody + 1) * (place + 1) := by
  refine Finset.card_image_le.trans (le_of_eq ?_)
  simp [Finset.card_product, Nat.mul_assoc]

theorem Valid.mem_possibleItems {x u v : List Terminal} {i : Item} {r : Rule} {place : Nat}
    (h : g.Valid start x i r u v) (hx : x.length ≤ place) : i ∈ g.possibleItems place := by
  have hrule := (Array.getElem?_eq_some_iff.mp h.rule).1
  have hbody := length_le_longestBody h.mem
  have hdot := h.dot
  have horigin : i.origin ≤ place := by
    rw [h.origin]
    rw [h.word, List.length_append] at hx
    omega
  refine Finset.mem_image.mpr ⟨(i.rule, i.dot, i.origin), ?_, rfl⟩
  simp only [Finset.mem_product, Finset.mem_range]
  omega

/-! ### One place -/

/-- A chart whose sets hold the valid items of their places, each of them once. -/
structure Faithful (g : RuleTable) (start : Category) (w : List Terminal) (sets : ItemSets) : Prop where
  pos : 0 < sets.size
  size : sets.size ≤ w.length + 1
  sound : ∀ p < sets.size, ∀ i ∈ itemsAt sets p, ∃ r u v, g.Valid start (w.take p) i r u v
  closed : g.Closed start w (fun p i => i ∈ itemsAt sets p) (sets.size - 1)
  nodup : ∀ p < sets.size, (itemsAt sets p).Nodup

namespace Faithful

/-- The set of a place holds exactly the valid items. -/
theorem mem_iff (h : g.Faithful start w sets) {p : Nat} (hp : p < sets.size) {i : Item} :
    i ∈ itemsAt sets p ↔ ∃ r u v, g.Valid start (w.take p) i r u v := by
  refine ⟨h.sound p hp i, fun ⟨r, u, v, hi⟩ => ?_⟩
  have hsize := h.size
  have hlength : (w.take p).length = p := by simp; omega
  have := h.closed.holds_of_valid hi (List.take_append_drop p w).symm (by omega)
  rwa [hlength] at this

/-- What has been read with one more terminal. -/
theorem take_size (h : g.Faithful start w sets) {t : Terminal} (ht : w[sets.size - 1]? = some t) :
    w.take sets.size = w.take (sets.size - 1) ++ [t] := by
  have htake := List.take_add_one (i := sets.size - 1) (l := w)
  rwa [ht, Nat.sub_add_cancel h.pos] at htake

end Faithful

/-- An item that is complete began at an earlier place. -/
theorem Valid.origin_lt (hg : g.Proper) {x u v : List Terminal} {i : Item} {r : Rule}
    (h : g.Valid start x i r u v) (hc : g.completed? i = some c) : i.origin < x.length := by
  obtain ⟨rfl, hv⟩ := h.complete hc
  have hne : v ≠ [] := fun hnil => by cases hv.eq_nil hg hnil
  have := List.length_pos_iff.mpr hne
  rw [h.origin, h.word, List.length_append]
  omega

theorem not_complete_of_dot (hg : g.Proper) {i : Item} {r : Rule} (hr : g.rules[i.rule]? = some r) (hdot : i.dot = 0) :
    g.completed? i = none := by
  have hne : r.body ≠ [] := hg.nonempty r (Array.mem_of_getElem? hr)
  have hnext : g.next? i = some (r.body.head hne) := by
    rw [next?_eq hr, hdot, ← List.head?_eq_getElem?, List.head?_eq_some_head]
  rw [completed?, hnext]

theorem mem_completions {i k : Item} : k ∈ g.completions sets i ↔
    ∃ c j, g.completed? i = some c ∧ j ∈ itemsAt sets i.origin ∧ g.next? j = some (.cat c) ∧ j.advance = k := by
  simp only [completions]
  constructor
  · intro h
    split at h
    · cases h
    · rename_i c hc
      obtain ⟨j, hj, rfl⟩ := List.mem_map.mp h
      obtain ⟨hj, hnext⟩ := List.mem_filter.mp hj
      exact ⟨c, j, hc, hj, beq_iff_eq.mp hnext, rfl⟩
  · rintro ⟨c, j, hc, hj, hnext, rfl⟩
    rw [hc]
    exact List.mem_map_of_mem (List.mem_filter.mpr ⟨hj, beq_iff_eq.mpr hnext⟩)

theorem mem_scanned {items : List Item} {t : Terminal} {k : Item} :
    k ∈ g.scanned items t ↔ ∃ i ∈ items, g.next? i = some (.tok t) ∧ i.advance = k := by
  simp [scanned, and_assoc]

/-- The items that read the last terminal, with those that they complete. -/
def completedSet (g : RuleTable) (sets : ItemSets) (kernel : List Item) : List Item :=
  closure (g.completions sets) (g.completionRounds sets kernel.length) [] kernel

theorem nextSet_eq (g : RuleTable) (sets : ItemSets) (kernel : List Item) :
    g.nextSet sets kernel = g.completedSet sets kernel ++
      g.predicted (g.expectedCategories (g.completedSet sets kernel)) sets.size := rfl

section Next

variable {kernel : List Item}

/-- An item is valid at the place that the sets of a chart have reached. -/
def ValidNext (g : RuleTable) (start : Category) (w : List Terminal) (sets : ItemSets) (i : Item) : Prop :=
  ∃ r u v, g.Valid start (w.take sets.size) i r u v

theorem validNext_completions (h : g.Faithful start w sets) {i k : Item} (hi : g.ValidNext start w sets i)
    (hk : k ∈ g.completions sets i) : g.ValidNext start w sets k := by
  obtain ⟨c, j, hc, hj, hnext, rfl⟩ := mem_completions.mp hk
  obtain ⟨r, u, v, hi⟩ := hi
  have horigin : i.origin < sets.size := by
    refine Nat.lt_of_not_le (fun hle => ?_)
    simp [itemsAt, Array.getElem?_eq_none hle] at hj
  obtain ⟨r', u', v', hj⟩ := h.sound _ horigin j hj
  obtain ⟨rfl, hv⟩ := hi.complete hc
  have hu : w.take i.origin = u := by
    have hword := congrArg (List.take u.length) hi.word
    rw [List.take_take, List.take_left, ← hi.origin, Nat.min_eq_left horigin.le] at hword
    exact hword
  have hadvanced := hj.advance hnext hv
  rw [hu, ← hi.word] at hadvanced
  exact ⟨r', u', v' ++ v, hadvanced⟩

theorem completedSet_valid (h : g.Faithful start w sets) (hkernel : ∀ i ∈ kernel, g.ValidNext start w sets i) :
    ∀ i ∈ g.completedSet sets kernel, g.ValidNext start w sets i :=
  closure_induction (fun _ hi _ hk => validNext_completions h hi hk) _ [] kernel (by simp) hkernel

/-- The sets so far are no longer than the number of items that are possible. -/
theorem Faithful.length_le (h : g.Faithful start w sets) (place : Nat) :
    (itemsAt sets place).length ≤ (g.possibleItems sets.size).card := by
  by_cases hp : place < sets.size
  · rw [← List.toFinset_card_of_nodup (h.nodup place hp)]
    refine Finset.card_le_card (fun i hi => ?_)
    obtain ⟨r, u, v, hi⟩ := h.sound place hp i (List.mem_toFinset.mp hi)
    exact hi.mem_possibleItems (by simp; omega)
  · simp [itemsAt, Array.getElem?_eq_none (Nat.le_of_not_lt hp)]

/-- There are rounds enough to find all completions. -/
theorem completedSet_closed (h : g.Faithful start w sets) (hkernel : ∀ i ∈ kernel, g.ValidNext start w sets i) :
    (∀ i ∈ kernel, i ∈ g.completedSet sets kernel) ∧
      ∀ i ∈ g.completedSet sets kernel, ∀ k ∈ g.completions sets i, k ∈ g.completedSet sets kernel := by
  let all := g.possibleItems sets.size
  have hall (i : Item) (hi : g.ValidNext start w sets i) (hnot : i ∉ all) : g.completions sets i = [] := by
    obtain ⟨r, u, v, hi⟩ := hi
    exact absurd (hi.mem_possibleItems (by simp)) hnot
  have hlength (i : Item) : (g.completions sets i).length ≤ all.card := by
    refine le_trans ?_ (h.length_le i.origin)
    unfold completions
    split
    · simp
    · rw [List.length_map]
      exact List.length_filter_le _ _
  have hrounds : roundsLeft (g.completions sets) all [] kernel ≤ g.completionRounds sets kernel.length := by
    have hcard := g.card_possibleItems_le sets.size
    have hsquare := Nat.mul_le_mul (hcard.trans (Nat.le_succ _)) (hcard.trans (Nat.le_succ _))
    have hleft := roundsLeft_le (fun i _ => hlength i) le_rfl kernel
    exact hleft.trans (Nat.add_le_add_left hsquare _)
  obtain ⟨-, hstart, hsteps⟩ := closure_closed (fun _ hi _ hk => validNext_completions h hi hk) hall _ [] kernel
    hkernel hrounds
  exact ⟨hstart, fun i hi => (hsteps i hi).resolve_left List.not_mem_nil⟩

/-- All items of the next place are valid there. -/
theorem nextSet_valid (h : g.Faithful start w sets) (hsize : sets.size ≤ w.length)
    (hkernel : ∀ i ∈ kernel, g.ValidNext start w sets i) :
    ∀ i ∈ g.nextSet sets kernel, g.ValidNext start w sets i := by
  have hcompleted := completedSet_valid h hkernel
  intro i hi
  rw [nextSet_eq, List.mem_append] at hi
  rcases hi with hi | hi
  · exact hcompleted i hi
  · obtain ⟨r, hr, hhead, hdot, horigin⟩ := mem_predicted.mp hi
    have hawaited : g.Awaited start r.head (w.take sets.size) := by
      refine awaited_reachable (fun c hc => ?_) _ hhead
      obtain ⟨j, hj, hnext⟩ := mem_expectedCategories.mp hc
      obtain ⟨r', u, v, hj⟩ := hcompleted j hj
      exact hj.predict hnext
    have hvalid := hawaited.valid hr
    have hlength : (w.take sets.size).length = sets.size := by simpa using hsize
    rw [hlength] at hvalid
    obtain ⟨rule, dot, origin⟩ := i
    cases hdot
    cases horigin
    exact ⟨r, _, _, hvalid⟩

theorem nodup_nextSet (g : RuleTable) (sets : ItemSets) (hkernel : ∀ i ∈ kernel, 0 < i.dot) :
    (g.nextSet sets kernel).Nodup := by
  have hdot : ∀ i ∈ g.completedSet sets kernel, 0 < i.dot := by
    refine closure_induction (fun i _ k hk => ?_) _ [] kernel (by simp) hkernel
    obtain ⟨c, j, -, -, -, rfl⟩ := mem_completions.mp hk
    exact Nat.succ_pos _
  refine List.nodup_append.mpr ⟨nodup_closure _ [] kernel List.nodup_nil, nodup_predicted g _ _, ?_⟩
  rintro i hi j hj rfl
  obtain ⟨r, -, -, hzero, -⟩ := mem_predicted.mp hj
  exact absurd hzero (Nat.ne_of_gt (hdot i hi))

end Next

/-! ### From place to place -/

theorem itemsAt_push_lt {items : List Item} {p : Nat} (hp : p < sets.size) :
    itemsAt (sets.push items) p = itemsAt sets p := by
  simp [itemsAt, Array.getElem?_push, Nat.ne_of_lt hp]

theorem itemsAt_push_size {items : List Item} : itemsAt (sets.push items) sets.size = items := by
  simp [itemsAt]

/-- Where a predicted item expects a category, its rules are predicted too. -/
theorem predicted_of_next {expected : List Category} {place n : Nat} {i : Item} {r : Rule}
    (hi : i ∈ g.predicted expected place) (hnext : g.next? i = some (.cat r.head)) (hn : g.rules[n]? = some r) :
    ⟨n, 0, place⟩ ∈ g.predicted expected place := by
  obtain ⟨r', hr', hhead, hdot, -⟩ := mem_predicted.mp hi
  rw [next?_eq hr', hdot, ← List.head?_eq_getElem?] at hnext
  refine mem_predicted.mpr ⟨r, hn, ?_, rfl, rfl⟩
  exact (g.reachable_closed expected).2 r'.head hhead _ (mem_corners.mpr ⟨r', Array.mem_of_getElem? hr', rfl, hnext⟩)

theorem nextSet_predicts {kernel : List Item} {n : Nat} {i : Item} {r : Rule} (hi : i ∈ g.nextSet sets kernel)
    (hnext : g.next? i = some (.cat r.head)) (hn : g.rules[n]? = some r) :
    ⟨n, 0, sets.size⟩ ∈ g.nextSet sets kernel := by
  rw [nextSet_eq, List.mem_append] at hi ⊢
  refine .inr ?_
  rcases hi with hi | hi
  · refine mem_predicted.mpr ⟨r, hn, ?_, rfl, rfl⟩
    exact (g.reachable_closed _).1 _ (mem_expectedCategories.mpr ⟨i, hi, hnext⟩)
  · exact predicted_of_next hi hnext hn

theorem nextSet_completes (hg : g.Proper) (h : g.Faithful start w sets) {kernel : List Item}
    (hkernel : ∀ i ∈ kernel, g.ValidNext start w sets i) {i j : Item} (hi : i ∈ g.nextSet sets kernel)
    (hc : g.completed? i = some c) (hj : j ∈ itemsAt sets i.origin) (hnext : g.next? j = some (.cat c)) :
    j.advance ∈ g.nextSet sets kernel := by
  rw [nextSet_eq, List.mem_append] at hi ⊢
  rcases hi with hi | hi
  · exact .inl ((completedSet_closed h hkernel).2 i hi _ (mem_completions.mpr ⟨c, j, hc, hj, hnext, rfl⟩))
  · obtain ⟨r, hr, -, hdot, -⟩ := mem_predicted.mp hi
    rw [not_complete_of_dot hg hr hdot] at hc
    cases hc

/-- The chart that has read nothing is faithful. -/
theorem faithful_first (hg : g.Proper) (start : Category) (w : List Terminal) :
    g.Faithful start w #[g.firstSet start] := by
  have hitems : itemsAt #[g.firstSet start] 0 = g.predicted [start] 0 := rfl
  have hdone {i : Item} {c : Category} (hi : i ∈ g.predicted [start] 0) (hc : g.completed? i = some c) : False := by
    obtain ⟨r, hr, -, hdot, -⟩ := mem_predicted.mp hi
    rw [not_complete_of_dot hg hr hdot] at hc
    cases hc
  refine ⟨by simp, by simp, fun p hp i hi => ?_, ⟨?_, ?_, ?_, ?_⟩, fun p hp => ?_⟩
  · obtain rfl : p = 0 := by simpa using hp
    obtain ⟨r, hr, hhead, hdot, horigin⟩ := mem_predicted.mp (hitems ▸ hi)
    have hawaited : g.Awaited start r.head [] :=
      awaited_reachable (fun c hc => List.mem_singleton.mp hc ▸ .start) _ hhead
    obtain ⟨rule, dot, origin⟩ := i
    cases hdot
    cases horigin
    exact ⟨r, [], [], hawaited.valid hr⟩
  · intro n r hn hr
    refine mem_predicted.mpr ⟨r, hn, ?_, rfl, rfl⟩
    exact (g.reachable_closed [start]).1 _ (by simp [hr])
  · intro p i t hp
    simp at hp
  · intro p n i r hp hi hnext hn
    obtain rfl : p = 0 := by simpa using hp
    exact predicted_of_next (hitems ▸ hi) hnext hn
  · intro p i j c hp hi hc
    obtain rfl : p = 0 := by simpa using hp
    exact absurd (hdone (hitems ▸ hi) hc) id
  · obtain rfl : p = 0 := by simpa using hp
    exact hitems ▸ nodup_predicted g [start] 0

theorem Faithful.scanned_valid (h : g.Faithful start w sets) {t : Terminal} (ht : w[sets.size - 1]? = some t) :
    ∀ i ∈ g.scanned (itemsAt sets (sets.size - 1)) t, g.ValidNext start w sets i := by
  intro i hi
  have hpos := h.pos
  have htake := (h.take_size ht).symm
  obtain ⟨j, hj, hnext, rfl⟩ := mem_scanned.mp hi
  obtain ⟨r, u, v, hj⟩ := h.sound _ (by omega) j hj
  exact ⟨r, u, v ++ [t], htake ▸ hj.advance hnext (.tok t .nil)⟩

/-- The new set is closed, and the old ones stay so. -/
theorem Faithful.push_closed (hg : g.Proper) (h : g.Faithful start w sets) {t : Terminal}
    (ht : w[sets.size - 1]? = some t) :
    g.Closed start w
      (fun p i => i ∈ itemsAt (sets.push (g.nextSet sets (g.scanned (itemsAt sets (sets.size - 1)) t))) p)
      sets.size := by
  have hpos := h.pos
  have hlt : sets.size - 1 < w.length := (List.getElem?_eq_some_iff.mp ht).1
  have hlength : (w.take sets.size).length = sets.size := by simp; omega
  have hkernel := h.scanned_valid ht
  have hvalid := nextSet_valid h (by omega) hkernel
  refine ⟨?_, ?_, ?_, ?_⟩
  · intro n r hn hr
    rw [itemsAt_push_lt hpos]
    exact h.closed.starts hn hr
  · intro p i t' hp hi ht' hnext
    rw [itemsAt_push_lt hp] at hi
    by_cases hlast : p + 1 < sets.size
    · rw [itemsAt_push_lt hlast]
      exact h.closed.scans (by omega) hi ht' hnext
    · obtain rfl : p = sets.size - 1 := by omega
      obtain rfl : t = t' := by rw [ht] at ht'; exact Option.some.inj ht'
      rw [Nat.sub_add_cancel hpos, itemsAt_push_size, nextSet_eq]
      exact List.mem_append_left _ ((completedSet_closed h hkernel).1 _ (mem_scanned.mpr ⟨i, hi, hnext, rfl⟩))
  · intro p n i r hp hi hnext hn
    rcases Nat.lt_or_eq_of_le hp with hp | rfl
    · rw [itemsAt_push_lt hp] at hi ⊢
      exact h.closed.predicts (by omega) hi hnext hn
    · rw [itemsAt_push_size] at hi ⊢
      exact nextSet_predicts hi hnext hn
  · intro p i j c hp hi hc hj hnext
    rcases Nat.lt_or_eq_of_le hp with hp | rfl
    · rw [itemsAt_push_lt hp] at hi ⊢
      obtain ⟨r, u, v, hi'⟩ := h.sound p hp i hi
      have horigin := hi'.origin_lt hg hc
      rw [List.length_take] at horigin
      rw [itemsAt_push_lt (by omega)] at hj
      exact h.closed.completes (by omega) hi hc hj hnext
    · rw [itemsAt_push_size] at hi ⊢
      obtain ⟨r, u, v, hi'⟩ := hvalid i hi
      have horigin := hi'.origin_lt hg hc
      rw [itemsAt_push_lt (hlength ▸ horigin)] at hj
      exact nextSet_completes hg h hkernel hi hc hj hnext

/-- Reading a terminal takes a faithful chart to a faithful one. -/
theorem Faithful.push (hg : g.Proper) (h : g.Faithful start w sets) {t : Terminal}
    (ht : w[sets.size - 1]? = some t) :
    g.Faithful start w (sets.push (g.nextSet sets (g.scanned (itemsAt sets (sets.size - 1)) t))) := by
  have hpos := h.pos
  have hlt : sets.size - 1 < w.length := (List.getElem?_eq_some_iff.mp ht).1
  refine ⟨by simp, by simp; omega, fun p hp i hi => ?_, by simpa using h.push_closed hg ht, fun p hp => ?_⟩
  · rcases Nat.lt_succ_iff_lt_or_eq.mp (by simpa using hp) with hp | rfl
    · exact h.sound p hp i (itemsAt_push_lt hp ▸ hi)
    · rw [itemsAt_push_size] at hi
      exact nextSet_valid h (by omega) (h.scanned_valid ht) i hi
  · rcases Nat.lt_succ_iff_lt_or_eq.mp (by simpa using hp) with hp | rfl
    · rw [itemsAt_push_lt hp]
      exact h.nodup p hp
    · rw [itemsAt_push_size]
      refine nodup_nextSet g sets (fun i hi => ?_)
      obtain ⟨j, -, -, rfl⟩ := mem_scanned.mp hi
      exact Nat.succ_pos _

/-- Terminals that begin a sentence. -/
def Begins (g : RuleTable) (start : Category) (x : List Terminal) : Prop := ∃ z, g.Derives [.cat start] (x ++ z)

/-- What a chart that has read all it can says about the terminals: it is faithful, what it has read
begins a sentence, and what it has read with the next terminal does not. -/
structure HasRead (g : RuleTable) (start : Category) (w : List Terminal) (sets : ItemSets) (left : List Terminal) :
    Prop where
  faithful : g.Faithful start w sets
  left : w.drop (sets.size - 1) = left
  begins : g.Begins start (w.take (sets.size - 1))
  stuck : sets.size - 1 < w.length → ¬g.Begins start (w.take sets.size)

/-- A terminal that no item expects continues no sentence. -/
theorem Faithful.not_begins (h : g.Faithful start w sets) {t : Terminal} (ht : w[sets.size - 1]? = some t)
    (hnone : g.scanned (itemsAt sets (sets.size - 1)) t = []) : ¬g.Begins start (w.take sets.size) := by
  rintro ⟨z, hz⟩
  rw [h.take_size ht, List.append_assoc] at hz
  obtain ⟨i, r, u, v, hi, hnext⟩ := exists_expecting hz
  have hmem := (h.mem_iff (Nat.sub_lt h.pos Nat.one_pos)).mpr ⟨r, u, v, hi⟩
  have hscanned := mem_scanned.mpr ⟨i, hmem, hnext, rfl⟩
  rw [hnone] at hscanned
  cases hscanned

theorem readAll_hasRead (hg : g.Proper) (h : g.Faithful start w sets)
    (hbegins : g.Begins start (w.take (sets.size - 1))) (terminals : List Terminal)
    (hw : w.drop (sets.size - 1) = terminals) :
    g.HasRead start w (g.readAll sets terminals).1 (g.readAll sets terminals).2 := by
  induction terminals generalizing sets with
  | nil =>
    have hlength := List.drop_eq_nil_iff.mp hw
    exact ⟨h, hw, hbegins, fun hlt => absurd hlt (Nat.not_lt.mpr hlength)⟩
  | cons t rest ih =>
    have hpos := h.pos
    have ht : w[sets.size - 1]? = some t := by rw [← List.head?_drop, hw, List.head?_cons]
    have hback : sets.back?.getD [] = itemsAt sets (sets.size - 1) := by rw [Array.back?_eq_getElem?, itemsAt]
    simp only [readAll, hback]
    split
    · rename_i hnone
      exact ⟨h, hw, hbegins, fun _ => h.not_begins ht hnone⟩
    · rename_i hsome
      have hnext := h.push hg ht
      have hsize : (sets.push (g.nextSet sets (g.scanned (itemsAt sets (sets.size - 1)) t))).size - 1 = sets.size := by
        simp
      refine ih hnext ?_ ?_
      · obtain ⟨i, hi⟩ := List.exists_mem_of_ne_nil _ hsome
        obtain ⟨j, hj, hjt, rfl⟩ := mem_scanned.mp hi
        obtain ⟨r, u, v, hj⟩ := h.sound _ (by omega) j hj
        rw [hsize, h.take_size ht]
        exact (hj.advance hjt (.tok t .nil)).viable hg
      · rw [hsize]
        have hdrop := congrArg List.tail hw
        rw [List.tail_drop, Nat.sub_add_cancel hpos] at hdrop
        exact hdrop

end Dartlet.Syntax.RuleTable
