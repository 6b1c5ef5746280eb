import Dartlet.Proofs.Grammar.Acceptance

/-!
# Derivations depend on what they cover

Two charts may have read the same tokens up to some place, for different categories and with different tokens
after that place. Of a category that both await somewhere before it, they find the same derivation up to a
place that is not beyond it.
-/

namespace Dartlet.Syntax

open RuleTable

namespace Chart

variable {g : RuleTable} {start : Category} {tokens : List Token} {sets : ItemSets}

/-- The items of a place: the rule is awaited where reading it began, and its first parts stand for what has been
read since. -/
theorem Full.mem_itemsAt_iff (h : Full g start tokens sets) {number dot low high : Nat} (hhigh : high ≤ tokens.length) :
    ⟨number, dot, low⟩ ∈ itemsAt sets high ↔ low ≤ high ∧ ∃ r, g.rules[number]? = some r ∧ dot ≤ r.body.length ∧
      g.Awaited start r.head ((terminals tokens).take low) ∧
      g.Derives (r.body.take dot) (stretch (terminals tokens) low high) := by
  have hp : high < sets.size := by
    rw [h.size]
    omega
  have hlength : (terminals tokens).length = tokens.length := List.length_map _
  rw [h.faithful.mem_iff hp]
  constructor
  · rintro ⟨r, u, v, hv⟩
    have horigin : low = u.length := hv.origin
    have hword : (terminals tokens).take high = u ++ v := hv.word
    have hsum := congrArg List.length hword
    rw [List.length_take, List.length_append, hlength] at hsum
    have hlow : low ≤ high := by omega
    refine ⟨hlow, r, hv.rule, hv.dot, ?_, ?_⟩
    · have hu := congrArg (List.take low) hword
      rw [List.take_take, Nat.min_eq_left hlow, horigin, List.take_left] at hu
      rw [horigin, hu]
      exact hv.awaited
    · have hv' := congrArg (List.drop low) hword
      rw [List.drop_take, horigin, List.drop_left] at hv'
      rw [stretch, horigin, hv']
      exact hv.read
  · rintro ⟨hlow, r, hr, hdot, hawaited, hread⟩
    refine ⟨r, (terminals tokens).take low, stretch (terminals tokens) low high, hr, hdot, ?_, ?_, hawaited, hread⟩
    · have hsplit := stretch_append (terminals tokens) (Nat.zero_le low) hlow
      simpa [stretch, terminals] using hsplit.symm
    · change low = _
      rw [List.length_take, hlength]
      omega

/-- Where an item expects a category, the category is awaited. -/
theorem Full.awaited (h : Full g start tokens sets) {number dot low high : Nat} (hhigh : high ≤ tokens.length)
    (hitem : ⟨number, dot, low⟩ ∈ itemsAt sets high) {r : Rule} (hr : g.rules[number]? = some r) {c : Category}
    (hc : r.body[dot]? = some (.cat c)) : g.Awaited start c ((terminals tokens).take high) := by
  have hp : high < sets.size := by
    rw [h.size]
    omega
  obtain ⟨r', u, v, hv, -⟩ := h.valid hp hitem
  exact hv.predict (by rw [next?_eq hr]; exact hc)

/-- A derivation that is found has a rule that is complete for the stretch, and parts that are found. -/
theorem derive?_eq_some {depth : Nat} {c : Category} {low high : Nat} {d : Derivation}
    (h : derive? ⟨g, tokens.toArray, sets⟩ depth c low high = some d) :
    ∃ below number r parts, depth = below + 1 ∧ ruleFor? ⟨g, tokens.toArray, sets⟩ c low high = some (number, r) ∧
      parts? ⟨g, tokens.toArray, sets⟩ (derive? ⟨g, tokens.toArray, sets⟩ below) number r low r.body.reverse high [] = some parts ∧
      d = .node r (location ⟨g, tokens.toArray, sets⟩ low) parts := by
  cases depth with
  | zero => cases h
  | succ below =>
    simp only [derive?] at h
    split at h
    · cases h
    · rename_i number r hrule
      obtain ⟨parts, hparts, rfl⟩ := Option.map_eq_some_iff.mp h
      exact ⟨below, number, r, parts, rfl, hrule, hparts, rfl⟩

theorem ruleFor?_eq_some {c : Category} {low high number : Nat} {r : Rule}
    (h : ruleFor? ⟨g, tokens.toArray, sets⟩ c low high = some (number, r)) :
    g.rules[number]? = some r ∧ r.head = c ∧ ⟨number, r.body.length, low⟩ ∈ itemsAt sets high := by
  unfold ruleFor? at h
  split at h
  · rename_i n hfind
    obtain ⟨r', hr', rfl⟩ := mem_rulesFor.mp (List.mem_of_find?_eq_some hfind)
    have hitem : ⟨n, (g.body n).length, low⟩ ∈ itemsAt sets high :=
      List.contains_iff_mem.mp (List.find?_some hfind :)
    dsimp only at h
    rw [hr', Option.map_some] at h
    cases h
    rw [body_eq hr'] at hitem
    exact ⟨hr', rfl, hitem⟩
  · cases h

/-- The preferred one among some places depends on which places there are. -/
theorem choose?_congr {chart chart' : Chart} {preference : LastPart} {high : Nat} {places places' : List Nat}
    (hplaces : ∀ k, k ∈ places ↔ k ∈ places') (hhollow : ∀ k, chart.isHollow k high = chart'.isHollow k high) :
    chart.choose? preference high places = chart'.choose? preference high places' := by
  have hmin : places.min? = places'.min? := by
    refine Option.ext fun k => ?_
    simp only [List.min?_eq_some_iff, hplaces]
  have hmax : places.max? = places'.max? := by
    refine Option.ext fun k => ?_
    simp only [List.max?_eq_some_iff, hplaces]
  simp only [choose?, hmin, hmax, hhollow]

/-- The preferred place is one of the places. -/
theorem mem_of_choose? {chart : Chart} {preference : LastPart} {high k : Nat} {places : List Nat}
    (h : chart.choose? preference high places = some k) : k ∈ places := by
  cases places with
  | nil => cases preference <;> cases h
  | cons place places =>
    obtain ⟨k', hk', hchoice⟩ := choose?_mem chart preference high (List.cons_ne_nil place places)
    rw [h] at hchoice
    obtain rfl := Option.some.inj hchoice
    exact hk'

section Agreement

variable {start₁ start₂ : Category} {tokens₁ tokens₂ : List Token} {sets₁ sets₂ : ItemSets} {place : Nat}
  (h₁ : Full g start₁ tokens₁ sets₁) (h₂ : Full g start₂ tokens₂ sets₂)
  (hplace₁ : place ≤ tokens₁.length) (hplace₂ : place ≤ tokens₂.length) (hsame : tokens₁.take place = tokens₂.take place)

/-- Two charts both await a category somewhere. -/
def BothAwait (g : RuleTable) (start₁ start₂ : Category) (tokens₁ tokens₂ : List Token) (c : Category) (low : Nat) :
    Prop :=
  g.Awaited start₁ c ((terminals tokens₁).take low) ∧ g.Awaited start₂ c ((terminals tokens₂).take low)

include hsame

theorem stretch_agree {low high : Nat} (hhigh : high ≤ place) : stretch tokens₁ low high = stretch tokens₂ low high := by
  have hfront (ts : List Token) : stretch ts low high = stretch (ts.take place) low high := by
    rw [stretch, stretch, List.drop_take, List.take_take, Nat.min_eq_left (by omega)]
  rw [hfront, hsame, ← hfront]

theorem isHollow_agree {low high : Nat} (hhigh : high ≤ place) :
    isHollow ⟨g, tokens₁.toArray, sets₁⟩ low high = isHollow ⟨g, tokens₂.toArray, sets₂⟩ low high := by
  have hextract (ts : List Token) : (ts.toArray.extract low high).toList = stretch ts low high := by
    simp [stretch]
  simp only [isHollow, hextract, stretch_agree hsame hhigh]

include h₁ h₂ hplace₁ hplace₂

/-- Two charts hold the same items of rules that both await. -/
theorem mem_itemsAt_agree {number dot low high : Nat} (hhigh : high ≤ place) {r : Rule} (hr : g.rules[number]? = some r)
    (hboth : BothAwait g start₁ start₂ tokens₁ tokens₂ r.head low) :
    ⟨number, dot, low⟩ ∈ itemsAt sets₁ high ↔ ⟨number, dot, low⟩ ∈ itemsAt sets₂ high := by
  have hstretch : stretch (terminals tokens₁) low high = stretch (terminals tokens₂) low high := by
    have hmap (ts : List Token) : stretch (terminals ts) low high = terminals (stretch ts low high) := by
      simp only [stretch, terminals, List.map_take, List.map_drop]
    rw [hmap, hmap, stretch_agree hsame hhigh]
  rw [h₁.mem_itemsAt_iff (by omega), h₂.mem_itemsAt_iff (by omega), hstretch]
  refine and_congr_right fun _ => exists_congr fun r' => and_congr_right fun hr' => and_congr_right fun _ => ?_
  obtain rfl : r = r' := Option.some.inj (hr.symm.trans hr')
  exact and_congr_left fun _ => iff_of_true hboth.1 hboth.2

theorem ruleFor?_agree {c : Category} {low high : Nat} (hhigh : high ≤ place)
    (hboth : BothAwait g start₁ start₂ tokens₁ tokens₂ c low) :
    ruleFor? ⟨g, tokens₁.toArray, sets₁⟩ c low high = ruleFor? ⟨g, tokens₂.toArray, sets₂⟩ c low high := by
  have hfind : ∀ numbers ⊆ g.rulesFor c,
      numbers.find? (fun n => holds ⟨g, tokens₁.toArray, sets₁⟩ high ⟨n, (g.body n).length, low⟩) =
        numbers.find? (fun n => holds ⟨g, tokens₂.toArray, sets₂⟩ high ⟨n, (g.body n).length, low⟩) := by
    intro numbers hnumbers
    induction numbers with
    | nil => rfl
    | cons n numbers ih =>
      obtain ⟨hn, hrest⟩ := List.cons_subset.mp hnumbers
      obtain ⟨r, hr, rfl⟩ := mem_rulesFor.mp hn
      have hheld : holds ⟨g, tokens₁.toArray, sets₁⟩ high ⟨n, (g.body n).length, low⟩ =
          holds ⟨g, tokens₂.toArray, sets₂⟩ high ⟨n, (g.body n).length, low⟩ := by
        rw [Bool.eq_iff_iff, holds, holds, List.contains_iff_mem, List.contains_iff_mem]
        exact mem_itemsAt_agree h₁ h₂ hplace₁ hplace₂ hsame hhigh hr hboth
      rw [List.find?_cons, List.find?_cons, hheld, ih hrest]
  simp only [ruleFor?, hfind _ (List.Subset.refl _)]

/-- A place where a part of a rule may begin in one chart is one in the other, and both await the part there. -/
theorem mem_splits_agree {c : Category} {number dot low high k : Nat} {r : Rule} (hhigh : high ≤ place)
    (hr : g.rules[number]? = some r) (hc : r.body[dot]? = some (.cat c))
    (hboth : BothAwait g start₁ start₂ tokens₁ tokens₂ r.head low)
    (hk : k ∈ splits ⟨g, tokens₁.toArray, sets₁⟩ c number dot low high) :
    k ≤ high ∧ BothAwait g start₁ start₂ tokens₁ tokens₂ c k ∧ k ∈ splits ⟨g, tokens₂.toArray, sets₂⟩ c number dot low high := by
  obtain ⟨⟨n, d, k⟩, hi, hcomplete, rfl, hbefore⟩ := mem_splits.mp hk
  obtain ⟨hle, r', hr', -⟩ := (h₁.mem_itemsAt_iff (by omega)).mp hi
  dsimp only at hcomplete hbefore hle
  have hbefore₂ := (mem_itemsAt_agree h₁ h₂ hplace₁ hplace₂ hsame (hle.trans hhigh) hr hboth).mp hbefore
  have hpart : BothAwait g start₁ start₂ tokens₁ tokens₂ c k :=
    ⟨h₁.awaited (by omega) hbefore hr hc, h₂.awaited (by omega) hbefore₂ hr hc⟩
  have hhead : r'.head = c := by
    simp only [completed?, head?_eq hr'] at hcomplete
    split at hcomplete
    · cases hcomplete
    · exact Option.some.inj hcomplete
  subst hhead
  have hi₂ := (mem_itemsAt_agree h₁ h₂ hplace₁ hplace₂ hsame hhigh hr' hpart).mp hi
  exact ⟨hle, hpart, mem_splits.mpr ⟨_, hi₂, hcomplete, rfl, hbefore₂⟩⟩

end Agreement

section Agreement

variable {start₁ start₂ : Category} {tokens₁ tokens₂ : List Token} {sets₁ sets₂ : ItemSets} {place : Nat}
  (h₁ : Full g start₁ tokens₁ sets₁) (h₂ : Full g start₂ tokens₂ sets₂)
  (hplace₁ : place ≤ tokens₁.length) (hplace₂ : place ≤ tokens₂.length) (hsame : tokens₁.take place = tokens₂.take place)

include h₁ h₂ hplace₁ hplace₂ hsame

theorem splits_agree {c : Category} {number dot low high : Nat} {r : Rule} (hhigh : high ≤ place)
    (hr : g.rules[number]? = some r) (hc : r.body[dot]? = some (.cat c))
    (hboth : BothAwait g start₁ start₂ tokens₁ tokens₂ r.head low) (k : Nat) :
    k ∈ splits ⟨g, tokens₁.toArray, sets₁⟩ c number dot low high ↔ k ∈ splits ⟨g, tokens₂.toArray, sets₂⟩ c number dot low high :=
  ⟨fun hk => (mem_splits_agree h₁ h₂ hplace₁ hplace₂ hsame hhigh hr hc hboth hk).2.2,
    fun hk => (mem_splits_agree h₂ h₁ hplace₂ hplace₁ hsame.symm hhigh hr hc hboth.symm hk).2.2⟩

theorem parts?_agree {derive₁ derive₂ : Category → Nat → Nat → Option Derivation} {number low : Nat} {r : Rule}
    (hderive : ∀ {c low high d₁ d₂}, high ≤ place → BothAwait g start₁ start₂ tokens₁ tokens₂ c low →
      derive₁ c low high = some d₁ → derive₂ c low high = some d₂ → d₁ = d₂)
    (hr : g.rules[number]? = some r) (hboth : BothAwait g start₁ start₂ tokens₁ tokens₂ r.head low)
    {before after : List Symbol} {high : Nat} {found parts₁ parts₂ : List Derivation} (hbody : r.body = before.reverse ++ after)
    (hhigh : high ≤ place) (hparts₁ : parts? ⟨g, tokens₁.toArray, sets₁⟩ derive₁ number r low before high found = some parts₁)
    (hparts₂ : parts? ⟨g, tokens₂.toArray, sets₂⟩ derive₂ number r low before high found = some parts₂) :
    parts₁ = parts₂ := by
  induction before generalizing after high found with
  | nil =>
    simp only [parts?] at hparts₁ hparts₂
    exact Option.some.inj (hparts₁.symm.trans hparts₂)
  | cons s before ih =>
    have hbody' : r.body = before.reverse ++ s :: after := by simp [hbody]
    cases s with
    | tok t =>
      cases high with
      | zero => cases hparts₁
      | succ high =>
        have htoken : tokens₁[high]? = tokens₂[high]? := by
          have htake (ts : List Token) : ts[high]? = (ts.take place)[high]? := (List.getElem?_take_of_lt (by omega)).symm
          rw [htake, hsame, ← htake]
        simp only [parts?, List.getElem?_toArray, htoken] at hparts₁ hparts₂
        cases ht : tokens₂[high]? with
        | none =>
          rw [ht] at hparts₁
          cases hparts₁
        | some token =>
          rw [ht] at hparts₁ hparts₂
          exact ih hbody' (by omega) hparts₁ hparts₂
    | cat c =>
      have hc : r.body[before.length]? = some (.cat c) := by simp [hbody']
      have hchoice : choose? ⟨g, tokens₁.toArray, sets₁⟩ r.lastPart high
          (splits ⟨g, tokens₁.toArray, sets₁⟩ c number before.length low high) =
          choose? ⟨g, tokens₂.toArray, sets₂⟩ r.lastPart high
            (splits ⟨g, tokens₂.toArray, sets₂⟩ c number before.length low high) :=
        choose?_congr (splits_agree h₁ h₂ hplace₁ hplace₂ hsame hhigh hr hc hboth)
          fun k => isHollow_agree hsame hhigh
      simp only [parts?, hchoice] at hparts₁ hparts₂
      split at hparts₂
      · cases hparts₂
      · rename_i k hk
        have hmem := mem_of_choose? hk
        obtain ⟨hle, hpart, -⟩ := mem_splits_agree h₁ h₂ hplace₁ hplace₂ hsame hhigh hr hc hboth
          ((splits_agree h₁ h₂ hplace₁ hplace₂ hsame hhigh hr hc hboth k).mpr hmem)
        rw [hk] at hparts₁
        dsimp only at hparts₁
        split at hparts₁
        · cases hparts₁
        split at hparts₂
        · cases hparts₂
        rename_i d₁ hd₁ _ d₂ hd₂
        obtain rfl := hderive hhigh hpart hd₁ hd₂
        exact ih hbody' (hle.trans hhigh) hparts₁ hparts₂

/-- Of a category that both charts await they find the same derivation. -/
theorem derive?_agree (hg : g.Proper) {depth₁ depth₂ : Nat} {c : Category} {low high : Nat} {d₁ d₂ : Derivation}
    (hhigh : high ≤ place) (hboth : BothAwait g start₁ start₂ tokens₁ tokens₂ c low)
    (hd₁ : derive? ⟨g, tokens₁.toArray, sets₁⟩ depth₁ c low high = some d₁)
    (hd₂ : derive? ⟨g, tokens₂.toArray, sets₂⟩ depth₂ c low high = some d₂) : d₁ = d₂ := by
  induction depth₁ generalizing depth₂ c low high d₁ d₂ with
  | zero => cases hd₁
  | succ depth₁ ih =>
    have hlt : low < high := by
      have hsize := h₁.size
      exact h₁.spans_lt hg (by omega) (spans_of_derive? hd₁)
    have hlocation : location ⟨g, tokens₁.toArray, sets₁⟩ low = location ⟨g, tokens₂.toArray, sets₂⟩ low := by
      have htake (ts : List Token) : ts[low]? = (ts.take place)[low]? := (List.getElem?_take_of_lt (by omega)).symm
      simp only [location, List.getElem?_toArray]
      rw [htake tokens₁, hsame, ← htake]
    obtain ⟨below, number, r, parts₁, hbelow, hrule, hparts₁, rfl⟩ := derive?_eq_some hd₁
    obtain ⟨depth₂, number', r', parts₂, rfl, hrule', hparts₂, rfl⟩ := derive?_eq_some hd₂
    obtain rfl := Nat.succ.inj hbelow
    rw [ruleFor?_agree h₁ h₂ hplace₁ hplace₂ hsame hhigh hboth, hrule'] at hrule
    cases hrule
    obtain ⟨hr, rfl, -⟩ := ruleFor?_eq_some hrule'
    have hbody : r.body = r.body.reverse.reverse ++ [] := by simp
    rw [hlocation, parts?_agree h₁ h₂ hplace₁ hplace₂ hsame (fun hhigh hboth => ih hhigh hboth) hr hboth hbody hhigh hparts₁
      hparts₂]

end Agreement

/-! ### Categories with a single rule -/

section Single

variable (h : Full g start tokens sets) {depth : Nat} {c e : Category} {low high : Nat} {d : Derivation} {rule : Rule}
  (hrule : ∀ r ∈ g.rules, r.head = c → g.Derives r.body (stretch (terminals tokens) low high) → r = rule)

include h

/-- The first part of a rule begins where the rule does. -/
theorem parts?_first (hg : g.Proper) {derive : Category → Nat → Nat → Option Derivation} {number : Nat} (hhigh : high ≤ tokens.length)
    {found parts : List Derivation}
    (hparts : parts? ⟨g, tokens.toArray, sets⟩ derive number rule low [.cat e] high found = some parts) :
    ∃ d, derive e low high = some d ∧ parts = d :: found := by
  have hsize := h.size
  simp only [parts?] at hparts
  split at hparts
  · cases hparts
  · rename_i k hk
    obtain ⟨i, hi, -, rfl, hitem⟩ := mem_splits.mp (mem_of_choose? hk)
    have hle := (h.origin_le hg (by omega) hi).1
    obtain rfl : low = i.origin := ((h.origin_le hg (by omega) hitem).2).mpr rfl
    split at hparts
    · cases hparts
    · rename_i d hd
      exact ⟨d, hd, by simpa [parts?] using hparts.symm⟩

include hrule

/-- If only one rule is possible for a stretch, the derivation begins with it. -/
theorem derive?_only (hhigh : high ≤ tokens.length) (hd : derive? ⟨g, tokens.toArray, sets⟩ depth c low high = some d) :
    ∃ below number parts, parts? ⟨g, tokens.toArray, sets⟩ (derive? ⟨g, tokens.toArray, sets⟩ below) number rule low
      rule.body.reverse high [] = some parts ∧ d = .node rule (location ⟨g, tokens.toArray, sets⟩ low) parts := by
  obtain ⟨below, number, r, parts, -, hfor, hparts, rfl⟩ := derive?_eq_some hd
  obtain ⟨hr, hhead, hitem⟩ := ruleFor?_eq_some hfor
  obtain ⟨-, r', hr', -, -, hread⟩ := (h.mem_itemsAt_iff hhigh).mp hitem
  obtain rfl : r = r' := Option.some.inj (hr.symm.trans hr')
  rw [List.take_length] at hread
  obtain rfl := hrule r (Array.mem_of_getElem? hr) hhead hread
  exact ⟨below, number, parts, hparts, rfl⟩

/-- If only one rule is possible for a stretch, and it passes on a category, the derivation is one of that category. -/
theorem derive?_passes (hg : g.Proper) (hbody : rule.body = [.cat e]) (hhigh : high ≤ tokens.length)
    (hd : derive? ⟨g, tokens.toArray, sets⟩ depth c low high = some d) :
    ∃ below d', derive? ⟨g, tokens.toArray, sets⟩ below e low high = some d' ∧
      d = .node rule (location ⟨g, tokens.toArray, sets⟩ low) [d'] := by
  obtain ⟨below, number, parts, hparts, rfl⟩ := derive?_only h hrule hhigh hd
  rw [hbody] at hparts
  obtain ⟨d', hd', rfl⟩ := parts?_first h hg hhigh hparts
  exact ⟨below, d', hd', rfl⟩

end Single

end Chart

/-- What is read as a sentence is found in a chart that has read all tokens. -/
theorem exists_chart {start : Category} {tokens : List Token} {d : Derivation}
    (h : readTokens start tokens = .sentence (some d)) : ∃ sets depth, Chart.Full ruleTable start tokens sets ∧
      Chart.derive? ⟨ruleTable, tokens.toArray, sets⟩ depth start 0 tokens.length = some d := by
  have hread := hasRead_all start tokens
  unfold readTokens at h
  rw [← terminals] at h
  generalize ruleTable.readAll #[ruleTable.firstSet start] (terminals tokens) = read at hread h
  obtain ⟨sets, left⟩ := read
  dsimp only at hread h
  have hpos := hread.faithful.pos
  have hsize := hread.faithful.size
  have hlength : (terminals tokens).length = tokens.length := List.length_map _
  have hleft : tokens.length - left.length = sets.size - 1 := by
    rw [← hread.left, List.length_drop]
    omega
  split at h
  · cases h
  · rename_i hnone
    have hend := List.getElem?_eq_none_iff.mp (hleft ▸ hnone)
    split at h
    · cases h
    · split at h
      · cases h
        exact ⟨sets, _, ⟨hread.faithful, by omega⟩, ‹_›⟩
      · cases h

end Dartlet.Syntax
