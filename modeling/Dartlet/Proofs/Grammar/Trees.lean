import Dartlet.Proofs.Grammar.Reading
import Dartlet.Syntax.Derivation

/-!
# Derivations from charts

A chart that has read a sentence yields a derivation of it: the rule and the places chosen at each
step belong to items that the chart holds, so the parts can be found in turn, and the depth suffices
because each step goes to a shorter stretch or down a chain of rules with a single category.
-/

namespace Dartlet.Syntax

mutual

/-- A derivation of a symbol by the rules of a table. -/
inductive Derivation.Of (g : RuleTable) : Symbol → Derivation → Prop
  | leaf (t : Token) : Derivation.Of g (.tok t.terminal) (.leaf t)
  | node {r : Rule} {l : Location} {parts : List Derivation} :
    r ∈ g.rules → Derivation.AllOf g r.body parts → Derivation.Of g (.cat r.head) (.node r l parts)

/-- Derivations of symbols, one for each. -/
inductive Derivation.AllOf (g : RuleTable) : List Symbol → List Derivation → Prop
  | nil : Derivation.AllOf g [] []
  | cons {s : Symbol} {d : Derivation} {symbols : List Symbol} {parts : List Derivation} :
    Derivation.Of g s d → Derivation.AllOf g symbols parts → Derivation.AllOf g (s :: symbols) (d :: parts)

end

/-- Whether symbols are marked of which every sentence has a marked terminal. -/
def RuleTable.Marks (g : RuleTable) (marked : Symbol → Bool) : Prop :=
  ∀ r ∈ g.rules, marked (.cat r.head) = true → r.body.any marked = true

mutual

/-- What is derived without any marked terminal has no marked symbol. -/
theorem Derivation.Of.not_marked {g : RuleTable} {marked : Symbol → Bool} (hg : g.Marks marked) {s : Symbol}
    {d : Derivation} (hd : Of g s d) (htokens : ∀ t ∈ d.tokens, marked (.tok t.terminal) = false) : marked s = false := by
  cases hd with
  | leaf t => exact htokens t List.mem_cons_self
  | @node r l parts hr hparts =>
    refine Bool.eq_false_iff.mpr fun hmarked => ?_
    obtain ⟨s, hs, hsmarked⟩ := List.any_eq_true.mp (hg r hr hmarked)
    exact absurd hsmarked (by simp [hparts.not_marked hg htokens s hs])

theorem Derivation.AllOf.not_marked {g : RuleTable} {marked : Symbol → Bool} (hg : g.Marks marked)
    {symbols : List Symbol} {parts : List Derivation} (hparts : AllOf g symbols parts)
    (htokens : ∀ t ∈ tokensAll parts, marked (.tok t.terminal) = false) : ∀ s ∈ symbols, marked s = false := by
  cases hparts with
  | nil => simp
  | cons hd hrest =>
    rw [List.forall_mem_cons]
    exact ⟨hd.not_marked hg (fun t ht => htokens t (List.mem_append_left _ ht)),
      hrest.not_marked hg (fun t ht => htokens t (List.mem_append_right _ ht))⟩

end

/-- The part of a list between two places. -/
def stretch {α : Type} (xs : List α) (low high : Nat) : List α := (xs.drop low).take (high - low)

theorem stretch_append {α : Type} (xs : List α) {low middle high : Nat} (h₁ : low ≤ middle) (h₂ : middle ≤ high) :
    stretch xs low middle ++ stretch xs middle high = stretch xs low high := by
  have h : xs.drop middle = (xs.drop low).drop (middle - low) := by rw [List.drop_drop]; congr 1; omega
  have hsum : high - low = (middle - low) + (high - middle) := by omega
  rw [stretch, stretch, stretch, h, hsum, List.take_add]

theorem stretch_one {α : Type} {xs : List α} {place : Nat} {x : α} (h : xs[place]? = some x) :
    stretch xs place (place + 1) = [x] := by
  obtain ⟨hlt, rfl⟩ := List.getElem?_eq_some_iff.mp h
  simp [stretch, List.take_one, List.head?_drop, List.getElem?_eq_getElem hlt]

/-- A rank of categories that goes down along rules whose body is a single category. -/
structure RuleTable.Ranked (g : RuleTable) (rank : Category → Nat) : Prop where
  descends : ∀ r ∈ g.rules, ∀ c, r.body = [.cat c] → rank c < rank r.head
  bounded : ∀ c, rank c ≤ g.rules.size

namespace Chart

open RuleTable

variable {g : RuleTable} {start c : Category} {tokens : List Token} {sets : ItemSets}

/-- A chart that has read a list of tokens to its end. -/
structure Full (g : RuleTable) (start : Category) (tokens : List Token) (sets : ItemSets) : Prop where
  faithful : g.Faithful start (tokens.map Token.terminal) sets
  size : sets.size = tokens.length + 1

/-- A category has a complete reading between two places. -/
def Spans (g : RuleTable) (sets : ItemSets) (c : Category) (low high : Nat) : Prop :=
  ∃ i ∈ itemsAt sets high, g.completed? i = some c ∧ i.origin = low

theorem choose?_mem (chart : Chart) (preference : LastPart) (high : Nat) {places : List Nat} (h : places ≠ []) :
    ∃ k ∈ places, chart.choose? preference high places = some k := by
  obtain ⟨a, ha⟩ := Option.isSome_iff_exists.mp (List.isSome_min?_of_ne_nil h)
  obtain ⟨b, hb⟩ := Option.isSome_iff_exists.mp (List.isSome_max?_of_ne_nil h)
  have hamem : a ∈ places := List.min?_mem ha
  have hbmem : b ∈ places := List.max?_mem hb
  cases preference with
  | longest => exact ⟨a, hamem, ha⟩
  | shortest => exact ⟨b, hbmem, hb⟩
  | longestUnlessHollow =>
    simp only [choose?, ha]
    split
    · exact ⟨b, hbmem, hb⟩
    · exact ⟨a, hamem, rfl⟩

theorem mem_splits {chart : Chart} {rule dot low high k : Nat} : k ∈ chart.splits c rule dot low high ↔
    ∃ i ∈ itemsAt chart.sets high, chart.table.completed? i = some c ∧ i.origin = k ∧
      ⟨rule, dot, low⟩ ∈ itemsAt chart.sets k := by
  simp only [splits, List.mem_filterMap, Option.ite_none_right_eq_some, Bool.and_eq_true, beq_iff_eq, holds,
    List.contains_iff_mem, Option.some.injEq]
  constructor
  · rintro ⟨i, hi, ⟨hc, hheld⟩, rfl⟩
    exact ⟨i, hi, hc, rfl, hheld⟩
  · rintro ⟨i, hi, hc, rfl, hheld⟩
    exact ⟨i, hi, ⟨hc, hheld⟩, rfl⟩

namespace Full

variable (h : Full g start tokens sets)

include h

/-- An item held at a place is valid after the terminals before it. -/
theorem valid {place : Nat} (hp : place < sets.size) {i : Item} (hi : i ∈ itemsAt sets place) :
    ∃ r u v, g.Valid start ((tokens.map Token.terminal).take place) i r u v ∧ u.length + v.length = place := by
  obtain ⟨r, u, v, hv⟩ := h.faithful.sound place hp i hi
  refine ⟨r, u, v, hv, ?_⟩
  have hlength := congrArg List.length hv.word
  have hsize := h.size
  simp only [List.length_take, List.length_map, List.length_append] at hlength
  omega

theorem mem {place : Nat} (hp : place < sets.size) {x u v : List Terminal} {i : Item} {r : Rule}
    (hi : g.Valid start x i r u v) (hx : x = (tokens.map Token.terminal).take place) : i ∈ itemsAt sets place :=
  (h.faithful.mem_iff hp).mpr ⟨r, u, v, hx ▸ hi⟩

/-- An item began where it is held only if nothing of it has been read. -/
theorem origin_le (hg : g.Proper) {place : Nat} (hp : place < sets.size) {i : Item} (hi : i ∈ itemsAt sets place) :
    i.origin ≤ place ∧ (i.origin = place ↔ i.dot = 0) := by
  obtain ⟨r, u, v, hv, hlength⟩ := h.valid hp hi
  have horigin := hv.origin
  refine ⟨by omega, fun heq => ?_, fun hdot => ?_⟩
  · have hnil : v = [] := List.length_eq_zero_iff.mp (by omega)
    have hread := hv.read.eq_nil hg hnil
    have hne := hg.nonempty r hv.mem
    rcases List.take_eq_nil_iff.mp hread with hdot | hbody
    · exact hdot
    · exact absurd hbody hne
  · have hread := hv.read
    rw [hdot, List.take_zero] at hread
    cases hread
    simpa [horigin] using hlength

theorem spans_lt (hg : g.Proper) {low high : Nat} (hp : high < sets.size) (hspans : Spans g sets c low high) :
    low < high := by
  obtain ⟨i, hi, hc, rfl⟩ := hspans
  obtain ⟨r, u, v, hv, hlength⟩ := h.valid hp hi
  have horigin := hv.origin_lt hg hc
  rw [List.length_take] at horigin
  omega

/-- Before an item that has read a terminal stands the item that expects it, one token earlier. -/
theorem retreat_tok {number d low high : Nat} {r : Rule} {t : Terminal} (hp : high < sets.size)
    (hr : g.rules[number]? = some r) (ht : r.body[d]? = some (.tok t))
    (hi : ⟨number, d + 1, low⟩ ∈ itemsAt sets high) :
    ∃ place token, high = place + 1 ∧ tokens[place]? = some token ∧ token.terminal = t ∧
      ⟨number, d, low⟩ ∈ itemsAt sets place := by
  obtain ⟨r', u, v, hv, hlength⟩ := h.valid hp hi
  obtain rfl : r = r' := Option.some.inj (hr.symm.trans hv.rule)
  obtain ⟨s, y, z, hs, rfl, hz, hbefore⟩ := hv.retreat rfl
  obtain rfl : Symbol.tok t = s := Option.some.inj (ht.symm.trans hs)
  obtain rfl := hz.of_tok
  have hsize := h.size
  obtain ⟨place, rfl⟩ : ∃ place, high = place + 1 :=
    Nat.exists_eq_add_one_of_ne_zero (by simp only [List.length_append, List.length_singleton] at hlength; omega)
  obtain ⟨token, htoken⟩ : ∃ token, tokens[place]? = some token :=
    ⟨_, List.getElem?_eq_getElem (by omega)⟩
  have hword := hv.word
  rw [List.take_add_one, List.getElem?_map, htoken, Option.map_some, Option.toList_some, ← List.append_assoc] at hword
  obtain ⟨hfront, hlast⟩ := List.append_inj' hword rfl
  refine ⟨place, token, rfl, htoken, List.singleton_inj.mp hlast, h.mem (by omega) hbefore hfront.symm⟩

/-- Before an item that has read a category stands the item that expects it, where a complete
reading of the category begins. -/
theorem retreat_cat {number d low high : Nat} {r : Rule} (hp : high < sets.size)
    (hr : g.rules[number]? = some r) (hc : r.body[d]? = some (.cat c))
    (hi : ⟨number, d + 1, low⟩ ∈ itemsAt sets high) :
    ∃ k, Spans g sets c k high ∧ ⟨number, d, low⟩ ∈ itemsAt sets k := by
  obtain ⟨r', u, v, hv, hlength⟩ := h.valid hp hi
  obtain rfl : r = r' := Option.some.inj (hr.symm.trans hv.rule)
  obtain ⟨s, y, z, hs, rfl, hz, hbefore⟩ := hv.retreat rfl
  obtain rfl : Symbol.cat c = s := Option.some.inj (hc.symm.trans hs)
  obtain ⟨r₁, hr₁, rfl, hbody⟩ := hz.of_single
  obtain ⟨n, hn⟩ := exists_rule hr₁
  have hword := hv.word
  rw [← List.append_assoc] at hword
  have hle : (u ++ y).length ≤ high := by
    simp only [List.length_append] at hlength ⊢
    omega
  have hfront : u ++ y = (tokens.map Token.terminal).take (u ++ y).length := by
    have htake := congrArg (List.take (u ++ y).length) hword
    rw [List.take_left, List.take_take, Nat.min_eq_left hle] at htake
    exact htake.symm
  have hawaited : g.Awaited start r₁.head (u ++ y) := hbefore.predict (by rw [next?_eq hbefore.rule]; exact hc)
  have hcomplete : g.Valid start (u ++ y ++ z) ⟨n, r₁.body.length, (u ++ y).length⟩ r₁ (u ++ y) z :=
    ⟨hn, le_rfl, rfl, rfl, hawaited, by simpa using hbody⟩
  refine ⟨(u ++ y).length, ⟨_, h.mem hp hcomplete hword.symm, ?_, rfl⟩, h.mem (by omega) hbefore hfront⟩
  simp [completed?, next?, body_eq hn, head?_eq hn]

end Full

/-- What a found derivation of a stretch of tokens must be. -/
def Finds (g : RuleTable) (tokens : List Token) (derive : Category → Nat → Nat → Option Derivation)
    (c : Category) (low high : Nat) : Prop :=
  ∃ d, derive c low high = some d ∧ d.Of g (.cat c) ∧ d.tokens = stretch tokens low high

/-- For a category before the dot of an item there is a place to choose where it begins. -/
theorem choose?_finds (h : Full g start tokens sets) {number dot low high : Nat} {r : Rule}
    (hr : g.rules[number]? = some r) (hhigh : high < sets.size) (hs : r.body[dot]? = some (.cat c))
    (hitem : ⟨number, dot + 1, low⟩ ∈ itemsAt sets high) :
    ∃ k, choose? ⟨g, tokens.toArray, sets⟩ r.lastPart high
        (splits ⟨g, tokens.toArray, sets⟩ c number dot low high) = some k ∧
      Spans g sets c k high ∧ ⟨number, dot, low⟩ ∈ itemsAt sets k := by
  obtain ⟨k₀, ⟨i₀, hi₀, hc₀, rfl⟩, hbefore₀⟩ := h.retreat_cat hhigh hr hs hitem
  have hplaces : splits ⟨g, tokens.toArray, sets⟩ c number dot low high ≠ [] :=
    List.ne_nil_of_mem (mem_splits.mpr ⟨i₀, hi₀, hc₀, rfl, hbefore₀⟩)
  obtain ⟨k, hk, hchoice⟩ := choose?_mem _ r.lastPart high hplaces
  obtain ⟨i, hi, hc, horigin, hbefore⟩ := mem_splits.mp hk
  exact ⟨k, hchoice, ⟨i, hi, hc, horigin⟩, hbefore⟩

/-- The parts of a rule can be found from the last to the first, if derivations are found for all
stretches that are shorter than the rule's or lie below a rule with a single category. -/
theorem parts?_finds (h : Full g start tokens sets) (hg : g.Proper)
    {derive : Category → Nat → Nat → Option Derivation} {number low top : Nat} {r : Rule}
    (hr : g.rules[number]? = some r) (htop : top < sets.size)
    (hderive : ∀ c k high, Spans g sets c k high → low ≤ k → high ≤ top →
      (low < k ∨ high < top ∨ r.body = [.cat c]) → Finds g tokens derive c k high)
    {before after : List Symbol} {high : Nat} {found : List Derivation} (hbody : r.body = before.reverse ++ after)
    (hitem : ⟨number, before.length, low⟩ ∈ itemsAt sets high) (hhigh : high ≤ top)
    (hafter : after = [] ∨ high < top) (hfound : Derivation.AllOf g after found)
    (htokens : Derivation.tokensAll found = stretch tokens high top) :
    ∃ parts, parts? ⟨g, tokens.toArray, sets⟩ derive number r low before high found = some parts ∧
      Derivation.AllOf g r.body parts ∧ Derivation.tokensAll parts = stretch tokens low top := by
  induction before generalizing after high found with
  | nil =>
    obtain rfl : low = high := ((h.origin_le hg (by omega) hitem).2).mpr rfl
    refine ⟨found, by simp [parts?], ?_, htokens⟩
    rw [hbody]
    exact hfound
  | cons s before ih =>
    have hs : r.body[before.length]? = some s := by simp [hbody]
    have hbody' : r.body = before.reverse ++ s :: after := by simp [hbody]
    cases s with
    | tok t =>
      obtain ⟨place, token, rfl, htoken, rfl, hbefore⟩ := h.retreat_tok (by omega) hr hs hitem
      have hfound' : Derivation.AllOf g (.tok token.terminal :: after) (.leaf token :: found) :=
        .cons (.leaf token) hfound
      have htokens' : Derivation.tokensAll (.leaf token :: found) = stretch tokens place top := by
        rw [Derivation.tokensAll, Derivation.tokens, htokens, ← stretch_one htoken,
          stretch_append tokens (Nat.le_succ place) hhigh]
      have hrest := ih hbody' hbefore (by omega) (.inr (by omega)) hfound' htokens'
      simpa [parts?, htoken] using hrest
    | cat c =>
      obtain ⟨k, hchoice, hspans, hbefore⟩ := choose?_finds h hr (by omega) hs hitem
      have hlt := h.spans_lt hg (by omega) hspans
      obtain ⟨hle, hstart⟩ := h.origin_le hg (by omega) hbefore
      have hshorter : low < k ∨ high < top ∨ r.body = [.cat c] := by
        rcases Nat.lt_or_eq_of_le hle with hlow | hlow
        · exact .inl hlow
        · have hnil : before = [] := List.length_eq_zero_iff.mp (hstart.mp hlow)
          refine .inr (hafter.symm.imp_right (fun hend => ?_))
          rw [hbody', hnil, hend, List.reverse_nil, List.nil_append]
      obtain ⟨d, hd, hof, hdtokens⟩ := hderive c k high hspans hle hhigh hshorter
      have htokens' : Derivation.tokensAll (d :: found) = stretch tokens k top := by
        rw [Derivation.tokensAll, hdtokens, htokens, stretch_append tokens hlt.le hhigh]
      have hrest := ih hbody' hbefore (by omega) (.inr (by omega)) (.cons hof hfound) htokens'
      have hparts : parts? ⟨g, tokens.toArray, sets⟩ derive number r low (.cat c :: before) high found =
          parts? ⟨g, tokens.toArray, sets⟩ derive number r low before k (d :: found) := by
        simp only [parts?, hchoice, hd]
      rwa [hparts]

/-- The first rule that is complete for a stretch, where one is. -/
theorem ruleFor?_of_spans (h : Full g start tokens sets) {low high : Nat} (hp : high < sets.size)
    (hspans : Spans g sets c low high) :
    ∃ number r, ruleFor? ⟨g, tokens.toArray, sets⟩ c low high = some (number, r) ∧
      g.rules[number]? = some r ∧ r.head = c ∧ ⟨number, r.body.length, low⟩ ∈ itemsAt sets high := by
  obtain ⟨i, hi, hc, rfl⟩ := hspans
  obtain ⟨r₀, u, v, hv, -⟩ := h.valid hp hi
  have hheld : (g.rulesFor c).find? (fun n => holds ⟨g, tokens.toArray, sets⟩ high
      ⟨n, (g.body n).length, i.origin⟩) ≠ none := by
    intro hnone
    have hmem : i.rule ∈ g.rulesFor c := mem_rulesFor.mpr ⟨r₀, hv.rule, (hv.complete hc).1⟩
    have hdot : i.dot = (g.body i.rule).length := by
      have hle := hv.dot
      unfold completed? at hc
      split at hc
      · cases hc
      · rename_i hnext
        rw [next?_eq hv.rule, List.getElem?_eq_none_iff] at hnext
        rw [body_eq hv.rule]
        omega
    have hnot := List.find?_eq_none.mp hnone i.rule hmem
    rw [← hdot] at hnot
    exact hnot (List.contains_iff_mem.mpr hi)
  obtain ⟨number, hfind⟩ := Option.ne_none_iff_exists'.mp hheld
  obtain ⟨r, hr, rfl⟩ := mem_rulesFor.mp (List.mem_of_find?_eq_some hfind)
  have hitem : ⟨number, (g.body number).length, i.origin⟩ ∈ itemsAt sets high :=
    List.contains_iff_mem.mp (List.find?_some hfind :)
  rw [body_eq hr] at hitem
  exact ⟨number, r, by simp only [ruleFor?, hfind, hr, Option.map_some], hr, rfl, hitem⟩

/-- A derivation is found for every stretch that a category spans, if the depth suffices. -/
theorem derive?_finds (h : Full g start tokens sets) (hg : g.Proper) {rank : Category → Nat} (hrank : g.Ranked rank)
    {depth low high : Nat} (hp : high < sets.size) (hspans : Spans g sets c low high)
    (hdepth : (high - low) * (g.rules.size + 1) + rank c < depth) :
    Finds g tokens (derive? ⟨g, tokens.toArray, sets⟩ depth) c low high := by
  induction depth generalizing c low high with
  | zero => omega
  | succ depth ih =>
    have hlt := h.spans_lt hg hp hspans
    obtain ⟨number, r, hrule, hr, rfl, hitem⟩ := ruleFor?_of_spans h hp hspans
    have hderive (c : Category) (k high' : Nat) (hsub : Spans g sets c k high') (hk : low ≤ k) (hhigh : high' ≤ high)
        (hshorter : low < k ∨ high' < high ∨ r.body = [.cat c]) :
        Finds g tokens (derive? ⟨g, tokens.toArray, sets⟩ depth) c k high' := by
      refine ih (by omega) hsub ?_
      have hmem : r ∈ g.rules := Array.mem_of_getElem? hr
      have hsub_lt := h.spans_lt hg (by omega) hsub
      by_cases hunit : r.body = [.cat c]
      · have hdown := hrank.descends r hmem c hunit
        have hlength := Nat.mul_le_mul_right (g.rules.size + 1) (show high' - k ≤ high - low by omega)
        omega
      · have hc := hrank.bounded c
        have hless : high' - k + 1 ≤ high - low := by
          rcases hshorter with hshorter | hshorter | hshorter
          · omega
          · omega
          · exact absurd hshorter hunit
        have hlength := Nat.mul_le_mul_right (g.rules.size + 1) hless
        rw [Nat.add_mul, Nat.one_mul] at hlength
        omega
    have hbody : r.body = r.body.reverse.reverse ++ [] := by simp
    have hitem' : ⟨number, r.body.reverse.length, low⟩ ∈ itemsAt sets high := by simpa using hitem
    have hempty : Derivation.tokensAll [] = stretch tokens high high := by simp [Derivation.tokensAll, stretch]
    obtain ⟨parts, hparts, hall, htokens⟩ :=
      parts?_finds h hg hr hp hderive hbody hitem' le_rfl (.inl rfl) .nil hempty
    refine ⟨.node r (location ⟨g, tokens.toArray, sets⟩ low) parts, ?_, .node (Array.mem_of_getElem? hr) hall, ?_⟩
    · simp only [derive?, hrule, hparts, Option.map_some]
    · rw [Derivation.tokens, htokens]

end Chart

end Dartlet.Syntax
