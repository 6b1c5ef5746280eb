import Dartlet.Proofs.Grammar.Closure
import Dartlet.Proofs.Grammar.Derivability
import Mathlib.Data.Finset.Prod

/-!
# Charts hold the valid items

After any number of terminals, the set of each place holds exactly the items that are valid there.
Nothing else gets in, because every way into a set keeps items valid. Nothing is missing, because the
sets begin with the rules of the start, are closed under reading terminals, beginning rules and
completing them, and so follow every derivation from left to right.
-/

namespace Dartlet.Syntax.RuleTable

variable {g : RuleTable} {start c : Category} {w : List Terminal}

/-- The items of a place. -/
def itemsAt (sets : ItemSets) (place : Nat) : List Item := sets[place]?.getD []

/-! ### Predicted items -/

theorem mem_rulesFor {n : Nat} : n ∈ g.rulesFor c ↔ ∃ r, g.rules[n]? = some r ∧ r.head = c := by
  simp only [rulesFor, List.mem_filter, List.mem_range, beq_iff_eq, head?, Option.map_eq_some_iff]
  constructor
  · exact fun h => h.2
  · rintro ⟨r, hr, rfl⟩
    exact ⟨(Array.getElem?_eq_some_iff.mp hr).1, r, hr, rfl⟩

theorem mem_corners {d : Category} :
    d ∈ g.corners c ↔ ∃ r ∈ g.rules, r.head = c ∧ r.body.head? = some (.cat d) := by
  simp only [corners, List.mem_filterMap, mem_rulesFor]
  constructor
  · rintro ⟨n, ⟨r, hr, hc⟩, hd⟩
    rw [body_eq hr] at hd
    refine ⟨r, Array.mem_of_getElem? hr, hc, ?_⟩
    split at hd
    · cases hd
      assumption
    · cases hd
  · rintro ⟨r, hr, hc, hd⟩
    obtain ⟨n, hn⟩ := exists_rule hr
    refine ⟨n, ⟨r, hn, hc⟩, ?_⟩
    rw [body_eq hn, hd]

/-- The categories that may come next where some are expected. -/
def reachable (g : RuleTable) (expected : List Category) : List Category :=
  closure g.corners (g.cornerRounds expected.length) [] expected

theorem length_corners_le (g : RuleTable) (c : Category) : (g.corners c).length ≤ g.rules.size :=
  calc (g.corners c).length ≤ (g.rulesFor c).length := List.length_filterMap_le _ _
    _ ≤ (List.range g.rules.size).length := List.length_filter_le _ _
    _ = g.rules.size := List.length_range

theorem reachable_closed (g : RuleTable) (expected : List Category) :
    (∀ c ∈ expected, c ∈ g.reachable expected) ∧
      ∀ c ∈ g.reachable expected, ∀ d ∈ g.corners c, d ∈ g.reachable expected := by
  let heads := (g.rules.toList.map Rule.head).toFinset
  have hall (c : Category) (hc : c ∉ heads) : g.corners c = [] := by
    refine List.eq_nil_iff_forall_not_mem.mpr (fun d hd => hc ?_)
    obtain ⟨r, hr, rfl, -⟩ := mem_corners.mp hd
    exact List.mem_toFinset.mpr (List.mem_map_of_mem (Array.mem_toList_iff.mpr hr))
  have hcard : heads.card ≤ g.rules.size := by
    simpa using List.toFinset_card_le (g.rules.toList.map Rule.head)
  have hrounds : roundsLeft g.corners heads [] expected ≤ g.cornerRounds expected.length := by
    have h := roundsLeft_le (fun c _ => g.length_corners_le c) hcard expected
    have : g.rules.size * g.rules.size ≤ (g.rules.size + 1) * (g.rules.size + 1) :=
      Nat.mul_le_mul (Nat.le_succ _) (Nat.le_succ _)
    simp only [cornerRounds]
    omega
  obtain ⟨-, hexpected, hsteps⟩ := closure_closed (P := fun _ => True) (fun _ _ _ _ => trivial)
    (fun c _ => hall c) _ [] expected (fun _ _ => trivial) hrounds
  exact ⟨hexpected, fun c hc => (hsteps c hc).resolve_left List.not_mem_nil⟩

theorem mem_predicted {expected : List Category} {place : Nat} {i : Item} :
    i ∈ g.predicted expected place ↔
      ∃ r, g.rules[i.rule]? = some r ∧ r.head ∈ g.reachable expected ∧ i.dot = 0 ∧ i.origin = place := by
  simp only [predicted, List.mem_filterMap, List.mem_range]
  constructor
  · rintro ⟨n, hn, hi⟩
    have hr : g.rules[n]? = some g.rules[n] := Array.getElem?_eq_getElem hn
    simp only [head?_eq hr, Option.ite_none_right_eq_some, Option.some.injEq] at hi
    obtain ⟨hc, rfl⟩ := hi
    exact ⟨_, hr, hc, rfl, rfl⟩
  · rintro ⟨r, hr, hc, hdot, horigin⟩
    refine ⟨i.rule, (Array.getElem?_eq_some_iff.mp hr).1, ?_⟩
    simp only [head?_eq hr, Option.ite_none_right_eq_some, Option.some.injEq]
    exact ⟨hc, by rw [← hdot, ← horigin]⟩

theorem nodup_predicted (g : RuleTable) (expected : List Category) (place : Nat) :
    (g.predicted expected place).Nodup := by
  refine List.Nodup.filterMap (fun m n i hm hn => ?_) List.nodup_range
  rw [Option.mem_def] at hm hn
  split at hm
  · split at hn
    · simp only [Option.ite_none_right_eq_some, Option.some.injEq] at hm hn
      rw [← hn.2, Item.mk.injEq] at hm
      exact hm.2.1
    · cases hn
  · cases hm

theorem mem_expectedCategories {items : List Item} :
    c ∈ g.expectedCategories items ↔ ∃ i ∈ items, g.next? i = some (.cat c) := by
  simp only [expectedCategories, List.mem_filterMap]
  constructor
  · rintro ⟨i, hi, hc⟩
    refine ⟨i, hi, ?_⟩
    split at hc
    · cases hc
      assumption
    · cases hc
  · rintro ⟨i, hi, hc⟩
    exact ⟨i, hi, by rw [hc]⟩

/-- Where the expected categories are awaited, so are all that may come next. -/
theorem awaited_reachable {expected : List Category} {x : List Terminal}
    (h : ∀ c ∈ expected, g.Awaited start c x) : ∀ c ∈ g.reachable expected, g.Awaited start c x := by
  refine closure_induction (fun c hc d hd => ?_) _ [] expected (by simp) h
  obtain ⟨r, hr, rfl, hfirst⟩ := mem_corners.mp hd
  obtain ⟨rest, hrest⟩ := List.head?_eq_some_iff.mp hfirst
  have hbody : r.body = [] ++ .cat d :: rest := hrest
  rw [← List.append_nil x]
  exact .inside hr hc hbody .nil

/-! ### What makes a chart complete -/

/-- Sets of items up to a place that begin with the rules of the start and are closed under reading
terminals, beginning rules and completing them. -/
structure Closed (g : RuleTable) (start : Category) (w : List Terminal) (holds : Nat → Item → Prop)
    (place : Nat) : Prop where
  starts : ∀ {n : Nat} {r : Rule}, g.rules[n]? = some r → r.head = start → holds 0 ⟨n, 0, 0⟩
  scans : ∀ {p : Nat} {i : Item} {t : Terminal}, p < place → holds p i → w[p]? = some t →
    g.next? i = some (.tok t) → holds (p + 1) i.advance
  predicts : ∀ {p n : Nat} {i : Item} {r : Rule}, p ≤ place → holds p i → g.next? i = some (.cat r.head) →
    g.rules[n]? = some r → holds p ⟨n, 0, p⟩
  completes : ∀ {p : Nat} {i j : Item} {c : Category}, p ≤ place → holds p i → g.completed? i = some c →
    holds i.origin j → g.next? j = some (.cat c) → holds p j.advance

namespace Closed

variable {holds : Nat → Item → Prop} {place : Nat}

/-- Closed sets follow a derivation: if an item is held and the symbols after its dot derive the
terminals that come next, then the item beyond these symbols is held after the terminals. -/
theorem follow (h : g.Closed start w holds place) {syms : List Symbol} {v : List Terminal}
    (hv : g.Derives syms v) {i : Item} {r : Rule} {rest : List Symbol} {x z : List Terminal}
    (hr : g.rules[i.rule]? = some r) (hsyms : r.body.drop i.dot = syms ++ rest) (hw : w = x ++ (v ++ z))
    (hplace : x.length + v.length ≤ place) (hi : holds x.length i) :
    holds (x.length + v.length) ⟨i.rule, i.dot + syms.length, i.origin⟩ := by
  induction hv generalizing i r rest x z with
  | nil => exact hi
  | @tok syms v t _ ih =>
    obtain ⟨hnext, hdrop⟩ := next?_of_drop hr hsyms
    have ht : w[x.length]? = some t := by simp [hw]
    simp only [List.length_cons] at hplace ⊢
    have hadvanced := h.scans (by omega) hi ht hnext
    have hstep := ih (i := i.advance) (x := x ++ [t]) (z := z) hr hdrop (by simpa using hw) (by simp; omega)
      (by simpa using hadvanced)
    simpa [Item.advance, Nat.add_assoc, Nat.add_comm 1] using hstep
  | @cat r₁ syms v₁ v₂ hmem hbody _ ih₁ ih₂ =>
    obtain ⟨hnext, hdrop⟩ := next?_of_drop hr hsyms
    simp only [List.length_cons, List.length_append] at hplace ⊢
    obtain ⟨n, hn⟩ := exists_rule hmem
    have hbegun := h.predicts (by omega) hi hnext hn
    have hsyms₁ : r₁.body.drop 0 = r₁.body ++ [] := by simp
    have hwhole := ih₁ (x := x) (z := v₂ ++ z) hn hsyms₁ (by simpa using hw) (by omega) hbegun
    have hdone : g.completed? ⟨n, 0 + r₁.body.length, x.length⟩ = some r₁.head := by
      simp [completed?, next?, body_eq hn, head?_eq hn]
    have hadvanced := h.completes (by omega) hwhole hdone hi hnext
    have hstep := ih₂ (i := i.advance) (x := x ++ v₁) (z := z) hr hdrop (by simpa using hw) (by simp; omega)
      (by simpa using hadvanced)
    simpa [Item.advance, Nat.add_assoc, Nat.add_comm 1] using hstep

/-- Closed sets hold the rules of every awaited category, from their beginning. -/
theorem begins (h : g.Closed start w holds place) {x : List Terminal} (hc : g.Awaited start c x)
    {z : List Terminal} (hw : w = x ++ z) (hplace : x.length ≤ place) {n : Nat} {r : Rule}
    (hn : g.rules[n]? = some r) (hr : r.head = c) : holds x.length ⟨n, 0, x.length⟩ := by
  induction hc generalizing z n r with
  | start => exact h.starts hn hr
  | @inside r₁ c u v before after hmem _ hbody hv ih =>
    subst hr
    simp only [List.length_append] at hplace ⊢
    obtain ⟨m, hm⟩ := exists_rule hmem
    have hbegun := ih (z := v ++ z) (by simpa using hw) (by omega) hm rfl
    have hread := h.follow hv (i := ⟨m, 0, u.length⟩) (z := z) hm (by simpa using hbody) (by simpa using hw) hplace
      hbegun
    refine h.predicts hplace hread ?_ hn
    rw [next?_eq hm, hbody]
    simp

/-- Closed sets hold all valid items. -/
theorem holds_of_valid (h : g.Closed start w holds place) {x u v z : List Terminal} {i : Item} {r : Rule}
    (hi : g.Valid start x i r u v) (hw : w = x ++ z) (hplace : x.length ≤ place) : holds x.length i := by
  have hword := hi.word
  subst hword
  simp only [List.length_append] at hplace ⊢
  have hbegun := h.begins hi.awaited (z := v ++ z) (by simpa using hw) (by omega) hi.rule rfl
  have hsyms : r.body.drop 0 = r.body.take i.dot ++ r.body.drop i.dot := by simp
  have hread := h.follow hi.read (i := ⟨i.rule, 0, u.length⟩) (z := z) hi.rule hsyms (by simpa using hw) hplace hbegun
  have hdot := hi.dot
  simpa [List.length_take, Nat.min_eq_left hdot, ← hi.origin] using hread

end Closed

end Dartlet.Syntax.RuleTable
