import Mathlib.Algebra.BigOperators.Group.List.Basic
import Mathlib.Computability.Language
import Dartlet.Text.Pattern

/-!
# The language of a pattern

A pattern stands for a regular language. Matching tries one way after the other and gives up a part of the text that it
has taken if what follows fails. In the end it takes a text of the language, and it fails only if no text of the
language is at the front.
-/

namespace Dartlet.Text.Pattern

/-- The texts for which a pattern stands. Which of its ways comes first makes no difference. -/
def language : Pattern → Language Char
  | one test => {w | ∃ c, test c = true ∧ w = [c]}
  | seq first second => first.language * second.language
  | choice first second => first.language + second.language
  | many body | few body => KStar.kstar body.language

variable {L M : Language Char} {match? round next : ℕ → List Char → After → Option ℕ}

/-! ### What is taken -/

/-- A way to match that takes texts of a language and leaves the rest to what happens after it. -/
def TakesFrom (L : Language Char) (match? : ℕ → List Char → After → Option ℕ) : Prop :=
  ∀ ⦃taken text after total⦄, match? taken text after = some total →
    ∃ u ∈ L, ∃ rest, text = u ++ rest ∧ after (taken + u.length) rest = some total

theorem TakesFrom.mul (h : TakesFrom L match?) (h' : TakesFrom M next) :
    TakesFrom (L * M) (fun taken text after => match? taken text (fun taken text => next taken text after)) := by
  intro taken text after total hsome
  obtain ⟨u, hu, rest, rfl, hnext⟩ := h hsome
  obtain ⟨w, hw, rest, rfl, hafter⟩ := h' hnext
  refine ⟨u ++ w, Language.append_mem_mul hu hw, rest, (List.append_assoc ..).symm, ?_⟩
  rwa [List.length_append, ← Nat.add_assoc]

theorem TakesFrom.mono (h : TakesFrom L match?) (hL : ∀ w ∈ L, w ∈ M) : TakesFrom M match? := by
  intro taken text after total hsome
  obtain ⟨u, hu, hrest⟩ := h hsome
  exact ⟨u, hL u hu, hrest⟩

/-- To stop is to take nothing. -/
theorem TakesFrom.stop : TakesFrom 1 (fun taken text after => after taken text) :=
  fun _ text _ _ hafter => ⟨[], Language.nil_mem_one, text, rfl, hafter⟩

theorem takesFrom_repeatMany (h : TakesFrom L round) (n : ℕ) : TakesFrom (KStar.kstar L) (repeatMany round n) := by
  have hstop := TakesFrom.stop.mono fun _ hw => one_le_kstar (a := L) hw
  induction n with
  | zero => exact hstop
  | succ n ih =>
    intro taken text after total hsome
    simp only [repeatMany] at hsome
    split at hsome
    · rename_i hround
      cases hsome
      exact (h.mul ih).mono (fun _ hw => mul_kstar_le_kstar (a := L) hw) hround
    · exact hstop hsome

theorem takesFrom_repeatFew (h : TakesFrom L round) (n : ℕ) : TakesFrom (KStar.kstar L) (repeatFew round n) := by
  have hstop := TakesFrom.stop.mono fun _ hw => one_le_kstar (a := L) hw
  induction n with
  | zero => exact hstop
  | succ n ih =>
    intro taken text after total hsome
    simp only [repeatFew] at hsome
    split at hsome
    · rename_i hafter
      cases hsome
      exact hstop hafter
    · exact (h.mul ih).mono (fun _ hw => mul_kstar_le_kstar (a := L) hw) hsome

/-- A pattern takes texts of its language. -/
theorem takesFrom_run (p : Pattern) (limit : ℕ) : TakesFrom p.language (p.run limit) := by
  induction p with
  | one test =>
    intro taken text after total hsome
    cases text with
    | nil => cases hsome
    | cons c rest =>
      simp only [run] at hsome
      split at hsome
      · rename_i hc
        exact ⟨[c], ⟨c, hc, rfl⟩, rest, rfl, hsome⟩
      · cases hsome
  | seq first second ihFirst ihSecond => exact ihFirst.mul ihSecond
  | choice first second ihFirst ihSecond =>
    intro taken text after total hsome
    simp only [run] at hsome
    split at hsome
    · rename_i hfirst
      cases hsome
      exact ihFirst.mono (fun _ => .inl) hfirst
    · exact ihSecond.mono (fun _ => .inr) hsome
  | many body ih => exact takesFrom_repeatMany ih limit
  | few body ih => exact takesFrom_repeatFew ih limit

/-! ### What is found -/

/-- A way to match that succeeds on texts that are not too long, if any text of a language is at the front and what
happens after it succeeds. -/
def Finds (L : Language Char) (limit : ℕ) (match? : ℕ → List Char → After → Option ℕ) : Prop :=
  ∀ ⦃taken u rest after⦄, u ∈ L → (u ++ rest).length ≤ limit → after (taken + u.length) rest ≠ none →
    match? taken (u ++ rest) after ≠ none

variable {limit : ℕ}

theorem Finds.mul (h : Finds L limit match?) (h' : Finds M limit next) :
    Finds (L * M) limit (fun taken text after => match? taken text (fun taken text => next taken text after)) := by
  intro taken uw rest after huw hlimit hafter
  obtain ⟨u, hu, w, hw, rfl⟩ := Language.mem_mul.mp huw
  rw [List.append_assoc] at hlimit ⊢
  rw [List.length_append, ← Nat.add_assoc] at hafter
  refine h hu hlimit (h' hw ?_ hafter)
  rw [List.length_append] at hlimit
  omega

theorem length_le_length_flatten {words : List (List Char)} (h : ∀ w ∈ words, w ≠ []) :
    words.length ≤ words.flatten.length := by
  have hlengths : ∀ n ∈ words.map List.length, 1 ≤ n := by
    simpa [Nat.one_le_iff_ne_zero] using h
  simpa [List.length_flatten] using List.length_le_sum_of_one_le _ hlengths

/-- A repetition finds words one after the other, if there is a round for each and if it succeeds wherever what happens
after it does and wherever a round does after which the repetition with one round less succeeds. -/
theorem finds_kstar {rounds : ℕ → ℕ → List Char → After → Option ℕ} (hround : Finds L limit round)
    (hstop : ∀ {n taken text after}, after taken text ≠ none → rounds n taken text after ≠ none)
    (hnext : ∀ {n taken text after}, round taken text (fun taken text => rounds n taken text after) ≠ none →
      rounds (n + 1) taken text after ≠ none) {n : ℕ} (hn : limit ≤ n) : Finds (KStar.kstar L) limit (rounds n) := by
  intro taken u rest after hu hlimit hafter
  obtain ⟨words, rfl, hwords⟩ := Language.mem_kstar_iff_exists_nonempty.mp hu
  have hlength : words.length ≤ n := by
    have hle := length_le_length_flatten fun w hw => (hwords w hw).2
    rw [List.length_append] at hlimit
    omega
  clear hn hu
  induction words generalizing taken n with
  | nil => exact hstop hafter
  | cons w words ih =>
    obtain ⟨n, rfl⟩ : ∃ k, n = k + 1 := ⟨n - 1, by rw [List.length_cons] at hlength; omega⟩
    rw [List.flatten_cons, List.append_assoc] at hlimit ⊢
    rw [List.flatten_cons, List.length_append, ← Nat.add_assoc] at hafter
    obtain ⟨⟨hw, -⟩, hwords⟩ := List.forall_mem_cons.mp hwords
    refine hnext (hround hw hlimit (ih hwords ?_ hafter (Nat.le_of_succ_le_succ hlength)))
    rw [List.length_append] at hlimit
    omega

theorem finds_repeatMany (h : Finds L limit round) : Finds (KStar.kstar L) limit (repeatMany round limit) := by
  refine finds_kstar h (fun {n taken text after} hafter => ?_) (fun hnext => ?_) (Nat.le_refl limit)
  · cases n with
    | zero => exact hafter
    | succ n =>
      simp only [repeatMany]
      split
      · simp
      · exact hafter
  · obtain ⟨total, htotal⟩ := Option.ne_none_iff_exists'.mp hnext
    simp [repeatMany, htotal]

theorem finds_repeatFew (h : Finds L limit round) : Finds (KStar.kstar L) limit (repeatFew round limit) := by
  refine finds_kstar h (fun {n taken text after} hafter => ?_) (fun hnext => ?_) (Nat.le_refl limit)
  · cases n with
    | zero => exact hafter
    | succ n =>
      obtain ⟨total, htotal⟩ := Option.ne_none_iff_exists'.mp hafter
      simp [repeatFew, htotal]
  · simp only [repeatFew]
    split
    · simp
    · exact hnext

/-- A pattern succeeds if a text of its language is at the front and what happens after it succeeds. -/
theorem finds_run (p : Pattern) (limit : ℕ) : Finds p.language limit (p.run limit) := by
  induction p with
  | one test =>
    rintro taken u rest after ⟨c, hc, rfl⟩ - hafter
    simpa [run, hc] using hafter
  | seq first second ihFirst ihSecond => exact ihFirst.mul ihSecond
  | choice first second ihFirst ihSecond =>
    intro taken u rest after hu hlimit hafter
    simp only [run]
    split
    · simp
    · rename_i hnone
      rcases hu with hu | hu
      · exact absurd hnone (ihFirst hu hlimit hafter)
      · exact ihSecond hu hlimit hafter
  | many body ih => exact finds_repeatMany ih
  | few body ih => exact finds_repeatFew ih

/-! ### Matches at the front of a text -/

variable {p : Pattern} {text : List Char} {n : ℕ}

/-- What a pattern takes from the front of a text is in its language. -/
theorem exists_of_matchLength? (h : p.matchLength? text = some n) :
    ∃ w ∈ p.language, ∃ rest, text = w ++ rest ∧ n = w.length := by
  obtain ⟨w, hw, rest, htext, hn⟩ := takesFrom_run p text.length h
  exact ⟨w, hw, rest, htext, by simpa using hn.symm⟩

/-- A pattern does not match just if no text of its language is at the front. -/
theorem matchLength?_eq_none_iff : p.matchLength? text = none ↔ ∀ w ∈ p.language, ¬ w <+: text := by
  constructor
  · rintro hnone w hw ⟨rest, rfl⟩
    exact finds_run p _ hw (Nat.le_refl _) (by simp) hnone
  · refine fun h => Option.eq_none_iff_forall_ne_some.mpr fun n hn => ?_
    obtain ⟨w, hw, rest, rfl, -⟩ := exists_of_matchLength? hn
    exact h w hw (List.prefix_append w rest)

end Dartlet.Text.Pattern
