import Dartlet.Proofs.Program.Words

/-!
# String literals before a break

A string literal ends at its first closing quotes that nothing inside it hides. So what is cut from a text as
a literal is cut from it wherever else it stands before a break. The one exception are literals on one line
that embed an expression: where its brace closes may depend on what follows.
-/

namespace Dartlet.Text.Pattern

/-! ### What a match takes -/

/-- A way to match that takes a part of the text and leaves the rest to what happens after it. -/
def Takes (match? : Nat → List Char → After → Option Nat) : Prop :=
  ∀ ⦃taken text after total⦄, match? taken text after = some total →
    ∃ m ≤ text.length, after (taken + m) (text.drop m) = some total

/-- A way to match that takes only characters with a property. -/
def TakesOnly (P : Char → Prop) (match? : Nat → List Char → After → Option Nat) : Prop :=
  ∀ ⦃taken text after total⦄, match? taken text after = some total →
    ∃ m ≤ text.length, (∀ c ∈ text.take m, P c) ∧ after (taken + m) (text.drop m) = some total

/-- Every test of a pattern accepts only characters with a property. -/
def Accepts (P : Char → Prop) : Pattern → Prop
  | .one test => ∀ c, test c = true → P c
  | .seq first second | .choice first second => first.Accepts P ∧ second.Accepts P
  | .many body | .few body => body.Accepts P

variable {P : Char → Prop}

/-- First one part of the text is taken, and then another one. -/
theorem exists_taken {taken m total : Nat} {text : List Char} {after : After} (hm : m ≤ text.length)
    (hfirst : ∀ c ∈ text.take m, P c)
    (hsecond : ∃ k ≤ (text.drop m).length, (∀ c ∈ (text.drop m).take k, P c) ∧
      after (taken + m + k) ((text.drop m).drop k) = some total) :
    ∃ m ≤ text.length, (∀ c ∈ text.take m, P c) ∧ after (taken + m) (text.drop m) = some total := by
  obtain ⟨k, hk, honly, hafter⟩ := hsecond
  rw [List.length_drop] at hk
  rw [List.drop_drop, Nat.add_assoc] at hafter
  refine ⟨m + k, by omega, ?_, hafter⟩
  rw [List.take_add]
  exact List.forall_mem_append.mpr ⟨hfirst, honly⟩

theorem takesOnly_repeatMany {round : Nat → List Char → After → Option Nat} (hround : TakesOnly P round) (n : Nat) :
    TakesOnly P (repeatMany round n) := by
  induction n with
  | zero => exact fun _ _ _ _ h => ⟨0, Nat.zero_le _, by simp, h⟩
  | succ n ih =>
    intro taken text after total h
    simp only [repeatMany] at h
    split at h
    · rename_i hsome
      cases h
      obtain ⟨m, hm, honly, hafter⟩ := hround hsome
      exact exists_taken hm honly (ih hafter)
    · exact ⟨0, Nat.zero_le _, by simp, h⟩

theorem takesOnly_repeatFew {round : Nat → List Char → After → Option Nat} (hround : TakesOnly P round) (n : Nat) :
    TakesOnly P (repeatFew round n) := by
  induction n with
  | zero => exact fun _ _ _ _ h => ⟨0, Nat.zero_le _, by simp, h⟩
  | succ n ih =>
    intro taken text after total h
    simp only [repeatFew] at h
    split at h
    · rename_i hsome
      cases h
      exact ⟨0, Nat.zero_le _, by simp, hsome⟩
    · obtain ⟨m, hm, honly, hafter⟩ := hround h
      exact exists_taken hm honly (ih hafter)

/-- A pattern takes a part of the text, of characters that its tests accept, and what happens after it decides. -/
theorem takesOnly_run {p : Pattern} (hp : p.Accepts P) (limit : Nat) : TakesOnly P (p.run limit) := by
  induction p with
  | one test =>
    intro taken text after total h
    cases text with
    | nil => cases h
    | cons c rest =>
      simp only [run] at h
      split at h
      · rename_i hc
        exact ⟨1, by simp, by simpa using hp c hc, h⟩
      · cases h
  | seq first second ihFirst ihSecond =>
    intro taken text after total h
    obtain ⟨m, hm, honly, hafter⟩ := ihFirst hp.1 h
    exact exists_taken hm honly (ihSecond hp.2 hafter)
  | choice first second ihFirst ihSecond =>
    intro taken text after total h
    simp only [run] at h
    split at h
    · rename_i hsome
      cases h
      exact ihFirst hp.1 hsome
    · exact ihSecond hp.2 h
  | many body ih => exact takesOnly_repeatMany (ih hp) limit
  | few body ih => exact takesOnly_repeatFew (ih hp) limit

theorem takes_iff {match? : Nat → List Char → After → Option Nat} : Takes match? ↔ TakesOnly (fun _ => True) match? := by
  simp [Takes, TakesOnly]

theorem takes_repeatMany {round : Nat → List Char → After → Option Nat} (hround : Takes round) (n : Nat) :
    Takes (repeatMany round n) :=
  takes_iff.mpr (takesOnly_repeatMany (takes_iff.mp hround) n)

theorem takes_repeatFew {round : Nat → List Char → After → Option Nat} (hround : Takes round) (n : Nat) :
    Takes (repeatFew round n) :=
  takes_iff.mpr (takesOnly_repeatFew (takes_iff.mp hround) n)

theorem accepts_true (p : Pattern) : p.Accepts (fun _ => True) := by
  induction p <;> simp_all [Accepts]

/-- A pattern takes a part of the text, and what happens after it decides. -/
theorem takes_run (p : Pattern) (limit : Nat) : Takes (p.run limit) :=
  takes_iff.mpr (takesOnly_run p.accepts_true limit)

theorem run_word (cs : List Char) (p : Pattern) (limit taken : Nat) (text : List Char) (after : After) :
    (word cs p).run limit taken text after =
      if cs.isPrefixOf text then p.run limit (taken + cs.length) (text.drop cs.length) after else none := by
  induction cs generalizing taken text with
  | nil => simp [word]
  | cons c cs ih =>
    cases text with
    | nil => simp [word, char, run]
    | cons d text =>
      by_cases hd : d = c
      · subst hd
        simp only [word, char, run, beq_self_eq_true, if_true, ih, List.isPrefixOf, Bool.true_and, List.length_cons,
          List.drop_succ_cons]
        rw [Nat.add_assoc, Nat.add_comm 1]
      · simp [word, char, run, List.isPrefixOf, hd, Ne.symm hd]

end Dartlet.Text.Pattern

namespace Dartlet.Syntax.Lexer

open Dartlet.Text Dartlet.Text.Pattern

/-! ### Closing marks -/

/-- A text is closed by a mark after so many characters: at the first place where the mark stands, of those that are
reached by taking what `step` says, over and over. -/
inductive Closes (step : List Char → Nat) (mark : List Char) : List Char → Nat → Prop
  | here {text : List Char} : mark <+: text → Closes step mark text mark.length
  | later {text : List Char} {n : Nat} : ¬ mark <+: text → step text ≠ 0 → Closes step mark (text.drop (step text)) n →
    Closes step mark text (step text + n)

/-- What is taken at a place depends on no more than one character after it. -/
def IsLocal (step : List Char → Nat) : Prop :=
  ∀ ⦃text n rest⦄, step text ≠ 0 → step text < n → n ≤ text.length → step (text.take n ++ rest) = step text

namespace Closes

variable {step : List Char → Nat} {mark text : List Char} {n : Nat}

theorem mark_le (h : Closes step mark text n) : mark.length ≤ n := by
  induction h with
  | here => exact Nat.le_refl _
  | later _ _ _ ih => omega

theorem le_length (hmark : mark ≠ []) (h : Closes step mark text n) : n ≤ text.length := by
  induction h with
  | here hprefix => exact hprefix.length_le
  | later _ _ hlater ih =>
    have hpos := List.length_pos_iff.mpr hmark
    have hle := hlater.mark_le
    rw [List.length_drop] at ih
    omega

/-- Whatever follows the mark, the text is closed by it. -/
theorem cut (hstep : IsLocal step) (hmark : mark ≠ []) (h : Closes step mark text n) (rest : List Char) :
    Closes step mark (text.take n ++ rest) n := by
  induction h with
  | @here text hprefix =>
    refine .here ?_
    rw [← List.prefix_iff_eq_take.mp hprefix]
    exact List.prefix_append _ _
  | @later text n hnot hne hlater ih =>
    have hpos := List.length_pos_iff.mpr hmark
    have hle := hlater.mark_le
    have hlength := (Closes.later hnot hne hlater).le_length hmark
    have htake : (text.take (step text + n)).length = step text + n := List.length_take_of_le hlength
    have hsame : step (text.take (step text + n) ++ rest) = step text := hstep hne (by omega) hlength
    have hnot' : ¬ mark <+: text.take (step text + n) ++ rest := fun hprefix =>
      hnot ((List.prefix_of_prefix_length_le hprefix (List.prefix_append _ _) (by omega)).trans (List.take_prefix _ _))
    have hdrop : (text.take (step text + n) ++ rest).drop (step text) = (text.drop (step text)).take n ++ rest := by
      rw [List.drop_append_of_le_length (by omega), List.drop_take, Nat.add_sub_cancel_left]
    have hmore := Closes.later hnot' (hsame ▸ hne) (by rwa [hsame, hdrop])
    rwa [hsame] at hmore

end Closes

/-! ### Repetitions up to a mark -/

/-- A round takes what `step` says from a text, if that is anything. -/
def Rounds (round : Nat → List Char → After → Option Nat) (step : List Char → Nat) (text : List Char) : Prop :=
  ∀ taken after, round taken text after =
    if step text = 0 then none else after (taken + step text) (text.drop (step text))

section

variable {round : Nat → List Char → After → Option Nat} {step : List Char → Nat} {mark : List Char} {after : After}
  (hafter : ∀ taken text, after taken text = if mark.isPrefixOf text then some (taken + mark.length) else none)

include hafter

theorem closes_of_after {taken total : Nat} {text : List Char} (h : after taken text = some total) :
    Closes step mark text mark.length ∧ total = taken + mark.length := by
  rw [hafter] at h
  split at h
  · rename_i hprefix
    exact ⟨.here (List.isPrefixOf_iff_prefix.mp hprefix), (Option.some.inj h).symm⟩
  · cases h

theorem after_of_not_prefix {taken : Nat} {text : List Char} (h : ¬ mark <+: text) : after taken text = none := by
  rw [hafter, if_neg (by rwa [List.isPrefixOf_iff_prefix])]

theorem after_prefixed {taken : Nat} {text : List Char} (h : mark <+: text) :
    after taken text = some (taken + mark.length) := by
  rw [hafter, if_pos (by rwa [List.isPrefixOf_iff_prefix])]

/-- As few rounds as possible end at the first mark. -/
theorem closes_of_repeatFew (hround : ∀ text, Rounds round step text) {limit taken total : Nat} {text : List Char}
    (h : repeatFew round limit taken text after = some total) : ∃ n, Closes step mark text n ∧ total = taken + n := by
  induction limit generalizing taken text with
  | zero => exact ⟨_, closes_of_after hafter h⟩
  | succ limit ih =>
    simp only [repeatFew] at h
    split at h
    · rename_i hsome
      cases h
      exact ⟨_, closes_of_after hafter hsome⟩
    · rename_i hnone
      have hnot : ¬ mark <+: text := fun hprefix => by simp [after_prefixed hafter hprefix] at hnone
      rw [hround text] at h
      split at h
      · cases h
      · rename_i hne
        obtain ⟨n, hn, rfl⟩ := ih h
        exact ⟨_, .later hnot hne hn, by omega⟩

theorem repeatFew_of_closes (hround : ∀ text, Rounds round step text) {limit taken n : Nat}
    {text : List Char} (h : Closes step mark text n) (hlimit : n ≤ limit) :
    repeatFew round limit taken text after = some (taken + n) := by
  induction h generalizing taken limit with
  | here hprefix => 
    cases limit with
    | zero => exact after_prefixed hafter hprefix
    | succ limit => simp only [repeatFew, after_prefixed hafter hprefix]
  | @later text n hnot hne _ ih =>
    obtain ⟨limit, rfl⟩ : ∃ k, limit = k + 1 := ⟨limit - 1, by omega⟩
    simp only [repeatFew, after_of_not_prefix hafter hnot, hround text taken, if_neg hne]
    rw [ih (by omega), Nat.add_assoc]

variable {bad : List Char → Prop} (hround : ∀ text, ¬ bad text → Rounds round step text) (hmark : mark ≠ [])
  (hstop : ∀ text, mark <+: text → ¬ bad text ∧ step text = 0)

include hround hmark hstop

/-- As many rounds as possible end at the first mark, if no round can begin there, and if there is no place before it
where a round may take something else. -/
theorem closes_of_repeatMany (htakes : Takes round)
    (hbad : ∀ ⦃taken text after total⦄, bad text → round taken text after = some total →
      (∀ taken text, after taken text = some total → taken < total) → taken + 2 ≤ total)
    {limit taken total : Nat} {text : List Char} (h : repeatMany round limit taken text after = some total)
    (hplain : ∀ k, taken + k + 2 ≤ total → ¬ bad (text.drop k)) : ∃ n, Closes step mark text n ∧ total = taken + n := by
  induction limit generalizing taken text with
  | zero => exact ⟨_, closes_of_after hafter h⟩
  | succ limit ih =>
    simp only [repeatMany] at h
    split at h
    · rename_i hsome
      cases h
      have hlater (taken : Nat) (text : List Char) (h : repeatMany round limit taken text after = some total) :
          taken < total := by
        obtain ⟨m, -, hm⟩ := takes_repeatMany htakes limit h
        have hpos := List.length_pos_iff.mpr hmark
        obtain ⟨-, htotal⟩ : Closes step mark _ _ ∧ total = _ := closes_of_after hafter hm
        omega
      have hgood : ¬ bad text := fun hb => hplain 0 (hbad hb hsome hlater) (by simpa using hb)
      rw [hround text hgood] at hsome
      split at hsome
      · cases hsome
      · rename_i hne
        obtain ⟨n, hn, rfl⟩ := ih hsome (fun k hk => by rw [List.drop_drop]; exact hplain _ (by omega))
        exact ⟨_, .later (fun hprefix => hne (hstop text hprefix).2) hne hn, by omega⟩
    · exact ⟨_, closes_of_after hafter h⟩

theorem repeatMany_of_closes {limit taken n : Nat} {text : List Char} (h : Closes step mark text n) (hlimit : n ≤ limit)
    (hplain : ∀ k, k + 2 ≤ n → ¬ bad (text.drop k)) : repeatMany round limit taken text after = some (taken + n) := by
  induction h generalizing taken limit with
  | @here text hprefix =>
    cases limit with
    | zero => exact after_prefixed hafter hprefix
    | succ limit =>
      obtain ⟨hgood, hstep⟩ := hstop text hprefix
      simp only [repeatMany, hround text hgood taken, if_pos hstep, after_prefixed hafter hprefix]
  | @later text n hnot hne hlater ih =>
    obtain ⟨limit, rfl⟩ : ∃ k, limit = k + 1 := ⟨limit - 1, by omega⟩
    have hpos := List.length_pos_iff.mpr hmark
    have hle := hlater.mark_le
    have hgood : ¬ bad text := by simpa using hplain 0 (by omega)
    have hrest : repeatMany round limit (taken + step text) (text.drop (step text)) after = some (taken + step text + n) :=
      ih (by omega) (fun k hk => by rw [List.drop_drop]; exact hplain _ (by omega))
    simp only [repeatMany, hround text hgood taken, if_neg hne, hrest]
    rw [Nat.add_assoc]

end

/-! ### The forms of string literals -/

/-- Any character. -/
def anyStep : List Char → Nat
  | [] => 0
  | _ :: _ => 1

/-- A character, or a backslash with what it hides. -/
def hiddenStep : List Char → Nat
  | [] | ['\\'] => 0
  | '\\' :: _ :: _ => 2
  | _ :: _ => 1

/-- A character of a raw literal on one line. -/
def rawStep (quote : Char) : List Char → Nat
  | [] => 0
  | c :: _ => if c == quote || c == '\n' then 0 else 1

/-- A character of a literal on one line, or a backslash with what it hides. -/
def lineStep (quote : Char) : List Char → Nat
  | [] | ['\\'] => 0
  | '\\' :: c :: _ => if c == '\n' then 0 else 2
  | c :: _ => if c == quote || c == '\n' then 0 else 1

theorem isLocal_of_two {step : List Char → Nat} (h : ∀ c d more more', step (c :: d :: more) = step (c :: d :: more')) :
    IsLocal step := by
  intro text n rest hne hn hlength
  obtain ⟨n, rfl⟩ : ∃ k, n = k + 2 := ⟨n - 2, by omega⟩
  match text, hlength with
  | c :: d :: text, _ => exact h c d _ _

/-- What ends a whole match: the number of characters taken. -/
abbrev whole : After := fun taken _ => some taken

theorem run_word_char (cs : List Char) (c : Char) (limit taken : Nat) (text : List Char) :
    (word cs (char c)).run limit taken text whole =
      if (cs ++ [c]).isPrefixOf text then some (taken + (cs ++ [c]).length) else none := by
  rw [run_word]
  induction cs generalizing taken text with
  | nil =>
    cases text with
    | nil => rfl
    | cons d text =>
      by_cases hd : d = c
      · simp [char, run, List.isPrefixOf, hd]
      · simp [char, run, List.isPrefixOf, hd, Ne.symm hd]
  | cons c' cs ih =>
    cases text with
    | nil => rfl
    | cons d text =>
      have h := ih (taken + 1) text
      simp only [List.isPrefixOf, List.length_cons, List.drop_succ_cons, List.cons_append, Bool.and_eq_true]
      by_cases hd : (c' == d) = true
      · simp only [hd, true_and]
        rw [Nat.add_comm cs.length 1, ← Nat.add_assoc, h, Nat.add_comm (cs ++ [c]).length 1, ← Nat.add_assoc]
      · simp [hd]

/-- The beginning of an embedded expression. -/
def IsEmbedding (text : List Char) : Prop := ['$', '{'] <+: text

/-- A pattern matches up to the first mark, if it embeds no expression before. -/
structure Encloses (body : Pattern) (step : List Char → Nat) (mark : List Char) (embeds : Bool) : Prop where
  isLocal : IsLocal step
  ne_nil : mark ≠ []
  closes : ∀ {limit taken total text}, body.run limit taken text whole = some total →
    (embeds = true → ∀ k, taken + k + 2 ≤ total → ¬ IsEmbedding (text.drop k)) → ∃ n, Closes step mark text n ∧ total = taken + n
  run : ∀ {limit taken n text}, Closes step mark text n → n ≤ limit →
    (embeds = true → ∀ k, k + 2 ≤ n → ¬ IsEmbedding (text.drop k)) → body.run limit taken text whole = some (taken + n)

theorem encloses_few {unit : Pattern} {step : List Char → Nat} (hstep : IsLocal step)
    (hround : ∀ limit text, Rounds (unit.run limit) step text) (cs : List Char) (c : Char) :
    Encloses (.seq (.few unit) (word cs (char c))) step (cs ++ [c]) false where
  isLocal := hstep
  ne_nil := by simp
  closes h _ := closes_of_repeatFew (run_word_char cs c _) (hround _) h
  run h hlimit _ := repeatFew_of_closes (run_word_char cs c _) (hround _) h hlimit

theorem encloses_rawTripleBody (quote : Char) : Encloses (rawTripleBody quote) anyStep [quote, quote, quote] false := by
  refine encloses_few (isLocal_of_two (fun _ _ _ _ => rfl)) (fun limit text taken after => ?_) [quote, quote] quote
  cases text <;> rfl

theorem encloses_tripleBody (quote : Char) : Encloses (tripleBody quote) hiddenStep [quote, quote, quote] false := by
  refine encloses_few (isLocal_of_two (fun c d _ _ => ?_)) (fun limit text taken after => ?_) [quote, quote] quote
  · by_cases hc : c = '\\' <;> simp [hiddenStep, hc]
  · match text with
    | [] => rfl
    | [c] =>
      by_cases hc : c = '\\' <;> simp [hiddenStep, hc, run, noneOf, char, any]
      split <;> simp_all
    | c :: d :: text =>
      by_cases hc : c = '\\' <;> simp [hiddenStep, hc, run, noneOf, char, any]
      split <;> simp_all

theorem encloses_many {unit : Pattern} {step : List Char → Nat} (hstep : IsLocal step) {quote : Char} {embeds : Bool}
    (hround : ∀ limit text, ¬ (embeds = true ∧ IsEmbedding text) → Rounds (unit.run limit) step text)
    (hstop : ∀ text, step (quote :: text) = 0) (hquote : embeds = true → quote ≠ '$')
    (hbad : ∀ ⦃limit taken text after total⦄, embeds = true ∧ IsEmbedding text → unit.run limit taken text after = some total →
      (∀ taken text, after taken text = some total → taken < total) → taken + 2 ≤ total) :
    Encloses (.seq (.many unit) (char quote)) step [quote] embeds := by
  have hafter (limit taken : Nat) (text : List Char) : (char quote).run limit taken text whole =
      if [quote].isPrefixOf text then some (taken + [quote].length) else none :=
    run_word_char [] quote limit taken text
  have hmark : [quote] ≠ [] := by simp
  have hends (text : List Char) (h : [quote] <+: text) : ¬ (embeds = true ∧ IsEmbedding text) ∧ step text = 0 := by
    obtain ⟨text, rfl⟩ := h
    refine ⟨fun hembeds => hquote hembeds.1 ?_, hstop text⟩
    obtain ⟨more, hmore⟩ := hembeds.2
    exact (List.cons.inj hmore).1.symm
  exact {
    isLocal := hstep
    ne_nil := hmark
    closes := fun h hplain => closes_of_repeatMany (hafter _) (hround _) hmark hends (takes_run unit _) (@hbad _) h
      (fun k hk hembeds => hplain hembeds.1 k hk hembeds.2)
    run := fun h hlimit hplain => repeatMany_of_closes (hafter _) (hround _) hmark hends h hlimit
      (fun k hk hembeds => hplain hembeds.1 k hk hembeds.2) }

theorem encloses_rawBody (quote : Char) : Encloses (rawBody quote) (rawStep quote) [quote] false := by
  refine encloses_many (isLocal_of_two (fun _ _ _ _ => rfl)) (fun limit text _ taken after => ?_) (by simp [rawStep])
    (by simp) (by simp)
  cases text with
  | nil => rfl
  | cons c text => by_cases hquote : c = quote <;> by_cases hend : c = '\n' <;> simp [rawStep, run, noneOf, hquote, hend]

/-- What stands for itself in a literal on one line, an escape, or what begins an embedded expression. -/
def lineUnit (quote : Char) (embedded : Pattern) : Pattern :=
  .firstOf [.noneOf [quote, '\\', '\n', '$'], .seq (.char '\\') (.noneOf ['\n']), .word ['$', '{'] embedded] (.char '$')

section

variable {quote : Char} {embedded : Pattern} {limit : Nat} {text : List Char}

theorem rounds_lineUnit (hquote : quote ≠ '$' ∧ quote ≠ '\\') (hnone : ¬ IsEmbedding text) :
    Rounds ((lineUnit quote embedded).run limit) (lineStep quote) text := by
  intro taken after
  have hword : (word ['$', '{'] embedded).run limit taken text after = none := by
    rw [run_word, if_neg (by rwa [List.isPrefixOf_iff_prefix])]
  simp only [lineUnit, firstOf, run, hword]
  cases text with
  | nil => rfl
  | cons c text =>
    by_cases hc : c = '\\'
    · subst hc
      cases text with
      | nil => simp [lineStep, run, noneOf, char]
      | cons d text =>
        by_cases hd : d = '\n' <;> simp [lineStep, run, noneOf, char, hd]
        split <;> simp_all
    · by_cases hdollar : c = '$'
      · subst hdollar
        simp [lineStep, run, noneOf, char, hquote.1.symm]
      · by_cases hend : c = quote
        · simp [lineStep, run, noneOf, char, hend, hquote.1, hquote.2]
        · by_cases hline : c = '\n'
          · simp [lineStep, run, noneOf, char, hline]
          · simp [lineStep, run, noneOf, char, hc, hdollar, hend, hline]
            split <;> simp_all

theorem lt_of_lineUnit {taken total : Nat} {after : After} (hembeds : IsEmbedding text)
    (h : (lineUnit quote embedded).run limit taken text after = some total)
    (hlater : ∀ taken text, after taken text = some total → taken < total) : taken + 2 ≤ total := by
  obtain ⟨more, rfl⟩ := hembeds
  have hword (h : (word ['$', '{'] embedded).run limit taken (['$', '{'] ++ more) after = some total) :
      taken + 2 ≤ total := by
    rw [run_word, if_pos (by simp [List.isPrefixOf])] at h
    obtain ⟨m, -, hm⟩ := takes_run _ _ h
    have := hlater _ _ hm
    simp only [List.length_cons, List.length_nil] at this
    omega
  have hdollar (h : after (taken + 1) ('{' :: more) = some total) : taken + 2 ≤ total := hlater _ _ h
  simp only [lineUnit, firstOf, run, noneOf, char, List.cons_append, List.nil_append, List.contains_cons,
    beq_self_eq_true, Bool.or_true, Bool.true_or, Bool.not_true, Bool.false_eq_true, if_true, if_false,
    show ('$' == '\\') = false from rfl] at h
  split at h
  · rename_i hsome
    cases h
    exact hword hsome
  · exact hdollar h

end

theorem isQuote_iff {c : Char} : isQuote c = true ↔ c = '"' ∨ c = '\'' := by simp [isQuote]

/-- A quote neither begins an embedded expression nor hides anything. -/
theorem not_special_of_isQuote {quote : Char} (hquote : isQuote quote = true) : quote ≠ '$' ∧ quote ≠ '\\' := by
  rcases isQuote_iff.mp hquote with rfl | rfl <;> decide

theorem encloses_quotedBody {quote : Char} (hquote : isQuote quote = true) :
    Encloses (quotedBody quote) (lineStep quote) [quote] true := by
  have hplain := not_special_of_isQuote hquote
  refine encloses_many (isLocal_of_two (fun c d _ _ => ?_))
    (fun limit text hnone => rounds_lineUnit hplain (by simpa using hnone)) (fun text => ?_) (fun _ => hplain.1)
    (fun _ _ _ _ _ hembeds h hlater => lt_of_lineUnit hembeds.2 h hlater)
  · by_cases hc : c = '\\' <;> simp [lineStep, hc]
  · cases text <;> simp [lineStep, hplain.2]

/-- A form of string literals: what it begins with, what follows up to its end, and the mark there. -/
structure LiteralForm where
  opening : List Char
  body : Pattern
  step : List Char → Nat
  mark : List Char
  embeds : Bool

/-- The forms of string literals, in the order in which they are tried. -/
def literalForms : List LiteralForm := [
  ⟨['r', '"', '"', '"'], rawTripleBody '"', anyStep, ['"', '"', '"'], false⟩,
  ⟨['r', '\'', '\'', '\''], rawTripleBody '\'', anyStep, ['\'', '\'', '\''], false⟩,
  ⟨['"', '"', '"'], tripleBody '"', hiddenStep, ['"', '"', '"'], false⟩,
  ⟨['\'', '\'', '\''], tripleBody '\'', hiddenStep, ['\'', '\'', '\''], false⟩,
  ⟨['r', '"'], rawBody '"', rawStep '"', ['"'], false⟩,
  ⟨['r', '\''], rawBody '\'', rawStep '\'', ['\''], false⟩,
  ⟨['"'], quotedBody '"', lineStep '"', ['"'], true⟩,
  ⟨['\''], quotedBody '\'', lineStep '\'', ['\''], true⟩]

theorem encloses_literalForms : ∀ f ∈ literalForms, Encloses f.body f.step f.mark f.embeds := by
  simp only [literalForms, List.forall_mem_cons, List.not_mem_nil, false_imp_iff, implies_true, and_true]
  exact ⟨encloses_rawTripleBody _, encloses_rawTripleBody _, encloses_tripleBody _, encloses_tripleBody _,
    encloses_rawBody _, encloses_rawBody _, encloses_quotedBody rfl, encloses_quotedBody rfl⟩

theorem run_firstOf (ps : List Pattern) (last : Pattern) (limit taken : Nat) (text : List Char) (after : After) :
    (firstOf ps last).run limit taken text after =
      (ps ++ [last]).findSome? (fun p => p.run limit taken text after) := by
  induction ps with
  | nil =>
    simp only [firstOf, List.nil_append, List.findSome?_cons, List.findSome?_nil]
    split <;> simp_all
  | cons p ps ih =>
    simp only [firstOf, run, ih, List.cons_append, List.findSome?_cons]
    split <;> simp_all

/-- A literal has the first form that matches. -/
theorem matchLength?_stringLiteral (text : List Char) : stringLiteral.matchLength? text =
    literalForms.findSome? (fun f => (word f.opening f.body).run text.length 0 text whole) := by
  rw [matchLength?, stringLiteral, run_firstOf]
  rfl

/-- Whether a literal that is not raw is written on one line: it has one quote at its beginning, not three. -/
def isOneLine : List Char → Bool
  | [] => false
  | c :: text => isQuote c && !([c, c].isPrefixOf text)

/-- A literal on one line does not begin with three quotes, nor does what follows its end. -/
theorem Closes.not_prefix {step : List Char → Nat} {quote : Char} {text rest : List Char} {n : Nat}
    (h : Closes step [quote] text n) (hrest : quote ∉ rest.head?) : ¬ [quote, quote] <+: text.take n ++ rest := by
  rintro ⟨more, hmore⟩
  cases h with
  | here hprefix =>
    obtain ⟨text, rfl⟩ := hprefix
    cases rest with
    | nil => simp at hmore
    | cons d rest => exact hrest (by simpa using congrArg (fun text => (text.drop 1).head?) hmore.symm)
  | @later _ n hnot hne hlater =>
    have hlength : step text + n ≤ text.length := Closes.le_length (by simp) (.later hnot hne hlater)
    obtain ⟨k, hk⟩ : ∃ k, step text + n = k + 1 := ⟨step text + n - 1, by omega⟩
    cases text with
    | nil => simp at hlength hne; omega
    | cons c text =>
      rw [hk] at hmore
      have hfirst : quote = c := (List.cons.inj hmore).1
      exact hnot ⟨text, by rw [hfirst]; rfl⟩

/-- No form that is tried before the one of a literal matches in its place. -/
theorem earlier_literalForms : literalForms.Pairwise (fun g f =>
    ∀ tail, g.opening <+: f.opening ++ tail → ∃ quote, isQuote quote = true ∧ f.mark = [quote] ∧ [quote, quote] <+: tail) := by
  simp only [literalForms, List.pairwise_cons, List.forall_mem_cons, List.not_mem_nil, false_imp_iff, implies_true, and_true,
    List.Pairwise.nil]
  simp [List.cons_prefix_cons, isQuote]

/-- A literal that may embed expressions has one quote at each end. -/
theorem opening_of_embeds : ∀ f ∈ literalForms, f.embeds = true →
    ∃ quote, isQuote quote = true ∧ f.opening = [quote] ∧ f.mark = [quote] := by
  simp [literalForms, isQuote]

theorem opening_begins : ∀ f ∈ literalForms, ∃ c cs, f.opening = c :: cs ∧ isSpace c = false := by
  simp only [literalForms, List.forall_mem_cons, List.not_mem_nil, false_imp_iff, implies_true, and_true]
  and_intros <;> exact ⟨_, _, rfl, by decide⟩

theorem isInfix_of_isEmbedding (text rest : List Char) (k : Nat) (hk : k + 2 ≤ text.length)
    (h : IsEmbedding ((text ++ rest).drop k)) : ['$', '{'] <:+: text := by
  rw [IsEmbedding, List.drop_append_of_le_length (by omega)] at h
  have hprefix : ['$', '{'] <+: text.drop k :=
    List.prefix_of_prefix_length_le h (List.prefix_append _ _) (by rw [List.length_drop]; exact Nat.le_sub_of_add_le' hk)
  exact hprefix.isInfix.trans (List.drop_suffix _ _).isInfix

end Dartlet.Syntax.Lexer

namespace Dartlet.Syntax

open Lexer Dartlet.Text Dartlet.Text.Pattern

/-- A literal that may embed expressions is written on one line: after two quotes it is at its end. -/
theorem isOneLine_of_embeds {f : LiteralForm} (hf : f ∈ literalForms) (hembeds : f.embeds = true) {inner : List Char}
    {limit n : Nat} (hlimit : 1 ≤ limit) (h : f.body.run limit f.opening.length inner whole = some n) :
    isOneLine ((f.opening ++ inner).take n) = true := by
  obtain ⟨quote, hquote, hopening, hmark⟩ := opening_of_embeds f hf hembeds
  rw [hopening] at h ⊢
  obtain ⟨n, rfl⟩ : ∃ k, n = k + 1 := by
    obtain ⟨m, -, hm⟩ := takes_run _ _ h
    exact ⟨m, by simpa [Nat.add_comm] using (Option.some.inj hm).symm⟩
  have hthree : ¬ [quote, quote] <+: inner.take n := by
    intro hprefix
    have hlength := Nat.le_trans hprefix.length_le (List.length_take_le n inner)
    have hfirst : f.mark <+: inner := by
      rw [hmark]
      exact ((List.prefix_append [quote] [quote]).trans hprefix).trans (List.take_prefix _ _)
    have hone : f.body.run limit 1 inner whole = some (1 + f.mark.length) :=
      (encloses_literalForms f hf).run (.here hfirst) (by simpa [hmark] using hlimit) (fun _ k hk => by simp [hmark] at hk)
    have htwo : 1 + f.mark.length = n + 1 := Option.some.inj (hone.symm.trans h)
    simp only [hmark, List.length_cons, List.length_nil] at htwo hlength
    omega
  simpa [isOneLine, hquote, ← List.isPrefixOf_iff_prefix] using hthree

/-- A string literal is one wherever the text ends or a blank follows, unless it stands on one line and embeds an
expression. -/
theorem Word.separable_literal {text : List Char} {n : Nat} (h : stringLiteral.matchLength? text = some n)
    (hplain : isOneLine (text.take n) = true → ¬ ['$', '{'] <:+: text.take n) :
    ∃ s more, text = String.toList s ++ more ∧ n = s.toList.length ∧ Word.Separable ⟨.string, s⟩ := by
  rw [matchLength?_stringLiteral] at h
  obtain ⟨before, f, after, hforms, hf, -⟩ := List.findSome?_eq_some_iff.mp h
  have hmem : f ∈ literalForms := by simp [hforms]
  have hencloses := encloses_literalForms f hmem
  obtain ⟨first, others, hopening, hfirst⟩ := opening_begins f hmem
  rw [run_word] at hf
  split at hf
  · rename_i hprefix
    obtain ⟨inner, rfl⟩ := List.isPrefixOf_iff_prefix.mp hprefix
    rw [List.drop_left, Nat.zero_add] at hf
    have hsteady : f.embeds = true → ¬ ['$', '{'] <:+: (f.opening ++ inner).take n := fun hembeds =>
      hplain (isOneLine_of_embeds hmem hembeds (by simp [hopening]) hf)
    have hlength : n ≤ (f.opening ++ inner).length := by
      obtain ⟨m, hm, htotal⟩ := takes_run _ _ hf
      have := Option.some.inj htotal
      rw [List.length_append]
      omega
    -- the literal without what follows it
    obtain ⟨k, hcloses, rfl⟩ := hencloses.closes hf (fun hembeds k hk hembedding => by
      refine hsteady hembeds (isInfix_of_isEmbedding _ ((f.opening ++ inner).drop n) (f.opening.length + k) ?_ ?_)
      · rw [List.length_take_of_le hlength]
        exact hk
      · rwa [List.take_append_drop, ← List.drop_drop, List.drop_left])
    rw [List.take_length_add_append] at hsteady
    have hk : (inner.take k).length = k := List.length_take_of_le (hcloses.le_length hencloses.ne_nil)
    refine ⟨String.ofList (f.opening ++ inner.take k), inner.drop k, ?_, ?_, ⟨first, others ++ inner.take k, ?_, hfirst⟩,
      fun {rest} hrest => ?_⟩
    · rw [String.toList_ofList, List.append_assoc, List.take_append_drop]
    · rw [String.toList_ofList, List.length_append, hk]
    · rw [String.toList_ofList, hopening]
      rfl
    · have hmatch : stringLiteral.matchLength? (f.opening ++ (inner.take k ++ rest)) = some (f.opening.length + k) := by
        rw [matchLength?_stringLiteral]
        refine List.findSome?_eq_some_iff.mpr ⟨before, f, after, hforms, ?_, fun g hg => ?_⟩
        · rw [run_word, if_pos (List.isPrefixOf_iff_prefix.mpr (List.prefix_append _ _)), List.drop_left, Nat.zero_add]
          refine hencloses.run (hcloses.cut hencloses.isLocal hencloses.ne_nil rest) ?_ (fun hembeds m hm hembedding => ?_)
          · simp only [List.length_append, hk]
            omega
          · refine hsteady hembeds (isInfix_of_isEmbedding _ rest (f.opening.length + m) ?_ ?_)
            · rw [List.length_append, hk]
              omega
            · rwa [List.append_assoc, ← List.drop_drop, List.drop_left]
        · rw [run_word, if_neg]
          rw [List.isPrefixOf_iff_prefix]
          intro hearlier
          have hpair := earlier_literalForms
          rw [hforms, List.pairwise_append] at hpair
          obtain ⟨quote, hquote, hmark, htwo⟩ := hpair.2.2 g hg f List.mem_cons_self _ hearlier
          rw [hmark] at hcloses
          refine hcloses.not_prefix (fun hrest' => ?_) htwo
          exact absurd hquote (by simp [eq_false_of_isSpace isQuote (by simp) quote (hrest quote hrest')])
      simp only [String.toList_ofList, List.append_assoc, next?, hmatch, List.length_append, hk]
  · cases hf

end Dartlet.Syntax
