import Dartlet.Syntax.Lexer

/-!
# Lexemes before a break

Numbers, words and symbols end where they end: what makes a text fall into them looks no further than
the end of the text or the next blank.
-/

namespace Dartlet.Syntax

open Dartlet.Text

/-- Nothing, or a text that begins with a blank. -/
def IsBreak (rest : List Char) : Prop := ∀ c ∈ rest.head?, Lexer.isSpace c = true

/-! ### Characters -/

theorem isBasicDigit_iff {c : Char} : c.isDigit = true ↔ 48 ≤ c.toNat ∧ c.toNat ≤ 57 := by
  simp only [Char.isDigit, Bool.and_eq_true, decide_eq_true_eq, ge_iff_le, UInt32.le_iff_toNat_le]
  exact Iff.rfl

/-- Before the digits of other scripts only the ten basic digits are digits. -/
theorem digitValue?_of_lt {c : Char} (h : c.toNat < 0x660) :
    digitValue? c = if 48 ≤ c.toNat ∧ c.toNat ≤ 57 then some (c.toNat - 48) else none := by
  have htail : (digitZeros.drop 1).find? (fun nought => nought ≤ c.toNat && c.toNat ≤ nought + 9) = none := by
    have hlarge : ∀ nought ∈ digitZeros.drop 1, 0x660 ≤ nought := by decide
    refine List.find?_eq_none.mpr (fun nought hn hc => ?_)
    have := hlarge nought hn
    simp only [Bool.and_eq_true, decide_eq_true_eq] at hc
    omega
  have hzeros : digitZeros = 48 :: digitZeros.drop 1 := rfl
  rw [digitValue?, hzeros, List.find?_cons, htail]
  by_cases hc : 48 ≤ c.toNat ∧ c.toNat ≤ 57
  · simp [hc]
  · have hnot : (decide (48 ≤ c.toNat) && decide (c.toNat ≤ 48 + 9)) = false := by simpa using hc
    rw [hnot, if_neg hc]

theorem isDigit_iff_of_lt {c : Char} (h : c.toNat < 0x660) :
    isDigit c = true ↔ 48 ≤ c.toNat ∧ c.toNat ≤ 57 := by
  rw [isDigit, digitValue?_of_lt h]
  split <;> simp_all

theorem isDigit_of_isBasicDigit {c : Char} (h : c.isDigit = true) : isDigit c = true := by
  have hc := isBasicDigit_iff.mp h
  exact (isDigit_iff_of_lt (by omega)).mpr hc

theorem isDigit_of_mem_toDigits {n : Nat} {c : Char} (h : c ∈ Nat.toDigits 10 n) : isDigit c = true :=
  isDigit_of_isBasicDigit (Nat.isDigit_of_mem_toDigits (by omega) (by omega) h)

namespace Lexer

theorem isWordStart_bounds {c : Char} (h : isWordStart c = true) :
    c.toNat = 36 ∨ 65 ≤ c.toNat ∧ c.toNat ≤ 122 := by
  simp only [isWordStart, Bool.or_eq_true, Bool.and_eq_true, decide_eq_true_eq, beq_iff_eq, Char.le_def,
    UInt32.le_iff_toNat_le] at h
  rcases h with ((⟨h₁, h₂⟩ | ⟨h₁, h₂⟩) | rfl) | rfl
  · change 65 ≤ c.toNat at h₁
    change c.toNat ≤ 90 at h₂
    omega
  · change 97 ≤ c.toNat at h₁
    change c.toNat ≤ 122 at h₂
    omega
  · decide
  · decide

theorem isDigit_of_isWordStart {c : Char} (h : isWordStart c = true) : isDigit c = false := by
  have hc := isWordStart_bounds h
  rw [← Bool.not_eq_true, isDigit_iff_of_lt (by omega)]
  omega

theorem isSpace_of_lt {c : Char} (h : 32 < c.toNat) : isSpace c = false := by
  rw [← Bool.not_eq_true]
  intro hs
  simp only [isSpace, Bool.or_eq_true, beq_iff_eq] at hs
  rcases hs with (((rfl | rfl) | rfl) | rfl) | rfl <;> exact absurd h (by decide)

/-- Whether a character begins a string literal. -/
def isQuote (c : Char) : Bool := c == '"' || c == '\''

theorem isQuote_of_isWordRest {c : Char} (h : isWordRest c = true) : isQuote c = false := by
  rw [← Bool.not_eq_true]
  intro hq
  simp only [isQuote, Bool.or_eq_true, beq_iff_eq] at hq
  rcases hq with rfl | rfl <;> exact absurd h (by decide)

/-- A string literal begins with a quote, or with the letter that marks raw ones and then a quote. -/
theorem stringLiteral_eq_none {c : Char} {rest : List Char} (hc : isQuote c = false)
    (hrest : c = 'r' → ∀ d ∈ rest.head?, isQuote d = false) : stringLiteral.matchLength? (c :: rest) = none := by
  simp only [isQuote, Bool.or_eq_false_iff, beq_eq_false_iff_ne] at hc hrest
  by_cases hr : c = 'r'
  · cases rest with
    | nil => simp [stringLiteral, Pattern.matchLength?, Pattern.firstOf, Pattern.word, Pattern.char, Pattern.run, hc]
    | cons d rest =>
      have hd := hrest hr d rfl
      simp [stringLiteral, Pattern.matchLength?, Pattern.firstOf, Pattern.word, Pattern.char, Pattern.run, hc, hd]
  · simp [stringLiteral, Pattern.matchLength?, Pattern.firstOf, Pattern.word, Pattern.char, Pattern.run, hc, hr]

theorem commentLength?_eq_none {c : Char} (hc : c ≠ '/') (rest : List Char) : commentLength? (c :: rest) = none := by
  simp [commentLength?, hc]

/-- At a character that is no digit there is no number. -/
theorem next?_of_plain {c : Char} {rest : List Char} (hstring : stringLiteral.matchLength? (c :: rest) = none)
    (hdigit : isDigit c = false) (hcomment : commentLength? (c :: rest) = none) :
    next? (c :: rest) =
      if isWordStart c then
        some (some (Terminal.ofWord (String.ofList (c :: rest.takeWhile isWordRest))),
          (c :: rest.takeWhile isWordRest).length)
      else if isSpace c then some (none, 1 + (rest.takeWhile isSpace).length)
      else (symbol? (c :: rest)).map (fun (t, n) => (some t, n)) := by
  have hdouble : doubleLength? (c :: rest) = none := by simp [doubleLength?, hdigit]
  have hzero : c ≠ '0' := by
    rintro rfl
    exact absurd hdigit (by decide)
  have hinteger : integerLength? (c :: rest) = none := by simp [integerLength?, hdigit, hzero]
  simp only [next?, hstring, hdouble, hinteger, hcomment]

/-! ### Tokens before a break -/

/-- What is said of some characters is decided along their list, not for every character there is. -/
instance (priority := high) decidableForallMem {P : Char → Prop} [DecidablePred P] (cs : List Char) :
    Decidable (∀ c ∈ cs, P c) :=
  List.decidableBAll P cs

/-- The characters that separate tokens. -/
def blanks : List Char := [' ', '\t', '\x0c', '\r', '\n']

theorem isSpace_iff {c : Char} : isSpace c = true ↔ c ∈ blanks := by
  simp [isSpace, blanks, or_assoc]

/-- Blanks are in no number and in no word, and begin no literal. -/
theorem eq_false_of_isSpace :
    ∀ p ∈ [isDigit, isHexDigit, isWordRest, isQuote], ∀ c, isSpace c = true → p c = false := by
  have hblanks : ∀ p ∈ [isDigit, isHexDigit, isWordRest, isQuote], ∀ c ∈ blanks, p c = false := by decide
  exact fun p hp c hc => hblanks p hp c (isSpace_iff.mp hc)

theorem isDigit_of_isSpace {c : Char} (h : isSpace c = true) : isDigit c = false :=
  eq_false_of_isSpace isDigit (by simp) c h

/-- A text falls into characters of some kind and a rest that does not begin with one. -/
theorem exists_run (p : Char → Bool) (text : List Char) :
    ∃ cs rest, text = cs ++ rest ∧ (∀ c ∈ cs, p c = true) ∧ ∀ c ∈ rest.head?, p c = false := by
  refine ⟨text.takeWhile p, text.dropWhile p, List.takeWhile_append_dropWhile.symm, ?_, fun c hc => ?_⟩
  · exact List.all_eq_true.mp List.all_takeWhile
  · simpa [Option.mem_def.mp hc] using List.head?_dropWhile_not p text

theorem takeWhile_run {p : Char → Bool} {cs rest : List Char} (hcs : ∀ c ∈ cs, p c = true)
    (hrest : ∀ c ∈ rest.head?, p c = false) : (cs ++ rest).takeWhile p = cs := by
  rw [List.takeWhile_append_of_pos hcs]
  cases rest with
  | nil => simp
  | cons d rest => simp [hrest d rfl]

theorem dropWhile_run {p : Char → Bool} {cs rest : List Char} (hcs : ∀ c ∈ cs, p c = true)
    (hrest : ∀ c ∈ rest.head?, p c = false) : (cs ++ rest).dropWhile p = rest := by
  rw [List.dropWhile_append_of_pos hcs]
  cases rest with
  | nil => simp
  | cons d rest => simp [hrest d rfl]

theorem exponentLength_of_isBreak {rest : List Char} (hrest : IsBreak rest) : exponentLength rest = 0 := by
  cases rest with
  | nil => rfl
  | cons d rest =>
    have hblanks : ∀ d ∈ blanks, (d == 'e' || d == 'E') = false := by decide
    simp [exponentLength, hblanks d (isSpace_iff.mp (hrest d rfl))]

theorem not_isDigit_of_isBreak {rest : List Char} (hrest : IsBreak rest) : ∀ c ∈ rest.head?, isDigit c = false :=
  fun c hc => isDigit_of_isSpace (hrest c hc)

section

variable {mark sign : Char} {ds rest : List Char} (hmark : (mark == 'e' || mark == 'E') = true)
  (hds : ∀ c ∈ ds, isDigit c = true) (hrest : ∀ c ∈ rest.head?, isDigit c = false)

include hmark hds hrest

theorem exponentLength_signed (hsign : (sign == '+' || sign == '-') = true) :
    exponentLength (mark :: sign :: (ds ++ rest)) = if ds = [] then 0 else ds.length + 2 := by
  simp only [exponentLength, hmark, hsign, if_true, takeWhile_run hds hrest, beq_iff_eq, List.length_eq_zero_iff]

theorem exponentLength_unsigned (hne : ds ≠ []) : exponentLength (mark :: (ds ++ rest)) = ds.length + 1 := by
  obtain ⟨d, ds, rfl⟩ := List.exists_cons_of_ne_nil hne
  have hsign : (d == '+' || d == '-') = false := by
    rw [← Bool.not_eq_true]
    intro h
    have hd := hds d List.mem_cons_self
    simp only [Bool.or_eq_true, beq_iff_eq] at h
    rcases h with rfl | rfl <;> exact absurd hd (by decide)
  have hrun := takeWhile_run hds hrest
  rw [List.cons_append] at hrun ⊢
  simp only [exponentLength, hmark, hsign, if_true, hrun]
  simp

end

/-- How long the exponent at the front of a text is. -/
inductive ExponentFront : List Char → Nat → Prop where
  | none {text} (h : exponentLength text = 0) : ExponentFront text 0
  | signed {mark sign ds rest} (hmark : (mark == 'e' || mark == 'E') = true) (hsign : (sign == '+' || sign == '-') = true)
      (hds : ∀ c ∈ ds, isDigit c = true) (hne : ds ≠ []) : ExponentFront (mark :: sign :: (ds ++ rest)) (ds.length + 2)
  | unsigned {mark ds rest} (hmark : (mark == 'e' || mark == 'E') = true) (hds : ∀ c ∈ ds, isDigit c = true)
      (hne : ds ≠ []) : ExponentFront (mark :: (ds ++ rest)) (ds.length + 1)

theorem exponentFront (text : List Char) : ExponentFront text (exponentLength text) := by
  have hnone (h : exponentLength text = 0) : ExponentFront text (exponentLength text) := h.symm ▸ .none h
  cases text with
  | nil => exact hnone rfl
  | cons mark text =>
    by_cases hmark : (mark == 'e' || mark == 'E') = true
    · obtain ⟨ds, more, rfl, hds, hmore⟩ := exists_run isDigit text
      by_cases hne : ds = []
      · subst hne
        cases more with
        | nil => exact hnone (by simp [exponentLength])
        | cons sign more =>
          by_cases hsign : (sign == '+' || sign == '-') = true
          · obtain ⟨ds, more, rfl, hds, hmore⟩ := exists_run isDigit more
            have hlength := exponentLength_signed hmark hds hmore hsign
            by_cases hne : ds = []
            · exact hnone (by rw [List.nil_append, hlength, if_pos hne])
            · rw [List.nil_append, hlength, if_neg hne]
              exact .signed hmark hsign hds hne
          · exact hnone (by simp [exponentLength, hsign, hmore sign rfl])
      · rw [exponentLength_unsigned hmark hds hmore hne]
        exact .unsigned hmark hds hne
    · exact hnone (by simp [exponentLength, hmark])

theorem isDigit_of_isMark {mark : Char} (hmark : (mark == 'e' || mark == 'E') = true) : isDigit mark = false := by
  simp only [Bool.or_eq_true, beq_iff_eq] at hmark
  rcases hmark with rfl | rfl <;> decide

/-- The exponent at the front of a text, if there is one, ends there when a break follows it. -/
theorem exists_exponent (text : List Char) :
    ∃ e more, text = e ++ more ∧ exponentLength text = e.length ∧ (∀ c ∈ e.head?, isDigit c = false) ∧
      ∀ rest, IsBreak rest → exponentLength (e ++ rest) = e.length := by
  have hfront := exponentFront text
  generalize exponentLength text = n at hfront ⊢
  cases hfront with
  | none => exact ⟨[], text, rfl, rfl, by simp, fun rest hrest => exponentLength_of_isBreak hrest⟩
  | @signed mark sign ds more hmark hsign hds hne =>
    refine ⟨mark :: sign :: ds, more, rfl, rfl, by simpa using isDigit_of_isMark hmark, fun rest hrest => ?_⟩
    rw [List.cons_append, List.cons_append, exponentLength_signed hmark hds (not_isDigit_of_isBreak hrest) hsign,
      if_neg hne]
    rfl
  | @unsigned mark ds more hmark hds hne =>
    refine ⟨mark :: ds, more, rfl, rfl, by simpa using isDigit_of_isMark hmark, fun rest hrest => ?_⟩
    exact exponentLength_unsigned hmark hds (not_isDigit_of_isBreak hrest) hne

section

variable {ds fs rest : List Char} (hds : ∀ c ∈ ds, isDigit c = true) (hne : ds ≠ [])

include hds hne

theorem doubleLength?_fraction (hfs : ∀ c ∈ fs, isDigit c = true) (hrest : ∀ c ∈ rest.head?, isDigit c = false) :
    doubleLength? (ds ++ '.' :: (fs ++ rest)) =
      if fs = [] then none else some (ds.length + 1 + fs.length + exponentLength rest) := by
  have hpoint : ∀ c ∈ ('.' :: (fs ++ rest)).head?, isDigit c = false := by
    rintro c ⟨⟩
    decide
  simp only [doubleLength?, takeWhile_run hds hpoint, dropWhile_run hds hpoint, takeWhile_run hfs hrest,
    dropWhile_run hfs hrest, beq_iff_eq, List.length_eq_zero_iff, if_neg hne]

theorem doubleLength?_exponent (hrest : ∀ c ∈ rest.head?, isDigit c = false ∧ c ≠ '.') :
    doubleLength? (ds ++ rest) =
      if exponentLength rest = 0 then none else some (ds.length + exponentLength rest) := by
  have hdigit : ∀ c ∈ rest.head?, isDigit c = false := fun c hc => (hrest c hc).1
  simp only [doubleLength?, takeWhile_run hds hdigit, dropWhile_run hds hdigit, beq_iff_eq, List.length_eq_zero_iff,
    if_neg hne]
  split
  · exact absurd rfl (hrest '.' rfl).2
  · rfl

end

/-- A number with a fraction or an exponent ends there when a break follows it. -/
theorem exists_double {text : List Char} {n : Nat} (h : doubleLength? text = some n) :
    ∃ w more, text = w ++ more ∧ n = w.length ∧ (∃ d ds, w = d :: ds ∧ isDigit d = true) ∧
      ∀ rest, IsBreak rest → doubleLength? (w ++ rest) = some w.length := by
  obtain ⟨ds, more, rfl, hds, hmore⟩ := exists_run isDigit text
  have hne : ds ≠ [] := by
    rintro rfl
    have hrun := takeWhile_run hds hmore
    rw [List.nil_append] at h hrun
    simp [doubleLength?, hrun] at h
  obtain ⟨d, ds', rfl⟩ := List.exists_cons_of_ne_nil hne
  have hd := hds d List.mem_cons_self
  by_cases hpoint : more.head? = some '.'
  · obtain ⟨more, rfl⟩ : ∃ more', more = '.' :: more' := by
      cases more with
      | nil => cases hpoint
      | cons c more => exact ⟨more, by rw [Option.some.inj hpoint]⟩
    obtain ⟨fs, more, rfl, hfs, hmore⟩ := exists_run isDigit more
    obtain ⟨e, more, rfl, hlength, hbegins, he⟩ := exists_exponent more
    rw [doubleLength?_fraction hds hne hfs hmore] at h
    by_cases hfraction : fs = []
    · simp [hfraction] at h
    · rw [if_neg hfraction, hlength] at h
      refine ⟨d :: ds' ++ '.' :: (fs ++ e), more, by simp, ?_, ⟨d, _, rfl, hd⟩, fun rest hrest => ?_⟩
      · have := Option.some.inj h
        simp only [List.length_append, List.length_cons] at this ⊢
        omega
      · have hafter : ∀ c ∈ (e ++ rest).head?, isDigit c = false := by
          cases e with
          | nil => exact not_isDigit_of_isBreak hrest
          | cons c e => simpa using hbegins
        have hdouble := doubleLength?_fraction hds hne hfs hafter
        rw [if_neg hfraction, he rest hrest] at hdouble
        rw [show d :: ds' ++ '.' :: (fs ++ e) ++ rest = d :: ds' ++ '.' :: (fs ++ (e ++ rest)) by simp, hdouble]
        simp only [List.length_append, List.length_cons, Option.some.injEq]
        omega
  · have hplain : ∀ c ∈ more.head?, isDigit c = false ∧ c ≠ '.' :=
      fun c hc => ⟨hmore c hc, fun heq => hpoint (heq ▸ hc)⟩
    obtain ⟨e, more, rfl, hlength, hbegins, he⟩ := exists_exponent more
    rw [doubleLength?_exponent hds hne hplain, hlength] at h
    by_cases hexponent : e.length = 0
    · simp [hexponent] at h
    · rw [if_neg hexponent] at h
      refine ⟨d :: ds' ++ e, more, by simp, ?_, ⟨d, _, rfl, hd⟩, fun rest hrest => ?_⟩
      · rw [List.length_append]
        exact (Option.some.inj h).symm
      · obtain ⟨c, e, rfl⟩ := List.exists_cons_of_length_pos (Nat.pos_of_ne_zero hexponent)
        have hafter : ∀ c' ∈ (c :: e ++ rest).head?, isDigit c' = false ∧ c' ≠ '.' := hplain
        have hdouble := doubleLength?_exponent hds hne hafter
        rwa [he rest hrest, if_neg hexponent, ← List.append_assoc, ← List.length_append] at hdouble

/-- Digits before a break are no number with a fraction or an exponent. -/
theorem doubleLength?_of_isBreak {ds rest : List Char} (hds : ∀ c ∈ ds, isDigit c = true) (hne : ds ≠ [])
    (hrest : IsBreak rest) : doubleLength? (ds ++ rest) = none := by
  have hplain : ∀ c ∈ rest.head?, isDigit c = false ∧ c ≠ '.' := by
    have hblanks : ∀ c ∈ blanks, isDigit c = false ∧ c ≠ '.' := by decide
    exact fun c hc => hblanks c (isSpace_iff.mp (hrest c hc))
  rw [doubleLength?_exponent hds hne hplain, exponentLength_of_isBreak hrest, if_pos rfl]

theorem integerLength?_hexadecimal {x : Char} (hx : (x == 'x' || x == 'X') = true) {hs rest : List Char}
    (hhs : ∀ c ∈ hs, isHexDigit c = true) (hne : hs ≠ []) (hrest : ∀ c ∈ rest.head?, isHexDigit c = false) :
    integerLength? ('0' :: x :: (hs ++ rest)) = some (hs.length + 2) := by
  simp only [integerLength?, hx, if_true, takeWhile_run hhs hrest]
  rw [if_pos (by simpa using hne)]

theorem integerLength?_decimal {text : List Char}
    (hplain : ∀ x hs, text = '0' :: x :: hs → (x == 'x' || x == 'X') = true → ∀ c ∈ hs.head?, isHexDigit c = false) :
    integerLength? text =
      if text.takeWhile isDigit = [] then none else some (text.takeWhile isDigit).length := by
  have hdecimal (ds : List Char) :
      (if ds.length != 0 then some ds.length else none) = if ds = [] then none else some ds.length := by
    cases ds <;> simp
  unfold integerLength?
  dsimp only
  rw [← hdecimal]
  split
  · rename_i x hs
    by_cases hx : (x == 'x' || x == 'X') = true
    · have hnone : hs.takeWhile isHexDigit = [] := by
        cases hs with
        | nil => rfl
        | cons c hs => simp [hplain x _ rfl hx c rfl]
      rw [if_pos hx, hnone]
      rfl
    · rw [if_neg hx]
      rfl
  · rfl

/-- Digits before a break are a whole number. -/
theorem integerLength?_of_isBreak {ds rest : List Char} (hds : ∀ c ∈ ds, isDigit c = true) (hne : ds ≠ [])
    (hrest : IsBreak rest) : integerLength? (ds ++ rest) = some ds.length := by
  rw [integerLength?_decimal, takeWhile_run hds (not_isDigit_of_isBreak hrest), if_neg hne]
  -- what follows the first digit is a digit or a blank, and no mark of hexadecimal digits
  intro x hs heq hx
  exfalso
  obtain ⟨hdigit, hspace⟩ : isDigit x = false ∧ isSpace x = false := by
    simp only [Bool.or_eq_true, beq_iff_eq] at hx
    rcases hx with rfl | rfl <;> decide
  obtain ⟨d, ds, rfl⟩ := List.exists_cons_of_ne_nil hne
  have hafter : ds ++ rest = x :: hs := (List.cons.inj heq).2
  cases ds with
  | nil => exact absurd (hrest x (by rw [← List.nil_append rest, hafter]; rfl)) (by simp [hspace])
  | cons d' ds =>
    obtain rfl := (List.cons.inj hafter).1
    exact absurd (hds d' (by simp)) (by simp [hdigit])

/-- How long the whole number at the front of a text is. -/
inductive IntegerFront : List Char → Nat → Prop where
  | hexadecimal {x ds rest} (hx : (x == 'x' || x == 'X') = true) (hds : ∀ c ∈ ds, isHexDigit c = true) (hne : ds ≠ []) :
      IntegerFront ('0' :: x :: (ds ++ rest)) (ds.length + 2)
  | decimal {ds rest} (hds : ∀ c ∈ ds, isDigit c = true) (hne : ds ≠ []) : IntegerFront (ds ++ rest) ds.length

theorem integerFront {text : List Char} {n : Nat} (h : integerLength? text = some n) : IntegerFront text n := by
  by_cases hhexadecimal : ∃ x hs, text = '0' :: x :: hs ∧ (x == 'x' || x == 'X') = true ∧ ∃ c ∈ hs.head?, isHexDigit c = true
  · obtain ⟨x, hs, rfl, hx, c, hc, hdigit⟩ := hhexadecimal
    obtain ⟨ds, more, rfl, hds, hmore⟩ := exists_run isHexDigit hs
    have hne : ds ≠ [] := by
      rintro rfl
      exact absurd hdigit (by simp [hmore c hc])
    rw [integerLength?_hexadecimal hx hds hne hmore] at h
    cases h
    exact .hexadecimal hx hds hne
  · obtain ⟨ds, more, rfl, hds, hmore⟩ := exists_run isDigit text
    have hplain (x : Char) (hs : List Char) (heq : ds ++ more = '0' :: x :: hs) (hx : (x == 'x' || x == 'X') = true)
        (c : Char) (hc : c ∈ hs.head?) : isHexDigit c = false :=
      Bool.eq_false_iff.mpr (fun hdigit => hhexadecimal ⟨x, hs, heq, hx, c, hc, hdigit⟩)
    rw [integerLength?_decimal hplain, takeWhile_run hds hmore] at h
    obtain ⟨hne, rfl⟩ : ds ≠ [] ∧ ds.length = n := by simpa using h
    exact .decimal hds hne

/-- A whole number ends there when a break follows it. -/
theorem exists_integer {text : List Char} {n : Nat} (h : integerLength? text = some n) :
    ∃ w more, text = w ++ more ∧ n = w.length ∧ (∃ d ds, w = d :: ds ∧ isDigit d = true) ∧
      ∀ rest, IsBreak rest → doubleLength? (w ++ rest) = none ∧ integerLength? (w ++ rest) = some w.length := by
  cases integerFront h with
  | @hexadecimal x ds more hx hds hne =>
    refine ⟨'0' :: x :: ds, more, rfl, rfl, ⟨'0', _, rfl, by decide⟩, fun rest hrest => ⟨?_, ?_⟩⟩
    · have hmark : isDigit x = false ∧ x ≠ '.' ∧ (x == 'e' || x == 'E') = false := by
        simp only [Bool.or_eq_true, beq_iff_eq] at hx
        rcases hx with rfl | rfl <;> decide
      have hzero : ∀ c ∈ ['0'], isDigit c = true := by decide
      have hplain : ∀ c ∈ (x :: ds ++ rest).head?, isDigit c = false ∧ c ≠ '.' := by
        rintro c ⟨⟩
        exact ⟨hmark.1, hmark.2.1⟩
      have hdouble := doubleLength?_exponent hzero (by simp) hplain
      rwa [if_pos (by simp [exponentLength, hmark.2.2])] at hdouble
    · exact integerLength?_hexadecimal hx hds hne
        (fun c hc => eq_false_of_isSpace isHexDigit (by simp) c (hrest c hc))
  | @decimal ds more hds hne =>
    obtain ⟨d, ds', rfl⟩ := List.exists_cons_of_ne_nil hne
    exact ⟨d :: ds', more, rfl, rfl, ⟨d, ds', rfl, hds d List.mem_cons_self⟩, fun rest hrest =>
      ⟨doubleLength?_of_isBreak hds hne hrest, integerLength?_of_isBreak hds hne hrest⟩⟩

/-- A text without blanks that is at the front of another one before a break is at the front of it. -/
theorem isPrefixOf_append_of_isBreak {s text rest : List Char} (hs : ∀ c ∈ s, isSpace c = false) (hrest : IsBreak rest) :
    s.isPrefixOf (text ++ rest) = s.isPrefixOf text := by
  induction text generalizing s with
  | nil =>
    cases s with
    | nil => simp
    | cons c s =>
      cases rest with
      | nil => rfl
      | cons d rest =>
        have hne : (c == d) = false := by
          rw [beq_eq_false_iff_ne]
          rintro rfl
          exact absurd (hrest c rfl) (by simp [hs c List.mem_cons_self])
        simp [List.isPrefixOf, hne]
  | cons d text ih =>
    cases s with
    | nil => simp
    | cons c s => simp [List.isPrefixOf, ih (fun c' hc' => hs c' (List.mem_cons_of_mem c hc'))]

theorem symbol?_append {text rest : List Char} (hrest : IsBreak rest) : symbol? (text ++ rest) = symbol? text := by
  have hsymbols : ∀ entry ∈ Terminal.symbols, ∀ c ∈ entry.1.toList, isSpace c = false := by decide
  have hprefix : ∀ entry ∈ Terminal.symbols, entry.1.toList.isPrefixOf (text ++ rest) = entry.1.toList.isPrefixOf text :=
    fun entry hentry => isPrefixOf_append_of_isBreak (hsymbols entry hentry) hrest
  have hfind : ∀ entries ⊆ Terminal.symbols, entries.find? (fun entry => entry.1.toList.isPrefixOf (text ++ rest)) =
      entries.find? (fun entry => entry.1.toList.isPrefixOf text) := by
    intro entries hentries
    induction entries with
    | nil => rfl
    | cons entry entries ih =>
      obtain ⟨hentry, hrest⟩ := List.cons_subset.mp hentries
      rw [List.find?_cons, List.find?_cons, hprefix entry hentry, ih hrest]
  rw [symbol?, hfind _ (List.Subset.refl _), ← symbol?]

/-- Whether a text begins like no other lexeme than a symbol. -/
def beginsPlainly : List Char → Bool
  | [] => false
  | c :: cs =>
    !isQuote c && c != 'r' && !isDigit c && !isWordStart c && !isSpace c &&
      (c != '/' || cs.head? != some '/' && cs.head? != some '*')

theorem next?_symbol {c : Char} {cs rest : List Char} (hplain : beginsPlainly (c :: cs) = true) (hrest : IsBreak rest) :
    next? (c :: cs ++ rest) = (symbol? (c :: cs)).map (fun (t, n) => (some t, n)) := by
  simp only [beginsPlainly, Bool.and_eq_true, Bool.not_eq_true', bne_iff_ne, Bool.or_eq_true, ne_eq] at hplain
  obtain ⟨⟨⟨⟨⟨hquote, hraw⟩, hdigit⟩, hword⟩, hspace⟩, hslash⟩ := hplain
  have hcomment : commentLength? (c :: (cs ++ rest)) = none := by
    rcases hslash with hslash | ⟨hslash, hstar⟩
    · exact commentLength?_eq_none hslash _
    · cases cs with
      | nil =>
        cases rest with
        | nil => simp [commentLength?]
        | cons d rest =>
          have hblanks : ∀ d ∈ blanks, d ≠ '/' ∧ d ≠ '*' := by decide
          simp [commentLength?, hblanks d (isSpace_iff.mp (hrest d rfl))]
      | cons d cs => simp_all [commentLength?]
  rw [List.cons_append, next?_of_plain (stringLiteral_eq_none hquote (fun hr => absurd hr hraw)) hdigit hcomment,
    if_neg (by simp [hword]), if_neg (by simp [hspace]), ← List.cons_append, symbol?_append hrest]

/-- A digit begins neither a literal in quotes nor a blank. -/
theorem not_isQuote_of_isDigit {c : Char} (h : isDigit c = true) : isQuote c = false ∧ c ≠ 'r' ∧ isSpace c = false := by
  refine ⟨Bool.eq_false_iff.mpr (fun hquote => ?_), ?_, Bool.eq_false_iff.mpr (fun hspace => ?_)⟩
  · simp only [isQuote, Bool.or_eq_true, beq_iff_eq] at hquote
    rcases hquote with rfl | rfl <;> exact absurd h (by decide)
  · rintro rfl
    exact absurd h (by decide)
  · exact absurd h (by simp [isDigit_of_isSpace hspace])

theorem stringLiteral_of_isDigit {c : Char} (h : isDigit c = true) (rest : List Char) :
    stringLiteral.matchLength? (c :: rest) = none :=
  stringLiteral_eq_none (not_isQuote_of_isDigit h).1 (fun hr => absurd hr (not_isQuote_of_isDigit h).2.1)

theorem next?_word {c : Char} {cs rest : List Char} (hc : isWordStart c = true) (hcs : ∀ d ∈ cs, isWordRest d = true)
    (hrest : ∀ d ∈ rest.head?, isWordRest d = false ∧ isQuote d = false) :
    next? (c :: (cs ++ rest)) = some (some (Terminal.ofWord (String.ofList (c :: cs))), (c :: cs).length) := by
  have hquote : isQuote c = false := isQuote_of_isWordRest (by simp [isWordRest, hc])
  have hraw : ∀ d ∈ (cs ++ rest).head?, isQuote d = false := by
    intro d hd
    cases cs with
    | nil => exact (hrest d hd).2
    | cons d' cs =>
      obtain rfl : d' = d := Option.some.inj hd
      exact isQuote_of_isWordRest (hcs _ List.mem_cons_self)
  have hslash : c ≠ '/' := by
    rintro rfl
    exact absurd hc (by decide)
  rw [next?_of_plain (stringLiteral_eq_none hquote (fun _ => hraw)) (isDigit_of_isWordStart hc)
    (commentLength?_eq_none hslash _), if_pos hc, takeWhile_run hcs (fun d hd => (hrest d hd).1)]

end Lexer
end Dartlet.Syntax
