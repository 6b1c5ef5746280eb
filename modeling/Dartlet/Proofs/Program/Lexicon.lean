import Dartlet.Proofs.Program.Lexemes
import Dartlet.Proofs.Texts.Patterns

/-!
# The languages of lexemes

Every kind of lexeme has a regular language: the texts that may be written for it. What is cut from the front of a
text is in the language of its kind, and nothing is cut only if no text of any of these languages is at the front.
-/

namespace Dartlet.Syntax

open Dartlet.Text

namespace Lexer

/-! ### The languages -/

/-- Texts of one or more characters of a kind. -/
def runs (p : Char → Bool) : Language Char := {w | w ≠ [] ∧ ∀ c ∈ w, p c = true}

/-- Texts of one character out of some. -/
def oneOf (cs : List Char) : Language Char := {w | ∃ c ∈ cs, w = [c]}

/-- Exponents: a mark, perhaps a sign, and digits. -/
def exponents : Language Char := oneOf ['e', 'E'] * (1 + oneOf ['+', '-']) * runs isDigit

/-- Numbers with a fraction and perhaps an exponent, or with an exponent only. -/
def doubles : Language Char :=
  runs isDigit * oneOf ['.'] * runs isDigit * (1 + exponents) + runs isDigit * exponents

/-- Whole numbers: hexadecimal digits after a mark, or decimal digits. -/
def integers : Language Char := oneOf ['0'] * oneOf ['x', 'X'] * runs isHexDigit + runs isDigit

/-- The words of a terminal: a keyword, or all others. -/
def words (t : Terminal) : Language Char :=
  {w | (∃ c cs, w = c :: cs ∧ isWordStart c = true ∧ ∀ d ∈ cs, isWordRest d = true) ∧
    Terminal.ofWord (String.ofList w) = t}

/-- The symbol of a terminal. -/
def symbols (t : Terminal) : Language Char := {w | (String.ofList w, t) ∈ Terminal.symbols}

/-- Texts on one line. -/
def lines : Language Char := {w | '\n' ∉ w}

/-- Comments: to the end of the line, or between two marks. -/
def comments : Language Char := {['/', '/']} * lines + {['/', '*']} * ⊤ * {['*', '/']}

/-- The texts that may be written for a terminal, or for what is skipped. -/
def language : Option Terminal → Language Char
  | some .string => stringLiteral.language
  | some .double => doubles
  | some .integer => integers
  | some t => words t + symbols t
  | none => runs isSpace + comments

theorem language_of_plain {t : Terminal} (h : t ∉ [Terminal.string, .double, .integer]) :
    language (some t) = words t + symbols t := by
  cases t with
  | string | double | integer => simp at h
  | _ => rfl

/-- The first so many characters of a text are a text of a language. -/
def Fronts (L : Language Char) (text : List Char) (n : ℕ) : Prop := ∃ w ∈ L, ∃ rest, text = w ++ rest ∧ n = w.length

theorem Fronts.mono {L M : Language Char} {text : List Char} {n : ℕ} (h : Fronts L text n)
    (hL : ∀ w ∈ L, w ∈ M) : Fronts M text n := by
  obtain ⟨w, hw, hrest⟩ := h
  exact ⟨w, hL w hw, hrest⟩

/-! ### What is cut is in the language -/

/-- An exponent or nothing is at the front of every text. -/
theorem fronts_exponentLength (text : List Char) : Fronts (1 + exponents) text (exponentLength text) := by
  have hfront := exponentFront text
  generalize exponentLength text = n at hfront ⊢
  cases hfront with
  | none => exact ⟨[], .inl rfl, text, rfl, rfl⟩
  | @signed mark sign ds more hmark hsign hds hne =>
    refine ⟨[mark] ++ [sign] ++ ds, .inr ?_, more, by simp, by simp⟩
    have hmark' : [mark] ∈ oneOf ['e', 'E'] := ⟨mark, by simpa using hmark, rfl⟩
    have hsign' : [sign] ∈ oneOf ['+', '-'] := ⟨sign, by simpa using hsign, rfl⟩
    exact Language.append_mem_mul (Language.append_mem_mul hmark' (.inr hsign')) ⟨hne, hds⟩
  | @unsigned mark ds more hmark hds hne =>
    refine ⟨[mark] ++ [] ++ ds, .inr ?_, more, by simp, by simp⟩
    have hmark' : [mark] ∈ oneOf ['e', 'E'] := ⟨mark, by simpa using hmark, rfl⟩
    exact Language.append_mem_mul (Language.append_mem_mul hmark' (.inl rfl)) ⟨hne, hds⟩

theorem fronts_doubleLength? {text : List Char} {n : ℕ} (h : doubleLength? text = some n) : Fronts doubles text n := by
  obtain ⟨ds, more, rfl, hds, hmore⟩ := exists_run isDigit text
  have hne : ds ≠ [] := by
    rintro rfl
    have hrun := takeWhile_run hds hmore
    rw [List.nil_append] at h hrun
    simp [doubleLength?, hrun] at h
  by_cases hpoint : more.head? = some '.'
  · obtain ⟨more, rfl⟩ := List.head?_eq_some_iff.mp hpoint
    obtain ⟨fs, more, rfl, hfs, hmore⟩ := exists_run isDigit more
    obtain ⟨e, he, more, rfl, hlength⟩ := fronts_exponentLength more
    rw [doubleLength?_fraction hds hne hfs hmore, hlength] at h
    split at h
    · cases h
    · rename_i hfraction
      cases h
      have hdigits : ds ++ ['.'] ++ fs ∈ runs isDigit * oneOf ['.'] * runs isDigit :=
        Language.append_mem_mul (Language.append_mem_mul ⟨hne, hds⟩ ⟨'.', by simp, rfl⟩) ⟨hfraction, hfs⟩
      refine ⟨ds ++ ['.'] ++ fs ++ e, .inl (Language.append_mem_mul hdigits he), more, by simp, ?_⟩
      simp only [List.length_append, List.length_cons, List.length_nil]
  · have hplain : ∀ c ∈ more.head?, isDigit c = false ∧ c ≠ '.' :=
      fun c hc => ⟨hmore c hc, fun heq => hpoint (heq ▸ hc)⟩
    obtain ⟨e, he, more, rfl, hlength⟩ := fronts_exponentLength more
    rw [doubleLength?_exponent hds hne hplain, hlength] at h
    split at h
    · cases h
    · rename_i hexponent
      cases h
      refine ⟨ds ++ e, .inr (Language.append_mem_mul ⟨hne, hds⟩ (he.resolve_left ?_)), more, by simp, by simp⟩
      exact fun hnil => hexponent (List.length_eq_zero_iff.mpr hnil)

theorem fronts_integerLength? {text : List Char} {n : ℕ} (h : integerLength? text = some n) : Fronts integers text n := by
  cases integerFront h with
  | @hexadecimal x ds more hx hds hne =>
    refine ⟨['0'] ++ [x] ++ ds, .inl ?_, more, by simp, by simp⟩
    exact Language.append_mem_mul (Language.append_mem_mul ⟨'0', by simp, rfl⟩ ⟨x, by simpa using hx, rfl⟩) ⟨hne, hds⟩
  | @decimal ds more hds hne => exact ⟨ds, .inr ⟨hne, hds⟩, more, rfl, rfl⟩

theorem fronts_blockCommentRest? {text : List Char} {n : ℕ} (h : blockCommentRest? text = some n) :
    Fronts (⊤ * {['*', '/']}) text n := by
  induction text generalizing n with
  | nil => cases h
  | cons c text ih =>
    unfold blockCommentRest? at h
    split at h
    · cases h
    · rename_i rest heq
      cases h
      rw [heq]
      exact ⟨[] ++ ['*', '/'], Language.append_mem_mul trivial rfl, rest, rfl, rfl⟩
    · rename_i heq
      cases heq
      obtain ⟨m, hm, rfl⟩ := Option.map_eq_some_iff.mp h
      obtain ⟨w, hw, rest, rfl, rfl⟩ := ih hm
      obtain ⟨inside, -, mark, hmark, rfl⟩ := Language.mem_mul.mp hw
      exact ⟨c :: inside ++ mark, Language.append_mem_mul trivial hmark, rest, rfl, rfl⟩

theorem fronts_commentLength? {text : List Char} {n : ℕ} (h : commentLength? text = some n) : Fronts comments text n := by
  unfold commentLength? at h
  split at h
  · rename_i rest
    cases h
    obtain ⟨w, more, rfl, hw, hmore⟩ := exists_run (· != '\n') rest
    rw [takeWhile_run hw hmore]
    have hline : '\n' ∉ w := fun hmem => absurd (hw _ hmem) (by decide)
    exact ⟨['/', '/'] ++ w, .inl (Language.append_mem_mul rfl hline), more, rfl, Nat.add_comm ..⟩
  · obtain ⟨m, hm, rfl⟩ := Option.map_eq_some_iff.mp h
    obtain ⟨w, hw, rest, rfl, rfl⟩ := fronts_blockCommentRest? hm
    have hblock : ['/', '*'] ++ w ∈ ({['/', '*']} : Language Char) * (⊤ * {['*', '/']}) := Language.append_mem_mul rfl hw
    rw [← mul_assoc] at hblock
    exact ⟨['/', '*'] ++ w, .inr hblock, rest, rfl, rfl⟩
  · cases h

theorem language_ofWord {c : Char} {cs : List Char} (hc : isWordStart c = true) (hcs : ∀ d ∈ cs, isWordRest d = true) :
    c :: cs ∈ language (some (Terminal.ofWord (String.ofList (c :: cs)))) := by
  have hplain : Terminal.ofWord (String.ofList (c :: cs)) ∉ [Terminal.string, .double, .integer] := by
    unfold Terminal.ofWord
    split
    · rename_i entry hentry
      have hkeywords : ∀ entry ∈ Terminal.keywords, entry.2 ∉ [Terminal.string, .double, .integer] := by decide
      exact hkeywords entry (List.mem_of_find?_eq_some hentry)
    · decide
  rw [language_of_plain hplain]
  exact .inl ⟨⟨c, cs, rfl, hc, hcs⟩, rfl⟩

theorem fronts_symbol? {text : List Char} {t : Terminal} {n : ℕ} (h : symbol? text = some (t, n)) :
    Fronts (language (some t)) text n := by
  unfold symbol? at h
  split at h
  · rename_i entry hentry
    cases h
    have hmem := List.mem_of_find?_eq_some hentry
    have hfront := List.find?_some hentry
    obtain ⟨rest, hrest⟩ := List.isPrefixOf_iff_prefix.mp hfront
    have hsymbols : ∀ entry ∈ Terminal.symbols, entry.2 ∉ [Terminal.string, .double, .integer] := by decide
    refine ⟨entry.1.toList, ?_, rest, hrest.symm, rfl⟩
    rw [language_of_plain (hsymbols entry hmem)]
    have hsymbol : (String.ofList entry.1.toList, entry.2) ∈ Terminal.symbols := by rwa [String.ofList_toList]
    exact .inr hsymbol
  · cases h

/-- What is cut from the front of a text is in the language of its kind. -/
theorem fronts_next? {text : List Char} {terminal? : Option Terminal} {n : ℕ} (h : next? text = some (terminal?, n)) :
    Fronts (language terminal?) text n := by
  unfold next? at h
  split at h
  · rename_i hstring
    cases h
    exact Pattern.exists_of_matchLength? hstring
  split at h
  · rename_i hdouble
    cases h
    exact fronts_doubleLength? hdouble
  split at h
  · rename_i hinteger
    cases h
    exact fronts_integerLength? hinteger
  split at h
  · rename_i hcomment
    cases h
    exact (fronts_commentLength? hcomment).mono fun _ => .inr
  split at h
  · cases h
  · rename_i c text _ _ _ _
    split at h
    · rename_i hc
      cases h
      obtain ⟨cs, more, rfl, hcs, hmore⟩ := exists_run isWordRest text
      rw [takeWhile_run hcs hmore]
      exact ⟨c :: cs, language_ofWord hc hcs, more, rfl, rfl⟩
    · split at h
      · rename_i hc
        cases h
        obtain ⟨cs, more, rfl, hcs, hmore⟩ := exists_run isSpace text
        rw [takeWhile_run hcs hmore]
        have hblanks : c :: cs ∈ runs isSpace := ⟨by simp, List.forall_mem_cons.mpr ⟨hc, hcs⟩⟩
        exact ⟨c :: cs, .inl hblanks, more, rfl, Nat.add_comm ..⟩
      · obtain ⟨⟨t, m⟩, hsymbol, heq⟩ := Option.map_eq_some_iff.mp h
        cases heq
        exact fronts_symbol? hsymbol

/-! ### What is not cut is in no language -/

theorem exists_of_mem_doubles {w : List Char} (h : w ∈ doubles) : ∃ d ds, w = d :: ds ∧ isDigit d = true := by
  have hdigits {u : List Char} (hu : u ∈ runs isDigit) (more : List Char) :
      ∃ d ds, u ++ more = d :: ds ∧ isDigit d = true := by
    obtain ⟨d, ds, rfl⟩ := List.exists_cons_of_ne_nil hu.1
    exact ⟨d, ds ++ more, rfl, hu.2 d List.mem_cons_self⟩
  rcases h with h | h
  · rw [mul_assoc, mul_assoc] at h
    obtain ⟨u, hu, more, -, rfl⟩ := Language.mem_mul.mp h
    exact hdigits hu more
  · obtain ⟨u, hu, more, -, rfl⟩ := Language.mem_mul.mp h
    exact hdigits hu more

theorem exists_of_mem_integers {w : List Char} (h : w ∈ integers) : ∃ d ds, w = d :: ds ∧ isDigit d = true := by
  rcases h with h | ⟨hne, hdigits⟩
  · rw [mul_assoc] at h
    obtain ⟨u, ⟨c, hc, rfl⟩, more, -, rfl⟩ := Language.mem_mul.mp h
    rw [List.mem_singleton] at hc
    subst hc
    exact ⟨'0', more, rfl, by decide⟩
  · obtain ⟨d, ds, rfl⟩ := List.exists_cons_of_ne_nil hne
    exact ⟨d, ds, rfl, hdigits d List.mem_cons_self⟩

theorem exists_of_mem_comments {w : List Char} (h : w ∈ comments) : ∃ more, w = '/' :: more := by
  rcases h with h | h
  · obtain ⟨u, rfl, more, -, rfl⟩ := Language.mem_mul.mp h
    exact ⟨'/' :: more, rfl⟩
  · rw [mul_assoc] at h
    obtain ⟨u, rfl, more, -, rfl⟩ := Language.mem_mul.mp h
    exact ⟨'*' :: more, rfl⟩

/-- A character at which nothing can be cut from a text. -/
structure IsStray (c : Char) (rest : List Char) : Prop where
  string : stringLiteral.matchLength? (c :: rest) = none
  digit : isDigit c = false
  word : isWordStart c = false
  space : isSpace c = false
  symbol : symbol? (c :: rest) = none

theorem integerLength?_ne_none {c : Char} (hc : isDigit c = true) (rest : List Char) :
    integerLength? (c :: rest) ≠ none := by
  have hdecimal (n m : ℕ) : (if n != 0 then some (n + 2) else if m + 1 != 0 then some (m + 1) else none) ≠ none := by
    split <;> simp
  unfold integerLength?
  rw [List.takeWhile_cons_of_pos hc]
  exact hdecimal _ _

theorem isStray_of_next? {c : Char} {rest : List Char} (h : next? (c :: rest) = none) : IsStray c rest := by
  unfold next? at h
  split at h
  · cases h
  rename_i hstring
  split at h
  · cases h
  split at h
  · cases h
  rename_i hinteger
  split at h
  · cases h
  have hdigit : isDigit c = false := Bool.eq_false_iff.mpr fun hc => integerLength?_ne_none hc rest hinteger
  dsimp only at h
  split at h
  · cases h
  rename_i hword
  split at h
  · cases h
  rename_i hspace
  exact ⟨hstring, hdigit, by simpa using hword, by simpa using hspace, by simpa using h⟩

theorem symbol?_ne_none {text w : List Char} {t : Terminal} (hw : (String.ofList w, t) ∈ Terminal.symbols)
    (hfront : w <+: text) : symbol? text ≠ none := by
  unfold symbol?
  split
  · simp
  · rename_i hnone
    have hnot := List.find?_eq_none.mp hnone _ hw
    exact absurd (List.isPrefixOf_iff_prefix.mpr hfront) (by simpa using hnot)

theorem IsStray.not_front {c : Char} {rest : List Char} (h : IsStray c rest) (terminal? : Option Terminal) :
    ∀ w ∈ language terminal?, ¬ w <+: c :: rest := by
  have hhead {d : Char} {ds : List Char} (hfront : d :: ds <+: c :: rest) : d = c := (List.cons_prefix_cons.mp hfront).1
  have hdigit {w : List Char} (hw : ∃ d ds, w = d :: ds ∧ isDigit d = true) : ¬ w <+: c :: rest := by
    obtain ⟨d, ds, rfl, hd⟩ := hw
    intro hfront
    rw [hhead hfront, h.digit] at hd
    cases hd
  have hplain {t : Terminal} (ht : t ∉ [Terminal.string, .double, .integer]) :
      ∀ w ∈ language (some t), ¬ w <+: c :: rest := by
    rw [language_of_plain ht]
    rintro w (⟨⟨d, ds, rfl, hd, -⟩, -⟩ | hw) hfront
    · rw [hhead hfront, h.word] at hd
      cases hd
    · exact symbol?_ne_none hw hfront h.symbol
  cases terminal? with
  | none =>
    rintro w (⟨hne, hspaces⟩ | hw) hfront
    · obtain ⟨d, ds, rfl⟩ := List.exists_cons_of_ne_nil hne
      have hd := hspaces d List.mem_cons_self
      rw [hhead hfront, h.space] at hd
      cases hd
    · -- where a comment begins there is at least a slash
      obtain ⟨more, rfl⟩ := exists_of_mem_comments hw
      have hslash : (String.ofList ['/'], Terminal.slash) ∈ Terminal.symbols := by decide
      exact symbol?_ne_none hslash ((List.prefix_append ['/'] more).trans hfront) h.symbol
  | some t =>
    by_cases ht : t ∈ [Terminal.string, .double, .integer]
    · simp only [List.mem_cons, List.not_mem_nil, or_false] at ht
      rcases ht with rfl | rfl | rfl
      · exact Pattern.matchLength?_eq_none_iff.mp h.string
      · exact fun w hw => hdigit (exists_of_mem_doubles hw)
      · exact fun w hw => hdigit (exists_of_mem_integers hw)
    · exact hplain ht

end Lexer
end Dartlet.Syntax
