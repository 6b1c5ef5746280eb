import Dartlet.Syntax.Assembly
import Dartlet.Proofs.Program.Lexemes

/-!
# Words with blanks between them

A text of words with blanks between them falls back into these words, if each of them is a token by
itself wherever a blank follows it. All tokens but string literals are.
-/

namespace Dartlet.Syntax

open Dartlet.Text

/-- A token without its place. -/
structure Word where
  terminal : Terminal
  text : String
  deriving DecidableEq, Repr

/-- What a token says. -/
def Token.word (t : Token) : Word := ⟨t.terminal, t.text⟩

/-- The text of some words in order, with single blanks between them. -/
def spaced (ws : List Word) : String := " ".intercalate (ws.map Word.text)

/-- Whether a text is a name: a word that is no keyword. -/
def isName (s : String) : Bool :=
  match s.toList with
  | [] => false
  | c :: cs => Lexer.isWordStart c && cs.all Lexer.isWordRest && Terminal.ofWord s == .identifier

/-- A word that is the next token wherever the text ends or a blank follows. -/
structure Word.Separable (w : Word) : Prop where
  begins : ∃ c cs, w.text.toList = c :: cs ∧ Lexer.isSpace c = false
  next : ∀ {rest}, IsBreak rest →
    Lexer.next? (w.text.toList ++ rest) = some (some w.terminal, w.text.toList.length)

namespace Word

/-- What begins like a name is one, or a keyword. -/
theorem separable_word {c : Char} {cs : List Char} (hc : Lexer.isWordStart c = true)
    (hcs : ∀ d ∈ cs, Lexer.isWordRest d = true) :
    Separable ⟨Terminal.ofWord (String.ofList (c :: cs)), String.ofList (c :: cs)⟩ := by
  refine ⟨⟨c, cs, String.toList_ofList, ?_⟩, fun {rest} hrest => ?_⟩
  · exact Lexer.isSpace_of_lt (by have := Lexer.isWordStart_bounds hc; omega)
  · rw [String.toList_ofList]
    refine Lexer.next?_word hc hcs (fun d hd => ⟨?_, ?_⟩)
    · exact Lexer.eq_false_of_isSpace Lexer.isWordRest (by simp) d (hrest d hd)
    · exact Lexer.eq_false_of_isSpace Lexer.isQuote (by simp) d (hrest d hd)

theorem separable_name {name : String} (h : isName name = true) : Separable ⟨.identifier, name⟩ := by
  unfold isName at h
  split at h
  · cases h
  · rename_i c cs hname
    simp only [Bool.and_eq_true, List.all_eq_true, beq_iff_eq] at h
    have hword : String.ofList (c :: cs) = name := by rw [← hname, String.ofList_toList]
    have hseparable := separable_word h.1.1 h.1.2
    rwa [hword, h.2] at hseparable

theorem separable_of_integer {d : Char} {w : List Char} (hd : isDigit d = true)
    (h : ∀ rest, IsBreak rest → Lexer.doubleLength? (d :: w ++ rest) = none ∧
      Lexer.integerLength? (d :: w ++ rest) = some (d :: w).length) : Separable ⟨.integer, String.ofList (d :: w)⟩ := by
  refine ⟨⟨d, w, String.toList_ofList, (Lexer.not_isQuote_of_isDigit hd).2.2⟩, fun {rest} hrest => ?_⟩
  have hstring := Lexer.stringLiteral_of_isDigit hd (w ++ rest)
  rw [← List.cons_append] at hstring
  simp only [String.toList_ofList, Lexer.next?, hstring, h rest hrest]

theorem separable_number (n : Nat) : Separable ⟨.integer, n.repr⟩ := by
  have hdigits : ∀ c ∈ n.repr.toList, isDigit c = true := by
    rw [Nat.toList_repr]
    exact fun c hc => isDigit_of_mem_toDigits hc
  have hne : n.repr.toList ≠ [] := by
    rw [Nat.toList_repr]
    exact Nat.toDigits_ne_nil
  obtain ⟨d, ds, hds⟩ := List.exists_cons_of_ne_nil hne
  rw [hds] at hdigits
  have hseparable := separable_of_integer (hdigits d List.mem_cons_self) (fun rest hrest =>
    ⟨Lexer.doubleLength?_of_isBreak hdigits (by simp) hrest, Lexer.integerLength?_of_isBreak hdigits (by simp) hrest⟩)
  rwa [← hds, String.ofList_toList] at hseparable

theorem separable_symbol : ∀ entry ∈ Terminal.symbols, Separable ⟨entry.2, entry.1⟩ := by
  have hentries : ∀ entry ∈ Terminal.symbols, Lexer.beginsPlainly entry.1.toList = true ∧
      Lexer.symbol? entry.1.toList = some (entry.2, entry.1.toList.length) := by decide
  intro entry hentry
  obtain ⟨hplain, hsymbol⟩ := hentries entry hentry
  obtain ⟨c, cs, hcs⟩ : ∃ c cs, entry.1.toList = c :: cs := by
    cases h : entry.1.toList with
    | nil => simp [h, Lexer.beginsPlainly] at hplain
    | cons c cs => exact ⟨c, cs, rfl⟩
  rw [hcs] at hplain
  refine ⟨⟨c, cs, hcs, ?_⟩, fun {rest} hrest => ?_⟩
  · simp only [Lexer.beginsPlainly, Bool.and_eq_true, Bool.not_eq_true'] at hplain
    exact hplain.1.2
  · rw [hcs, Lexer.next?_symbol hplain hrest, ← hcs, hsymbol]
    rfl

/-- A token that is no string literal is one wherever the text ends or a blank follows. -/
theorem separable_token {text : List Char} {t : Terminal} {n : Nat} (h : Lexer.next? text = some (some t, n))
    (ht : t ≠ .string) : ∃ s more, text = String.toList s ++ more ∧ n = s.toList.length ∧ Separable ⟨t, s⟩ := by
  have hfound {w more : List Char} (hw : Separable ⟨t, String.ofList w⟩) : ∃ s more', w ++ more = String.toList s ++ more' ∧
      w.length = s.toList.length ∧ Separable ⟨t, s⟩ :=
    ⟨_, more, by rw [String.toList_ofList], by rw [String.toList_ofList], hw⟩
  unfold Lexer.next? at h
  split at h
  · cases h
    exact absurd rfl ht
  split at h
  · rename_i hdouble
    cases h
    obtain ⟨w, more, rfl, rfl, ⟨d, ds, rfl, hd⟩, hw⟩ := Lexer.exists_double hdouble
    refine hfound ⟨⟨d, ds, String.toList_ofList, (Lexer.not_isQuote_of_isDigit hd).2.2⟩, fun {rest} hrest => ?_⟩
    have hstring := Lexer.stringLiteral_of_isDigit hd (ds ++ rest)
    rw [← List.cons_append] at hstring
    simp only [String.toList_ofList, Lexer.next?, hstring, hw rest hrest]
  split at h
  · rename_i hinteger
    cases h
    obtain ⟨w, more, rfl, rfl, ⟨d, ds, rfl, hd⟩, hw⟩ := Lexer.exists_integer hinteger
    exact hfound (separable_of_integer hd hw)
  split at h
  · cases h
  split at h
  · cases h
  · rename_i c text _ _ _ _
    split at h
    · rename_i hc
      obtain ⟨cs, more, rfl, hcs, hmore⟩ := Lexer.exists_run Lexer.isWordRest text
      simp only [Lexer.takeWhile_run hcs hmore] at h
      cases h
      exact hfound (separable_word hc hcs)
    · split at h
      · cases h
      · obtain ⟨⟨t', n'⟩, hsymbol, heq⟩ := Option.map_eq_some_iff.mp h
        cases heq
        unfold Lexer.symbol? at hsymbol
        split at hsymbol
        · rename_i entry hentry
          cases hsymbol
          have hfront := List.find?_some hentry
          obtain ⟨more, hmore⟩ := List.isPrefixOf_iff_prefix.mp hfront
          exact ⟨entry.1, more, hmore.symm, rfl, separable_symbol entry (List.mem_of_find?_eq_some hentry)⟩
        · cases hsymbol

end Word

/-- The value of a whole number in decimal digits. -/
theorem integerValue_repr (n : Nat) : integerValue n.repr = n := by
  have hdigits : ∀ c ∈ Nat.toDigits 10 n, c.isDigit = true :=
    fun c hc => Nat.isDigit_of_mem_toDigits (by omega) (by omega) hc
  have hfold {add : Nat → Char → Nat} (hadd : ∀ n c d, digitValue? c = some d → add n c = 10 * n + d)
      (digits : List Char) (m : Nat) (h : ∀ c ∈ digits, c.isDigit = true) :
      digits.foldl add m = Nat.ofDigitChars 10 digits m := by
    induction digits generalizing m with
    | nil => rfl
    | cons c digits ih =>
      have hc := isBasicDigit_iff.mp (h c List.mem_cons_self)
      have hvalue : digitValue? c = some (c.toNat - 48) := by rw [digitValue?_of_lt (by omega), if_pos hc]
      rw [List.foldl_cons, ih _ (fun d hd => h d (List.mem_cons_of_mem c hd)), hadd m c _ hvalue]
      rfl
  have hvalue : decimalValue (Nat.toDigits 10 n) = n :=
    (hfold (fun _ _ _ h => by simp only [h]) _ 0 hdigits).trans (Nat.ofDigitChars_toDigits (by omega) (by omega))
  rw [integerValue, Nat.toList_repr]
  split
  · rename_i x digits hdigits'
    have hx := isBasicDigit_iff.mp (hdigits x (by rw [hdigits']; simp))
    split
    · rename_i hhex
      simp only [Bool.or_eq_true, beq_iff_eq] at hhex
      rcases hhex with rfl | rfl <;> exact absurd hx (by decide)
    · rw [← hdigits', hvalue]
  · rw [hvalue]

/-! ### Texts of words -/

/-- Words written in order, with blanks between them. -/
inductive Laid : List Word → List Char → Prop
  | nothing : Laid [] []
  | last (w : Word) : Laid [w] w.text.toList
  | more {w v : Word} {ws : List Word} {gap text : List Char} : gap ≠ [] → (∀ c ∈ gap, Lexer.isSpace c = true) →
    Laid (v :: ws) text → Laid (w :: v :: ws) (w.text.toList ++ (gap ++ text))

/-- No blank stands before the first word. -/
theorem Laid.begins {w : Word} {ws : List Word} {text : List Char} (h : Laid (w :: ws) text) (hw : w.Separable) :
    ∀ c ∈ text.head?, Lexer.isSpace c = false := by
  obtain ⟨c, cs, hcs, hc⟩ := hw.begins
  cases h <;> simpa [hcs] using hc

/-- Words cut from a text up to its end. -/
def Lexed.Says (l : Lexed) (ws : List Word) : Prop := l.tokens.map Token.word = ws ∧ l.stop = none

namespace Lexer

theorem next?_blanks {gap rest : List Char} (hne : gap ≠ []) (hgap : ∀ c ∈ gap, isSpace c = true)
    (hrest : ∀ c ∈ rest.head?, isSpace c = false) : next? (gap ++ rest) = some (none, gap.length) := by
  obtain ⟨c, gap, rfl⟩ := List.exists_cons_of_ne_nil hne
  have hc := hgap c List.mem_cons_self
  have hblanks : ∀ c ∈ blanks, isQuote c = false ∧ c ≠ 'r' ∧ isDigit c = false ∧ c ≠ '/' ∧ isWordStart c = false := by
    decide
  obtain ⟨hquote, hraw, hdigit, hslash, hword⟩ := hblanks c (isSpace_iff.mp hc)
  have hstring : stringLiteral.matchLength? (c :: (gap ++ rest)) = none :=
    stringLiteral_eq_none hquote (fun h => absurd h hraw)
  rw [List.cons_append, next?_of_plain hstring hdigit (commentLength?_eq_none hslash _), if_neg (by simp [hword]),
    if_pos hc, takeWhile_run (fun d hd => hgap d (List.mem_cons_of_mem c hd)) hrest, List.length_cons, Nat.add_comm]

theorem scan_next {limit length : Nat} {position : Position} {text : List Char} {terminal? : Option Terminal}
    (hnext : next? text = some (terminal?, length)) (hne : text ≠ []) :
    scan (limit + 1) position text =
      ⟨⟨terminal?, text.take length, position⟩ ::
          (scan limit (position.after (text.take length)) (text.drop length)).lexemes,
        (scan limit (position.after (text.take length)) (text.drop length)).stop⟩ := by
  obtain ⟨c, rest, rfl⟩ := List.exists_cons_of_ne_nil hne
  simp only [scan, hnext]

/-- A word is cut from the front of a text, and then what follows it. -/
theorem scan_front {limit : Nat} {position : Position} {w : Word} {rest : List Char}
    (hnext : next? (w.text.toList ++ rest) = some (some w.terminal, w.text.toList.length))
    (hne : w.text.toList ≠ []) {ws : List Word} (h : ∀ position, (scan limit position rest).Says ws) :
    (scan (limit + 1) position (w.text.toList ++ rest)).Says (w :: ws) := by
  rw [scan_next hnext (by simp [hne]), List.drop_left, List.take_left]
  obtain ⟨htokens, hstop⟩ := h (position.after w.text.toList)
  exact ⟨by simpa [Lexed.tokens, Lexeme.token?, Token.word] using htokens, hstop⟩

/-- A separable word is cut from the front of a text before a break. -/
theorem scan_word {limit : Nat} {position : Position} {w : Word} (hw : w.Separable) {rest : List Char}
    (hrest : IsBreak rest) {ws : List Word} (h : ∀ position, (scan limit position rest).Says ws) :
    (scan (limit + 1) position (w.text.toList ++ rest)).Says (w :: ws) := by
  obtain ⟨c, cs, hcs, -⟩ := hw.begins
  exact scan_front (hw.next hrest) (by simp [hcs]) h

/-- A text of words with blanks between them falls back into these words. -/
theorem scan_laid {limit : Nat} {position : Position} {ws : List Word} {text : List Char} (h : Laid ws text)
    (hws : ∀ w ∈ ws, w.Separable) (hlimit : text.length ≤ limit) : (scan limit position text).Says ws := by
  induction h generalizing limit position with
  | nothing => exact ⟨by simp [scan, Lexed.tokens], by simp [scan]⟩
  | last w =>
    have hw := hws w List.mem_cons_self
    obtain ⟨c, cs, hcs, -⟩ := hw.begins
    obtain ⟨limit, rfl⟩ : ∃ k, limit = k + 1 := ⟨limit - 1, by rw [hcs, List.length_cons] at hlimit; omega⟩
    rw [← List.append_nil w.text.toList]
    exact scan_word hw (by simp [IsBreak]) (fun position => ⟨by simp [scan, Lexed.tokens], by simp [scan]⟩)
  | @more w v ws gap text hne hgap hlaid ih =>
    obtain ⟨hw, hrest⟩ := List.forall_mem_cons.mp hws
    obtain ⟨c, cs, hcs, -⟩ := hw.begins
    have hgaplength := List.length_pos_iff.mpr hne
    simp only [hcs, List.length_append, List.length_cons] at hlimit
    obtain ⟨limit, rfl⟩ : ∃ k, limit = k + 2 := ⟨limit - 2, by omega⟩
    have hbreak : IsBreak (gap ++ text) := by
      intro c hc
      obtain ⟨d, gap, rfl⟩ := List.exists_cons_of_ne_nil hne
      exact hgap c (by obtain rfl : d = c := Option.some.inj hc; exact List.mem_cons_self)
    refine scan_word hw hbreak (fun position => ?_)
    rw [scan_next (next?_blanks hne hgap (hlaid.begins (hrest v List.mem_cons_self))) (by simp [hne]), List.drop_left, List.take_left]
    obtain ⟨htokens, hstop⟩ := @ih limit (position.after gap) hrest (by omega)
    exact ⟨htokens, hstop⟩

end Lexer

/-- A text of separable words falls back into these words. -/
theorem lex_laid {ws : List Word} (hws : ∀ w ∈ ws, w.Separable) {text : String} (h : Laid ws text.toList) :
    (lex text).Says ws :=
  Lexer.scan_laid h hws (Nat.le_refl _)

/-- The first word is cut from the front of the text. -/
theorem Laid.next {w : Word} {ws : List Word} {text : List Char} (h : Laid (w :: ws) text) (hw : w.Separable) :
    Lexer.next? text = some (some w.terminal, w.text.toList.length) := by
  cases h with
  | last =>
    have hend : IsBreak [] := by simp [IsBreak]
    simpa using hw.next hend
  | @more _ v _ gap text hne hgap _ =>
    refine hw.next fun c hc => ?_
    obtain ⟨d, gap, rfl⟩ := List.exists_cons_of_ne_nil hne
    exact hgap c (by obtain rfl : d = c := Option.some.inj hc; exact List.mem_cons_self)

/-- The first word stands where the text begins. -/
theorem lex_laid_position {w : Word} {ws : List Word} (hw : w.Separable) {text : String} (h : Laid (w :: ws) text.toList)
    {t : Token} {rest : List Token} (htokens : (lex text).tokens = t :: rest) : t.position = Position.start := by
  have hne : text.toList ≠ [] := by
    intro hnil
    have hnext := h.next hw
    rw [hnil] at hnext
    cases hnext
  obtain ⟨limit, hlimit⟩ : ∃ k, text.toList.length = k + 1 :=
    ⟨text.toList.length - 1, by have := List.length_pos_iff.mpr hne; omega⟩
  simp only [lex, hlimit, Lexer.scan_next (h.next hw) hne, Lexed.tokens, Lexeme.token?, List.filterMap_cons,
    Option.map_some, List.cons.injEq] at htokens
  rw [← htokens.1]

theorem laid_spaced (ws : List Word) : Laid ws (spaced ws).toList := by
  rw [spaced, String.toList_intercalate]
  induction ws with
  | nil => exact .nothing
  | cons w ws ih =>
    cases ws with
    | nil => simpa using Laid.last w
    | cons v ws =>
      simp only [List.map_cons, List.intercalate_cons_cons] at ih ⊢
      rw [List.append_assoc]
      exact .more (by decide : [' '] ≠ []) (by decide) ih

/-- A text of separable words falls back into these words. -/
theorem lex_spaced {ws : List Word} (hws : ∀ w ∈ ws, w.Separable) : (lex (spaced ws)).Says ws :=
  lex_laid hws (laid_spaced ws)

end Dartlet.Syntax
