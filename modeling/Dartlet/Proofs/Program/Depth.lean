import Mathlib.Data.List.TakeWhile
import Dartlet.Proofs.Grammar.Brackets
import Dartlet.Proofs.Program.RoundTrip
import Dartlet.Session

/-!
# Open brackets at the prompt

The depth of a text counts the bracket characters outside of its strings and comments. A text that is
a program, a list of statements or an expression closes all that it opens, so the enter key hands it
over.
-/

namespace Dartlet.Syntax

open Dartlet.Text

/-- Whether a character opens a bracket. -/
def isOpeningBracket (c : Char) : Bool := ['(', '[', '{'].contains c

/-- Whether a character closes a bracket. -/
def isClosingBracket (c : Char) : Bool := [')', ']', '}'].contains c

/-- Whether a lexeme is a token other than a string literal. -/
def Lexeme.isCode (l : Lexeme) : Bool := l.terminal?.any (fun t => t != .string)

/-- The characters of a text outside of string literals, blanks and comments. -/
def Lexed.code (l : Lexed) : List Char := (l.lexemes.filter Lexeme.isCode).flatMap Lexeme.text

/-! ### The brackets of a lexeme -/

/-- As many brackets of each sort as a terminal has, which is one at most. -/
structure HasBracketsOf (t : Terminal) (text : List Char) : Prop where
  opening : text.countP isOpeningBracket = if t.opens then 1 else 0
  closing : text.countP isClosingBracket = if t.closes then 1 else 0

theorem hasBracketsOf_symbol : ∀ entry ∈ Terminal.symbols, HasBracketsOf entry.2 entry.1.toList := by
  have h : ∀ entry ∈ Terminal.symbols,
      entry.1.toList.countP isOpeningBracket = (if entry.2.opens then 1 else 0) ∧
      entry.1.toList.countP isClosingBracket = (if entry.2.closes then 1 else 0) := by
    decide
  exact fun entry hentry => ⟨(h entry hentry).1, (h entry hentry).2⟩

/-- Terminals that are no symbols have no brackets. -/
theorem hasBracketsOf_plain {t : Terminal} {text : List Char} (ht : t ∉ Terminal.symbols.map Prod.snd)
    (htext : ∀ c ∈ text, isOpeningBracket c = false ∧ isClosingBracket c = false) : HasBracketsOf t text := by
  have hopens : t.opens = false := by
    cases t <;> first | rfl | exact absurd (by decide) ht
  have hcloses : t.closes = false := by
    cases t <;> first | rfl | exact absurd (by decide) ht
  constructor
  · rw [hopens, if_neg Bool.false_ne_true, List.countP_eq_zero]
    exact fun c hc => by simp [(htext c hc).1]
  · rw [hcloses, if_neg Bool.false_ne_true, List.countP_eq_zero]
    exact fun c hc => by simp [(htext c hc).2]

namespace Lexer

/-- The characters that numbers are written with. -/
def isNumeral (c : Char) : Bool := isDigit c || isHexDigit c || ['.', 'e', 'E', '+', '-', 'x', 'X'].contains c

theorem isNumeral_of_isDigit {c : Char} (h : isDigit c = true) : isNumeral c = true := by simp [isNumeral, h]

theorem no_bracket_of {p : Char → Bool} (hp : ∀ c ∈ ['(', '[', '{', ')', ']', '}'], p c = false) {c : Char}
    (hc : p c = true) : isOpeningBracket c = false ∧ isClosingBracket c = false := by
  constructor
  · rw [← Bool.not_eq_true]
    intro hopening
    simp only [isOpeningBracket, List.contains_eq_mem, decide_eq_true_eq] at hopening
    rw [hp c (by simp only [List.mem_cons] at hopening ⊢; tauto)] at hc
    cases hc
  · rw [← Bool.not_eq_true]
    intro hclosing
    simp only [isClosingBracket, List.contains_eq_mem, decide_eq_true_eq] at hclosing
    rw [hp c (by simp only [List.mem_cons] at hclosing ⊢; tauto)] at hc
    cases hc

/-- A run of characters and some more. -/
theorem take_run (p : Char → Bool) (text : List Char) (k : Nat) :
    text.take ((text.takeWhile p).length + k) = text.takeWhile p ++ (text.dropWhile p).take k := by
  conv_lhs =>
    arg 2
    rw [← List.takeWhile_append_dropWhile (p := p) (l := text)]
  rw [List.take_length_add_append]

theorem isNumeral_run {p : Char → Bool} (hp : ∀ c, p c = true → isNumeral c = true) (text : List Char) {k : Nat}
    (h : ∀ c ∈ (text.dropWhile p).take k, isNumeral c = true) :
    ∀ c ∈ text.take ((text.takeWhile p).length + k), isNumeral c = true := by
  rw [take_run]
  intro c hc
  rcases List.mem_append.mp hc with hc | hc
  · exact hp c (List.mem_takeWhile_imp hc)
  · exact h c hc

theorem isNumeral_digits (text : List Char) {k : Nat}
    (h : ∀ c ∈ (text.dropWhile isDigit).take k, isNumeral c = true) :
    ∀ c ∈ text.take ((text.takeWhile isDigit).length + k), isNumeral c = true :=
  isNumeral_run (fun _ => isNumeral_of_isDigit) text h

theorem isNumeral_exponent (text : List Char) : ∀ c ∈ text.take (exponentLength text), isNumeral c = true := by
  cases text with
  | nil => intro c hc; cases hc
  | cons mark rest =>
    simp only [exponentLength]
    split
    · rename_i hmark
      have hmark : isNumeral mark = true := by
        simp only [Bool.or_eq_true, beq_iff_eq] at hmark
        rcases hmark with rfl | rfl <;> decide
      cases rest with
      | nil => intro c hc; cases hc
      | cons sign more =>
        simp only
        split
        · rename_i hsign
          have hsign : isNumeral sign = true := by
            simp only [Bool.or_eq_true, beq_iff_eq] at hsign
            rcases hsign with rfl | rfl <;> decide
          split
          · simp
          · simpa [hmark, hsign] using isNumeral_digits more (k := 0) (by simp)
        · split
          · simp
          · simpa [hmark] using isNumeral_digits (sign :: more) (k := 0) (by simp)
    · simp

theorem isNumeral_double {text : List Char} {n : Nat} (h : doubleLength? text = some n) :
    ∀ c ∈ text.take n, isNumeral c = true := by
  unfold doubleLength? at h
  dsimp only at h
  split at h
  · cases h
  · split at h
    · rename_i more hrest
      split at h
      · cases h
      · obtain rfl := Option.some.inj h
        rw [Nat.add_assoc, Nat.add_assoc]
        refine isNumeral_digits _ ?_
        rw [hrest, Nat.add_comm 1, List.take_succ_cons]
        refine List.forall_mem_cons.mpr ⟨by decide, ?_⟩
        exact isNumeral_digits _ (isNumeral_exponent _)
    · split at h
      · cases h
      · obtain rfl := Option.some.inj h
        exact isNumeral_digits _ (isNumeral_exponent _)

theorem isNumeral_integer {text : List Char} {n : Nat} (h : integerLength? text = some n) :
    ∀ c ∈ text.take n, isNumeral c = true := by
  have hdecimal (h : (if (text.takeWhile isDigit).length != 0 then some (text.takeWhile isDigit).length else none) =
      some n) : ∀ c ∈ text.take n, isNumeral c = true := by
    simp only [Option.ite_none_right_eq_some, Option.some.injEq] at h
    obtain ⟨-, rfl⟩ := h
    exact isNumeral_digits _ (k := 0) (by simp)
  unfold integerLength? at h
  split at h
  · rename_i x rest
    by_cases hx : (x == 'x' || x == 'X') = true
    · simp only [if_pos hx] at h
      split at h
      · obtain rfl := Option.some.inj h
        have hmark : isNumeral x = true := by
          simp only [Bool.or_eq_true, beq_iff_eq] at hx
          rcases hx with rfl | rfl <;> decide
        have hdigits := isNumeral_run (p := isHexDigit) (k := 0) (fun c hc => by simp [isNumeral, hc]) rest (by simp)
        simpa [hmark, show isNumeral '0' = true by decide] using hdigits
      · exact hdecimal h
    · simp only [if_neg hx] at h
      exact hdecimal h
  · exact hdecimal h

/-- A token other than a string literal has the brackets of its terminal and no others. -/
theorem next?_brackets {text : List Char} {t : Terminal} {n : Nat} (h : next? text = some (some t, n))
    (ht : t ≠ .string) : HasBracketsOf t (text.take n) := by
  have hnumeral : ∀ c ∈ ['(', '[', '{', ')', ']', '}'], isNumeral c = false := by decide
  have hword : ∀ c ∈ ['(', '[', '{', ')', ']', '}'], isWordRest c = false := by decide
  unfold next? at h
  split at h
  · cases h
    exact absurd rfl ht
  · split at h
    · rename_i hdouble
      cases h
      exact hasBracketsOf_plain (by decide) (fun c hc => no_bracket_of hnumeral (isNumeral_double hdouble c hc))
    · split at h
      · rename_i hinteger
        cases h
        exact hasBracketsOf_plain (by decide) (fun c hc => no_bracket_of hnumeral (isNumeral_integer hinteger c hc))
      · split at h
        · cases h
        · split at h
          · cases h
          · rename_i c rest _ _ _ _
            split at h
            · rename_i hstart
              cases h
              refine hasBracketsOf_plain (Terminal.ofWord_not_symbol _) (fun d hd => no_bracket_of hword ?_)
              rw [List.length_cons, List.take_succ_cons] at hd
              rcases List.mem_cons.mp hd with rfl | hd
              · simp [isWordRest, hstart]
              · have htake := take_run isWordRest rest 0
                rw [Nat.add_zero, List.take_zero, List.append_nil] at htake
                exact List.mem_takeWhile_imp (htake ▸ hd)
            · split at h
              · cases h
              · obtain ⟨⟨t', n'⟩, hsymbol, heq⟩ := Option.map_eq_some_iff.mp h
                cases heq
                simpa using hasBracketsOf_symbol _ (symbol?_spelled hsymbol)

theorem scan_brackets (limit : Nat) (position : Position) (text : List Char) :
    ∀ l ∈ (scan limit position text).lexemes, ∀ t, l.terminal? = some t → t ≠ .string → HasBracketsOf t l.text := by
  induction limit generalizing position text with
  | zero => cases text <;> simp [scan]
  | succ limit ih =>
    cases text with
    | nil => simp [scan]
    | cons c rest =>
      simp only [scan]
      split
      · simp
      · rename_i terminal? length hnext
        refine List.forall_mem_cons.mpr ⟨fun t ht hstring => ?_, ih _ _⟩
        obtain rfl : terminal? = some t := ht
        exact next?_brackets hnext hstring

end Lexer

/-- Without a character at which no token begins, the depth of a text is the number of brackets that are opened
outside of string literals and comments less the number of those that are closed there. -/
theorem bracketDepth_eq {text : String} (h : (lex text).stop = none) :
    bracketDepth text =
      (lex text).code.countP isOpeningBracket - (lex text).code.countP isClosingBracket := by
  have hcount (ls : List Lexeme)
      (hls : ∀ l ∈ ls, ∀ t, l.terminal? = some t → t ≠ .string → HasBracketsOf t l.text) :
      ((ls.filterMap Lexeme.token?).countP (fun t => t.terminal.opens) =
        ((ls.filter Lexeme.isCode).flatMap Lexeme.text).countP isOpeningBracket) ∧
      ((ls.filterMap Lexeme.token?).countP (fun t => t.terminal.closes) =
        ((ls.filter Lexeme.isCode).flatMap Lexeme.text).countP isClosingBracket) := by
    induction ls with
    | nil => exact ⟨rfl, rfl⟩
    | cons l ls ih =>
      obtain ⟨hl, hrest⟩ := List.forall_mem_cons.mp hls
      obtain ⟨hopening, hclosing⟩ := ih hrest
      obtain ⟨terminal?, chars, position⟩ := l
      cases terminal? with
      | none => simpa [Lexeme.token?, Lexeme.isCode] using ⟨hopening, hclosing⟩
      | some t =>
        by_cases ht : t = .string
        · subst ht
          simpa [Lexeme.token?, Lexeme.isCode, show Terminal.opens .string = false from rfl, show Terminal.closes .string = false from rfl] using ⟨hopening, hclosing⟩
        · have hbrackets := hl t rfl ht
          have hcode : Lexeme.isCode ⟨some t, chars, position⟩ = true := by simp [Lexeme.isCode, ht]
          simp only [List.filterMap_cons, Lexeme.token?, Option.map_some, List.filter_cons, hcode, if_true,
            List.flatMap_cons, List.countP_cons, List.countP_append]
          rw [hbrackets.opening, hbrackets.closing, hopening, hclosing]
          exact ⟨Nat.add_comm _ _, Nat.add_comm _ _⟩
  obtain ⟨hopening, hclosing⟩ := hcount (lex text).lexemes (Lexer.scan_brackets _ _ _)
  simp only [bracketDepth, h]
  exact congrArg₂ (· - ·) hopening hclosing

section

variable [Host]

/-- A text that is a program, a list of statements or an expression. -/
inductive IsReadable (text : String) : Prop
  | program {x : Stmt} : parseUnit text = .ok x → IsReadable text
  | statements {xs : List Stmt} : parseStatements text = .ok xs → IsReadable text
  | expression {x : Expr} : parseExpression text = .ok x → IsReadable text

/-- A text that can be read falls into the tokens of a sentence. -/
theorem IsReadable.sentence {text : String} (h : IsReadable text) :
    (lex text).stop = none ∧ ∃ start, Grammar.Sentence start (terminals (lex text).tokens) := by
  have hpiece {read : String → Except SyntaxError Expr} {start : Category} {p : Piece}
      (hp : readPiece read start text = .ok p) :
      (lex text).stop = none ∧ ∃ start, Grammar.Sentence start (terminals (lex text).tokens) := by
    unfold readPiece at hp
    split at hp
    · cases hp
    · rename_i hderive
      exact ⟨(sentence_of_derive hderive).1, start, (sentence_of_derive hderive).2⟩
    · rename_i hderive
      exact ⟨(sentence_of_derive hderive).1, start, (sentence_of_derive hderive).2⟩
  cases h with
  | program hx =>
    unfold parseUnit at hx
    split at hx
    · cases hx
    · exact hpiece ‹_›
  | statements hxs =>
    unfold parseStatements at hxs
    split at hxs
    · cases hxs
    · exact hpiece ‹_›
  | expression hx =>
    rw [parseExpression, embeddingLimit, readExpr] at hx
    split at hx
    · cases hx
    · exact hpiece ‹_›

/-- No bracket is left open at the end of a text that is a program, a list of statements or an expression: those
of its tokens are nested, its depth is zero, and the enter key hands it over. What counts for the depth of
any text are the brackets outside of its string literals, with the expressions that are embedded there, and
outside of comments. -/
theorem readable_texts_leave_nothing_open (text : String) :
    (IsReadable text →
      Nested (terminals (lex text).tokens) ∧ bracketDepth text = 0 ∧ Session.continuation? text = none) ∧
    bracketDepth text =
      if (lex text).stop.isSome then 0
      else (lex text).code.countP isOpeningBracket - (lex text).code.countP isClosingBracket := by
  constructor
  · intro h
    obtain ⟨hstop, start, hsentence⟩ := h.sentence
    have hnested := hsentence.nested
    have hdepth : bracketDepth text = 0 := by
      have hcount := hnested.count
      simp only [terminals, List.countP_map] at hcount
      simp only [bracketDepth, hstop]
      exact Nat.sub_eq_zero_of_le hcount.le
    refine ⟨hnested, hdepth, ?_⟩
    simp [Session.continuation?, hdepth]
  · cases hstop : (lex text).stop with
    | none => simpa using bracketDepth_eq hstop
    | some bad => simp [bracketDepth, hstop]

end

/-- An element of what a call yields: four brackets, all of which are closed. -/
theorem readable_texts_leave_nothing_open_element :
    IsReadable "f ( a ) [ 1 ]" ∧ (lex "f ( a ) [ 1 ]").code.countP isOpeningBracket = 2 ∧
      Nested (terminals (lex "f ( a ) [ 1 ]").tokens) ∧ bracketDepth "f ( a ) [ 1 ]" = 0 ∧
      Session.continuation? "f ( a ) [ 1 ]" = none := by
  have hcall : (Expr.call none (.identifier none "f") [.positional (.identifier none "a")]).Printable :=
    @Expr.Printable.call none _ [.identifier none "a"] (.identifier (by decide)) (by decide) nofun
      (List.forall_mem_singleton.mpr (.identifier (by decide)))
  have helement := Expr.Printable.index (l := none) hcall (by decide) (.intLiteral (l := none) 1)
  obtain ⟨x, hx, -⟩ := readExpr_printed helement (.of_words (by decide)) (embeddingLimit "f ( a ) [ 1 ]" - 1)
  have hreadable : IsReadable "f ( a ) [ 1 ]" := .expression hx
  exact ⟨hreadable, by decide, (readable_texts_leave_nothing_open _).1 hreadable⟩

end Dartlet.Syntax
