import Dartlet.Proofs.Numbers.Digits
import Dartlet.Proofs.Grammar.Acceptance
import Dartlet.Proofs.Program.BuiltExpressions
import Dartlet.Proofs.Program.Meanings
import Dartlet.Proofs.Program.Sentences

/-!
# Printed operator expressions are read back

The text of an operator expression falls back into its words. These are a sentence, so they have a
derivation; what it builds is formed by the words, and they form only one expression. It is built if the host reads as
many digits as each whole number has.
-/

namespace Dartlet.Syntax

open RuleTable
open Grammar (Sentence mem_ruleTable passes sentence_iff)

set_option maxRecDepth 1000

/-- The words of an expression are a sentence. -/
theorem Forms.sentence {ws : List Word} {e : Expr} (h : Forms 0 ws (some e)) :
    Sentence .expression (wordTerminals ws) := by
  have hexpr : ruleTable.Derives [.cat .expr] (wordTerminals ws) := h.derives rfl
  have hpasses : passes .expression .expr ∈ Grammar.rules := by decide
  exact sentence_iff.mpr (.inl (Derives.single (mem_ruleTable.mpr hpasses) hexpr))

/-- A whole number is the only part of the rule in which it stands. -/
theorem rules_integer : ∀ r ∈ Grammar.rules, r.body.contains (.tok .integer) = true →
    r.construct = .intLiteral ∧ r.body = [.tok .integer] := by
  decide

theorem Derivation.AllOf.token {t : Terminal} {parts : List Derivation} (h : AllOf ruleTable [.tok t] parts) :
    ∃ token, token.terminal = t ∧ parts = [.leaf token] := by
  obtain _ | ⟨hd, ⟨⟩⟩ := h
  cases hd with
  | leaf token => exact ⟨token, rfl, rfl⟩

section

variable [Host]

section Read

variable {text : String} {ws : List Word} {e : Expr} (hlex : (lex text).Says ws) (hforms : Forms 0 ws (some e))
  (hoperands : ∀ w ∈ ws, w.IsOperand)

include hlex hforms hoperands

/-- A text whose words form an expression has a derivation of these words. -/
theorem derive_of_forms : ∃ d, derive .expression text = .ok (some d) ∧ d.Of ruleTable (.cat .expression) ∧
    d.words = ws ∧ Derivation.IsOperand d.tokens := by
  obtain ⟨hwords, hstop⟩ := hlex
  have hterminals : terminals (lex text).tokens = wordTerminals ws := by
    rw [wordTerminals, ← hwords, List.map_map]
    rfl
  have hne : (lex text).tokens ≠ [] := by
    obtain ⟨w, rest, hbegins, -⟩ := hforms.begins
    intro hnil
    rw [← hwords, hnil] at hbegins
    cases hbegins
  obtain ⟨d, hread, hof, htokens⟩ := readTokens_of_sentence hne (hterminals ▸ hforms.sentence)
  refine ⟨d, by simp only [derive, hread, hstop], hof, by rw [Derivation.words, htokens]; exact hwords, fun t ht => ?_⟩
  rw [htokens] at ht
  refine ⟨lex_spelled _ t ht, hoperands t.word ?_⟩
  rw [← hwords]
  exact List.mem_map_of_mem ht

/-- A text whose words form an expression is read as that expression at every depth. -/
theorem readExpr_of_forms (depth : Nat) : ∃ x, readExpr (depth + 1) text = .ok x ∧ x.bare = e := by
  obtain ⟨d, hderive, hof, hwords, htokens⟩ := derive_of_forms hlex hforms hoperands
  have hyields : (Symbol.cat .expression).Yields d.words (d.build (readExpr depth)) := Derivation.yields hof htokens
  obtain ⟨x, hformed, hbuilt⟩ := hyields.expr rfl
  rw [hwords] at hformed
  obtain ⟨y, hy, hagrees⟩ := hbuilt e (hformed.unique hforms)
  refine ⟨y, ?_, hagrees.bare⟩
  simp only [readExpr, readPiece, hderive, hy, checkedExpr, hagrees.jumps]

end Read

/-! ### Digits -/

namespace Derivation

variable {read : String → Except SyntaxError Expr}

theorem buildAll_cons_ok {d : Derivation} {parts : List Derivation} {ps : List Piece}
    (h : buildAll read (d :: parts) = .ok ps) : ∃ p qs, build read d = .ok p ∧ buildAll read parts = .ok qs := by
  simp only [buildAll] at h
  split at h
  · cases h
  · split at h
    · cases h
    · exact ⟨_, _, ‹_›, ‹_›⟩

mutual

/-- A derivation from which something is built has only whole numbers that the host reads. -/
theorem Of.digits {s : Symbol} {d : Derivation} (hd : Of ruleTable s d) (hs : s ≠ .tok .integer) {p : Piece}
    (h : d.build read = .ok p) : ∀ t ∈ d.tokens, t.terminal = .integer → Host.refusesNumeral t.text.toList = false := by
  cases hd with
  | leaf t =>
    rintro _ ht hinteger
    obtain rfl := List.mem_singleton.mp ht
    exact absurd (congrArg Symbol.tok hinteger) hs
  | @node r l parts hr hparts =>
    simp only [build] at h
    split at h
    · cases h
    · rename_i ps hps
      by_cases hbody : r.body.contains (.tok .integer) = true
      · obtain ⟨hconstruct, hbody⟩ := rules_integer r (mem_ruleTable.mp hr) hbody
        rw [hbody] at hparts
        obtain ⟨token, -, rfl⟩ := hparts.token
        cases hps
        rw [hconstruct] at h
        rintro _ ht -
        obtain rfl : _ = token := by simpa [tokens, tokensAll] using ht
        exact (integerLiteral_ok h).1
      · exact hparts.digits (by simpa using hbody) hps

theorem AllOf.digits {symbols : List Symbol} {parts : List Derivation} (hparts : AllOf ruleTable symbols parts)
    (hsymbols : .tok .integer ∉ symbols) {ps : List Piece} (h : buildAll read parts = .ok ps) :
    ∀ t ∈ tokensAll parts, t.terminal = .integer → Host.refusesNumeral t.text.toList = false := by
  cases hparts with
  | nil => simp [tokensAll]
  | cons hd hrest =>
    obtain ⟨p, qs, hp, hqs⟩ := buildAll_cons_ok h
    rw [List.mem_cons, not_or] at hsymbols
    intro t ht
    rcases List.mem_append.mp ht with ht | ht
    · exact hd.digits (Ne.symm hsymbols.1) hp t ht
    · exact hrest.digits hsymbols.2 hqs t ht

end

end Derivation

/-- A text that is read as an expression has only whole numbers that the host reads. -/
theorem digits_of_readExpr {depth : Nat} {text : String} {x : Expr} (h : readExpr depth text = .ok x) :
    ∀ t ∈ (lex text).tokens, t.terminal = .integer → Host.refusesNumeral t.text.toList = false := by
  cases depth with
  | zero => cases h
  | succ depth =>
    simp only [readExpr, readPiece] at h
    split at h
    · cases h
    · rename_i piece hpiece
      split at hpiece
      · cases hpiece
      · cases hpiece
        cases h
      · rename_i d hderive
        obtain hnone | ⟨d', ⟨⟩, hof, htokens⟩ := derive_ok hderive
        · cases hnone
        · exact htokens ▸ hof.digits nofun hpiece

theorem refusesNumeral_number (n : Nat) :
    Host.refusesNumeral (Word.number n).text.toList = Host.refusesNumber n := by
  have htext : (Word.number n).text = n.repr := rfl
  rw [htext, Nat.toList_repr, Host.refusesNumeral_toDigits]

/-- Whole numbers in an operator expression that the host writes, and so reads as well. -/
def Expr.IsWithinDigits (e : Expr) : Prop := ∀ n : Nat, Word.number n ∈ e.words → Host.refusesNumber n = false

theorem Word.Occurs.isOperand_iff {w : Word} (h : w.Occurs) :
    w.IsOperand ↔ ∀ n : Nat, w = .number n → Host.refusesNumber n = false := by
  refine ⟨?_, fun hnumber => ⟨h.isOperand, fun hinteger => ?_⟩⟩
  · rintro ⟨-, hdigits⟩ n rfl
    rw [← refusesNumeral_number]
    exact hdigits rfl
  · cases h with
    | name => cases hinteger
    | number n => exact (refusesNumeral_number n).trans (hnumber n rfl)
    | symbol hs =>
      have hsymbols : ∀ s ∈ operatorSymbols, Terminal.ofSymbol s ≠ .integer := by decide
      exact absurd hinteger (hsymbols _ hs)

/-- The text of an operator expression is read back at every depth, if the host reads its whole numbers. -/
theorem readExpr_printed {e : Expr} (h : e.Printable) (hdigits : e.IsWithinDigits) (depth : Nat) :
    ∃ x, readExpr (depth + 1) e.printed = .ok x ∧ x.bare = e.bare :=
  readExpr_of_forms (lex_spaced (fun w hw => (h.occurs w hw).separable))
    (h.forms.lower_le e.level_le (Nat.zero_le _))
    (fun w hw => (h.occurs w hw).isOperand_iff.mpr (fun n hn => hdigits n (hn ▸ hw))) depth

/-- A whole number that the host reads is read as a literal. -/
theorem readExpr_number {n : Nat} (hn : Host.refusesNumber n = false) (depth : Nat) :
    ∃ l, readExpr (depth + 1) n.repr = .ok (.intLiteral l n) := by
  have hdigits : (Expr.intLiteral none n).IsWithinDigits := by
    intro k hk
    rwa [← refusesNumeral_number, List.mem_singleton.mp hk, refusesNumeral_number]
  have hprinted : (Expr.intLiteral none n).printed = n.repr := rfl
  obtain ⟨x, hx, hbare⟩ := readExpr_printed (.intLiteral n) hdigits depth
  rw [hprinted] at hx
  cases x <;> cases hbare
  exact ⟨_, hx⟩

/-- An operator expression whose text is read has only whole numbers that the host reads. -/
theorem Expr.Printable.isWithinDigits {e x : Expr} (h : e.Printable) (hx : parseExpression e.printed = .ok x) :
    e.IsWithinDigits := by
  intro n hn
  have hwords : (lex e.printed).tokens.map Token.word = e.words :=
    (lex_spaced (fun w hw => (h.occurs w hw).separable)).1
  rw [← hwords] at hn
  obtain ⟨t, ht, hword⟩ := List.mem_map.mp hn
  have hread := digits_of_readExpr hx t ht (congrArg Word.terminal hword)
  have htext : t.text = (Word.number n).text := congrArg Word.text hword
  rwa [htext, refusesNumeral_number] at hread

theorem Expr.IsWithinDigits.of_words {e : Expr}
    (h : ∀ w ∈ e.words, w.terminal = .integer → Host.refusesNumeral w.text.toList = false) : e.IsWithinDigits :=
  fun n hn => (refusesNumeral_number n).symm.trans (h _ hn rfl)

/-- Writing the words of an operator expression with single blanks between them and reading the text as an
expression gives the same expression up to positions, if the host reads as many digits as each whole number has. A text
with more digits is not read. -/
theorem printed_expressions_are_read_back {e : Expr} (h : e.Printable) :
    (∃ x, parseExpression e.printed = .ok x ∧ x.bare = e.bare) ↔ e.IsWithinDigits := by
  refine ⟨?_, fun hdigits => readExpr_printed h hdigits _⟩
  rintro ⟨x, hx, -⟩
  exact h.isWithinDigits hx

end

/-- An expression with operators of many levels is read back; a whole number with one digit too many is not. -/
theorem printed_expressions_are_read_back_mixed :
    let call := Expr.methodCall none (.index none (.identifier none "b") (.intLiteral none 0)) "f"
      [.positional (.identifier none "c"), .positional (.intLiteral none 1)]
    let e := Expr.binary none .add (.identifier none "a")
      (.binary none .mul (.intLiteral none 2) (.unary none .negate call))
    let long := Expr.intLiteral none ((10 ^ 4300 : Nat) : Int)
    e.Printable ∧ e.printed = "a + 2 * - b [ 0 ] . f ( c , 1 )" ∧
      (∃ x, parseExpression "a + 2 * - b [ 0 ] . f ( c , 1 )" = .ok x ∧ x.bare = e) ∧
      long.Printable ∧ ¬∃ x, parseExpression long.printed = .ok x ∧ x.bare = long := by
  intro call e long
  have hname {s : String} (h : isName s = true) : (Expr.identifier none s).Printable := .identifier h
  have harguments : ∀ x ∈ [Expr.identifier none "c", .intLiteral none 1], x.Printable := by
    simpa using ⟨hname (by decide), .intLiteral 1⟩
  have hcall : call.Printable :=
    .methodCall (.index (hname (by decide)) (by decide) (.intLiteral 0)) (by decide) (by decide) harguments
  have hproduct : (Expr.binary none .mul (.intLiteral none 2) (.unary none .negate call)).Printable :=
    .binary (.intLiteral 2) (.unary hcall (.inl rfl) (by decide)) (by decide) (by decide) (by decide)
  have he : e.Printable := .binary (hname (by decide)) hproduct (by decide) (by decide) (by decide)
  have hprinted : e.printed = "a + 2 * - b [ 0 ] . f ( c , 1 )" := by decide
  have hread := (printed_expressions_are_read_back he).mpr (.of_words (by decide))
  rw [hprinted] at hread
  have hlong : long.Printable := .intLiteral _
  refine ⟨he, hprinted, hread, hlong, fun hread => ?_⟩
  have hword (n : Nat) : Word.number n ∈ (Expr.intLiteral none n).words := List.mem_cons_self
  have hshort : Host.refusesNumber ((10 ^ 4300 : Nat) : Int) = false :=
    (printed_expressions_are_read_back hlong).mp hread _ (hword _)
  rw [Host.refusesNumber_standard] at hshort
  exact Bool.noConfusion hshort

/-- A text that is read as an expression. -/
theorem exists_difference : ∃ x, parseExpression "a - b - 1" = .ok x := by
  have hname {s : String} (h : isName s = true) : (Expr.identifier none s).Printable := .identifier h
  have hinner : (Expr.binary none .sub (.identifier none "a") (.identifier none "b")).Printable :=
    .binary (hname (by decide)) (hname (by decide)) (by decide) (by decide) (by decide)
  have houter : (Expr.binary none .sub (.binary none .sub (.identifier none "a") (.identifier none "b"))
      (.intLiteral none 1)).Printable :=
    .binary hinner (.intLiteral 1) (by decide) (by decide) (by decide)
  have hprinted : Expr.printed (.binary none .sub (.binary none .sub (.identifier none "a") (.identifier none "b"))
      (.intLiteral none 1)) = "a - b - 1" := by decide
  obtain ⟨x, hx, -⟩ := readExpr_printed houter (.of_words (by decide)) (embeddingLimit "a - b - 1" - 1)
  rw [hprinted] at hx
  exact ⟨x, hx⟩

end Dartlet.Syntax
