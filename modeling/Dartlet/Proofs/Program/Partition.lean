import Dartlet.Proofs.Program.Lexicon
import Dartlet.Proofs.Grammar.Acceptance

/-!
# How a text falls into lexemes

Cutting takes one lexeme after the other from the front of what is left, up to the end or to a character at which none
begins. So the lexemes in order make up the text, and where each of them stands is counted from the text before it.
-/

namespace Dartlet.Syntax

namespace Position

/-- The place right after a text. Its line is one more than the line feeds of the text, its column one more than the
characters after the last of them. -/
def rightAfter (before : List Char) : Position :=
  ⟨1 + before.count '\n', 1 + (before.reverse.takeWhile (· != '\n')).length⟩

theorem step_rightAfter (before : List Char) (c : Char) : (rightAfter before).step c = rightAfter (before ++ [c]) := by
  by_cases hc : c = '\n'
  · simp [step, rightAfter, hc, Nat.add_assoc]
  · simp [step, rightAfter, hc, Nat.add_assoc]

theorem after_rightAfter (before text : List Char) : (rightAfter before).after text = rightAfter (before ++ text) := by
  induction text generalizing before with
  | nil => simp
  | cons c text ih => rw [after_cons, step_rightAfter, ih, List.append_assoc, List.singleton_append]

end Position

namespace Lexer

open Position (rightAfter)

/-- No lexeme is empty: at a character where none begins, not even an empty one does. -/
theorem ne_nil_of_mem_language {terminal? : Option Terminal} {w : List Char} (hw : w ∈ language terminal?) : w ≠ [] := by
  have hstray : IsStray '#' [] := isStray_of_next? (by decide)
  rintro rfl
  exact hstray.not_front terminal? [] hw List.nil_prefix

/-- Lexemes one after the other, right after a text: each has a text of its kind and stands where the text before it
ends. -/
inductive Consecutive : List Char → List Lexeme → Prop
  | nil (before : List Char) : Consecutive before []
  | cons {before : List Char} {x : Lexeme} {xs : List Lexeme} : x.text ∈ language x.terminal? →
    x.position = rightAfter before → Consecutive (before ++ x.text) xs → Consecutive before (x :: xs)

theorem Consecutive.at {before : List Char} {front back : List Lexeme} {x : Lexeme}
    (h : Consecutive before (front ++ x :: back)) :
    x.text ∈ language x.terminal? ∧ x.position = rightAfter (before ++ front.flatMap Lexeme.text) := by
  induction front generalizing before with
  | nil =>
    cases h with
    | cons htext hposition => exact ⟨htext, by simpa using hposition⟩
  | cons y front ih =>
    cases h with
    | cons _ _ hrest => simpa [List.append_assoc] using ih hrest

/-- What is left of a text when lexemes have been cut from it: nothing, or a character at which none begins, and what
follows it. -/
structure Leaves (before : List Char) (l : Lexed) (rest : List Char) : Prop where
  consecutive : Consecutive before l.lexemes
  stop : l.stop = rest.head?.map (fun c => ⟨c, rightAfter (before ++ l.lexemes.flatMap Lexeme.text)⟩)
  stray : ∀ terminal?, ∀ w ∈ language terminal?, ¬ w <+: rest

theorem leaves_nil (before : List Char) : Leaves before ⟨[], none⟩ [] := by
  refine ⟨.nil before, rfl, fun terminal? w hw hfront => ne_nil_of_mem_language hw ?_⟩
  exact List.prefix_nil.mp hfront

theorem leaves_scan {limit : ℕ} (before : List Char) {text : List Char} (hlimit : text.length ≤ limit) :
    ∃ rest, (scan limit (rightAfter before) text).lexemes.flatMap Lexeme.text ++ rest = text ∧
      Leaves before (scan limit (rightAfter before) text) rest := by
  induction limit generalizing before text with
  | zero =>
    obtain rfl := List.length_eq_zero_iff.mp (Nat.le_zero.mp hlimit)
    exact ⟨[], rfl, leaves_nil before⟩
  | succ limit ih =>
    cases text with
    | nil => exact ⟨[], rfl, leaves_nil before⟩
    | cons c text =>
      simp only [scan]
      split
      · rename_i hnone
        refine ⟨c :: text, rfl, .nil before, by simp, (isStray_of_next? hnone).not_front⟩
      · rename_i terminal? n hnext
        obtain ⟨w, hw, more, hmore, rfl⟩ := fronts_next? hnext
        have hlength : more.length ≤ limit := by
          have hpos := List.length_pos_iff.mpr (ne_nil_of_mem_language hw)
          have htotal := congrArg List.length hmore
          simp only [List.length_append, List.length_cons] at htotal hlimit
          omega
        obtain ⟨rest, htext, hleaves⟩ := ih (before ++ w) hlength
        rw [hmore, List.take_left, List.drop_left, Position.after_rightAfter]
        refine ⟨rest, ?_, .cons hw rfl hleaves.consecutive, ?_, hleaves.stray⟩
        · rw [List.flatMap_cons, List.append_assoc, htext]
        · rw [hleaves.stop, List.flatMap_cons, List.append_assoc]

theorem leaves_lex (text : String) :
    ∃ rest, (lex text).lexemes.flatMap Lexeme.text ++ rest = text.toList ∧ Leaves [] (lex text) rest :=
  leaves_scan [] (Nat.le_refl text.toList.length)

/-- A token is one of the lexemes. -/
theorem exists_lexeme_of_token {l : Lexed} {t : Token} (ht : t ∈ l.tokens) :
    ∃ front x back, l.lexemes = front ++ x :: back ∧ x.terminal? = some t.terminal ∧ x.text = t.text.toList ∧
      x.position = t.position := by
  obtain ⟨x, hx, htoken⟩ := List.mem_filterMap.mp ht
  obtain ⟨terminal, hterminal, rfl⟩ := Option.map_eq_some_iff.mp htoken
  obtain ⟨front, back, hlexemes⟩ := List.append_of_mem hx
  exact ⟨front, x, back, hlexemes, hterminal, String.toList_ofList.symm, rfl⟩

/-- The text of a token is one of its terminal. -/
theorem mem_language_of_token {text : String} {t : Token} (ht : t ∈ (lex text).tokens) :
    t.text.toList ∈ language (some t.terminal) := by
  obtain ⟨rest, -, hleaves⟩ := leaves_lex text
  obtain ⟨front, x, back, hlexemes, hterminal, htext, -⟩ := exists_lexeme_of_token ht
  rw [← hterminal, ← htext]
  exact (Consecutive.at (hlexemes ▸ hleaves.consecutive)).1

end Lexer

/-- What is complained about, if a text does not fall into lexemes, is a token that does not fit or the character at
which none begins. -/
theorem derive_of_stop {text : String} {bad : BadCharacter} (h : (lex text).stop = some bad) (start : Category) :
    (∃ t ∈ (lex text).tokens, derive start text = .error ⟨.unexpectedToken t.text, some t.position⟩) ∨
      derive start text = .error ⟨.unexpectedCharacter bad.char, some bad.position⟩ := by
  have hbad (hread : ∀ t, readTokens start (lex text).tokens ≠ .unexpectedToken t) :
      derive start text = .error ⟨.unexpectedCharacter bad.char, some bad.position⟩ := by
    unfold derive
    dsimp only
    rw [h]
    split <;> simp_all
  obtain ⟨k, -, ⟨t, ht, hread⟩ | ⟨-, -, ⟨-, hread⟩ | ⟨d, hread, -⟩⟩ | ⟨-, -, hread⟩⟩ :=
    readTokens_cases start (lex text).tokens
  · exact .inl ⟨t, List.mem_of_getElem? ht, by simp only [derive, hread]⟩
  · exact .inr (hbad (by simp [hread]))
  · exact .inr (hbad (by simp [hread]))
  · exact .inr (hbad (by simp [hread]))

theorem stop_of_derive {text : String} {start : Category} {c : Char} {l : Location}
    (h : derive start text = .error ⟨.unexpectedCharacter c, l⟩) : ∃ p, l = some p ∧ (lex text).stop = some ⟨c, p⟩ := by
  unfold derive at h
  dsimp only at h
  split at h
  · cases h
  · rename_i bad hstop _
    cases h
    exact ⟨bad.position, rfl, hstop⟩
  · cases h
  · cases h

/-- Every text is what its lexemes say in order, and a rest. No lexeme is empty; each has a text of its kind, tokens and
what is skipped alike, and the place that is counted from the text before it. So each token stands in the text where it
says. If the text falls into lexemes there is no rest; otherwise the rest begins with the bad character, whose place is
counted in the same way, and no text of any kind is at its front. The bad character is complained about, unless a token
before it is, and no other character ever is. -/
theorem lexemes_partition_texts (text : String) :
    ∃ rest : List Char,
      (lex text).lexemes.flatMap Lexeme.text ++ rest = text.toList ∧
      (∀ front x back, (lex text).lexemes = front ++ x :: back →
        x.text ≠ [] ∧ x.text ∈ Lexer.language x.terminal? ∧
          x.position = .rightAfter (front.flatMap Lexeme.text)) ∧
      (∀ t ∈ (lex text).tokens, t.text ≠ "" ∧ ∃ before after,
        text.toList = before ++ t.text.toList ++ after ∧ t.position = .rightAfter before) ∧
      ((lex text).stop = none ↔ rest = []) ∧
      (∀ bad, (lex text).stop = some bad →
        rest.head? = some bad.char ∧ bad.position = .rightAfter ((lex text).lexemes.flatMap Lexeme.text) ∧
        (∀ terminal?, ∀ w ∈ Lexer.language terminal?, ¬ w <+: rest) ∧
        ∀ start, (∃ t ∈ (lex text).tokens, derive start text = .error ⟨.unexpectedToken t.text, some t.position⟩) ∨
          derive start text = .error ⟨.unexpectedCharacter bad.char, some bad.position⟩) ∧
      ∀ start c l, derive start text = .error ⟨.unexpectedCharacter c, l⟩ →
        ∃ p, l = some p ∧ (lex text).stop = some ⟨c, p⟩ := by
  obtain ⟨rest, htext, hleaves⟩ := Lexer.leaves_lex text
  have hat {front back : List Lexeme} {x : Lexeme} (hx : (lex text).lexemes = front ++ x :: back) :
      x.text ∈ Lexer.language x.terminal? ∧ x.position = .rightAfter (front.flatMap Lexeme.text) :=
    Lexer.Consecutive.at (hx ▸ hleaves.consecutive)
  refine ⟨rest, htext, fun front x back hx => ?lexeme, fun t ht => ?token, ?stop, fun bad hbad => ?bad,
    fun start c l h => stop_of_derive h⟩
  case lexeme => exact ⟨Lexer.ne_nil_of_mem_language (hat hx).1, hat hx⟩
  case token =>
    obtain ⟨front, x, back, hlexemes, -, hx, hplace⟩ := Lexer.exists_lexeme_of_token ht
    obtain ⟨hlanguage, hposition⟩ := hat hlexemes
    have hne : t.text.toList ≠ [] := hx ▸ Lexer.ne_nil_of_mem_language hlanguage
    refine ⟨by simpa using hne, front.flatMap Lexeme.text, back.flatMap Lexeme.text ++ rest, ?_, hplace ▸ hposition⟩
    rw [← htext, hlexemes, ← hx]
    simp
  case stop =>
    rw [hleaves.stop]
    simp
  case bad =>
    rw [hleaves.stop] at hbad
    obtain ⟨c, hc, rfl⟩ := Option.map_eq_some_iff.mp hbad
    exact ⟨hc, rfl, hleaves.stray, derive_of_stop (hleaves.stop.trans hbad)⟩

example : (lex "/*\n*/ a #").stop = some ⟨'#', ⟨2, 6⟩⟩ := by decide

end Dartlet.Syntax
