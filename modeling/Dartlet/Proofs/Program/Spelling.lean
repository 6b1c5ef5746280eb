import Dartlet.Syntax.Lexer

/-!
# How tokens are spelled

A token whose terminal is a symbol has that symbol as its text: literals and words never get the
terminal of a symbol, and a symbol is cut off at its own length.
-/

namespace Dartlet.Syntax

/-- A token that has the text of its terminal, if that is a symbol. -/
def Token.Spelled (t : Token) : Prop :=
  t.terminal ∈ Terminal.symbols.map Prod.snd → (t.text, t.terminal) ∈ Terminal.symbols

theorem Terminal.ofWord_not_symbol (word : String) : Terminal.ofWord word ∉ symbols.map Prod.snd := by
  unfold ofWord
  split
  · rename_i entry hentry
    have h : ∀ entry ∈ keywords, entry.2 ∉ symbols.map Prod.snd := by decide
    exact h entry (List.mem_of_find?_eq_some hentry)
  · decide

namespace Lexer

theorem symbol?_spelled {text : List Char} {t : Terminal} {n : Nat} (h : symbol? text = some (t, n)) :
    (String.ofList (text.take n), t) ∈ Terminal.symbols := by
  unfold symbol? at h
  split at h
  · rename_i entry hentry
    cases h
    have hprefix := List.isPrefixOf_iff_prefix.mp (List.find?_some hentry :)
    have htake : text.take entry.1.length = entry.1.toList := by
      rw [← String.length_toList]
      exact (List.prefix_iff_eq_take.mp hprefix).symm
    rw [htake, String.ofList_toList]
    exact List.mem_of_find?_eq_some hentry
  · cases h

theorem next?_spelled {text : List Char} {t : Terminal} {n : Nat} (h : next? text = some (some t, n))
    (ht : t ∈ Terminal.symbols.map Prod.snd) : (String.ofList (text.take n), t) ∈ Terminal.symbols := by
  unfold next? at h
  split at h
  · cases h
    exact absurd ht (by decide)
  · split at h
    · cases h
      exact absurd ht (by decide)
    · split at h
      · cases h
        exact absurd ht (by decide)
      · split at h
        · cases h
        · split at h
          · cases h
          · split at h
            · cases h
              exact absurd ht (Terminal.ofWord_not_symbol _)
            · split at h
              · cases h
              · obtain ⟨⟨t', n'⟩, hsymbol, heq⟩ := Option.map_eq_some_iff.mp h
                cases heq
                exact symbol?_spelled hsymbol

theorem scan_spelled (limit : Nat) (position : Position) (text : List Char) :
    ∀ t ∈ (scan limit position text).tokens, t.Spelled := by
  induction limit generalizing position text with
  | zero => cases text <;> simp [scan, Lexed.tokens]
  | succ limit ih =>
    cases text with
    | nil => simp [scan, Lexed.tokens]
    | cons c rest =>
      simp only [scan]
      split
      · simp [Lexed.tokens]
      · rename_i terminal? length hnext
        intro t ht
        simp only [Lexed.tokens, List.filterMap_cons] at ht
        cases terminal? with
        | none => exact ih _ _ t (by simpa [Lexeme.token?, Lexed.tokens] using ht)
        | some terminal =>
          simp only [Lexeme.token?, Option.map_some, List.mem_cons] at ht
          rcases ht with rfl | ht
          · exact fun hs => next?_spelled hnext hs
          · exact ih _ _ t ht

end Lexer

theorem lex_spelled (text : String) : ∀ t ∈ (lex text).tokens, t.Spelled :=
  Lexer.scan_spelled _ _ _

end Dartlet.Syntax
