import Dartlet.Proofs.Grammar.Flattening
import Dartlet.Syntax.Parse

/-!
# What the reader accepts

Reading a list of tokens succeeds exactly for the sentences of the grammar. Where it fails, it
complains about the first token that no sentence has after the tokens before it; if there is none,
the tokens end too early.
-/

namespace Dartlet.Syntax

open RuleTable Grammar

variable {start : Category} {tokens : List Token}

/-- The terminals of some tokens. -/
def terminals (tokens : List Token) : List Terminal := tokens.map Token.terminal

/-- Terminals that begin a sentence. -/
def Grammar.Viable (start : Category) (x : List Terminal) : Prop := ∃ z, Sentence start (x ++ z)

theorem Grammar.viable_iff {x : List Terminal} : Viable start x ↔ ruleTable.Begins start x := by
  constructor
  · rintro ⟨z, hz⟩
    rcases sentence_iff.mp hz with h | ⟨hnil, -⟩
    · exact ⟨z, h⟩
    · obtain ⟨w, hw⟩ := proper_ruleTable.productive start
      exact ⟨w, by simpa [(List.append_eq_nil_iff.mp hnil).1] using hw⟩
  · rintro ⟨z, hz⟩
    exact ⟨z, sentence_iff.mpr (.inl hz)⟩

theorem Grammar.Viable.of_append {x y : List Terminal} (h : Viable start (x ++ y)) : Viable start x := by
  obtain ⟨z, hz⟩ := h
  exact ⟨y ++ z, by simpa using hz⟩

theorem hasRead_all (start : Category) (tokens : List Token) :
    ruleTable.HasRead start (terminals tokens)
      (ruleTable.readAll #[ruleTable.firstSet start] (terminals tokens)).1
      (ruleTable.readAll #[ruleTable.firstSet start] (terminals tokens)).2 := by
  refine readAll_hasRead proper_ruleTable (faithful_first proper_ruleTable start _) ?_ _ rfl
  simpa [Begins] using proper_ruleTable.productive start

/-- A chart that has read all tokens has a complete reading of the start exactly if the tokens are
derived from it. -/
theorem spans_iff {sets : ItemSets} (h : Chart.Full ruleTable start tokens sets) :
    Chart.Spans ruleTable sets start 0 tokens.length ↔ ruleTable.Derives [.cat start] (terminals tokens) := by
  have hp : tokens.length < sets.size := by
    rw [h.size]
    omega
  constructor
  · rintro ⟨i, hi, hc, horigin⟩
    obtain ⟨r, u, v, hv, -⟩ := h.valid hp hi
    have hnil : u = [] := List.length_eq_zero_iff.mp (hv.origin ▸ horigin)
    have hword := hv.word
    rw [List.take_of_length_le (by simp), hnil, List.nil_append] at hword
    rw [terminals, hword]
    exact (hv.complete hc).2
  · intro hw
    obtain ⟨r, hr, rfl, hbody⟩ := hw.of_single
    obtain ⟨n, hn⟩ := exists_rule hr
    have hvalid : ruleTable.Valid r.head (terminals tokens) ⟨n, r.body.length, 0⟩ r [] (terminals tokens) :=
      ⟨hn, le_rfl, rfl, rfl, .start, by simpa using hbody⟩
    refine ⟨_, h.mem hp hvalid ?_, ?_, rfl⟩
    · rw [terminals, List.take_of_length_le (by simp)]
    · simp [completed?, next?, body_eq hn, head?_eq hn]

/-- A derivation is found only where there is a complete reading. -/
theorem Chart.spans_of_derive? {g : RuleTable} {sets : ItemSets} {depth low high : Nat} {c : Category}
    {d : Derivation} (h : Chart.derive? ⟨g, tokens.toArray, sets⟩ depth c low high = some d) :
    Chart.Spans g sets c low high := by
  cases depth with
  | zero => cases h
  | succ depth =>
    simp only [Chart.derive?] at h
    split at h
    · cases h
    · rename_i number r hrule
      simp only [Chart.ruleFor?] at hrule
      split at hrule
      · rename_i n hfind
        obtain ⟨r', hr', rfl⟩ := mem_rulesFor.mp (List.mem_of_find?_eq_some hfind)
        have hitem : ⟨n, (g.body n).length, low⟩ ∈ itemsAt sets high :=
          List.contains_iff_mem.mp (List.find?_some hfind :)
        exact ⟨_, hitem, by simp [completed?, next?, head?_eq hr'], rfl⟩
      · cases hrule

/-- The depth that charts allow suffices for a derivation of all tokens. -/
theorem Chart.derive?_whole {sets : ItemSets} (h : Chart.Full ruleTable start tokens sets)
    (hspans : Chart.Spans ruleTable sets start 0 tokens.length) :
    ∃ d, Chart.derive? ⟨ruleTable, tokens.toArray, sets⟩ (Chart.depthLimit ⟨ruleTable, tokens.toArray, sets⟩) start 0
      tokens.length = some d ∧ d.Of ruleTable (.cat start) ∧ d.tokens = tokens := by
  have hsize := h.size
  have hdepth : (tokens.length - 0) * (ruleTable.rules.size + 1) + rank start <
      Chart.depthLimit ⟨ruleTable, tokens.toArray, sets⟩ := by
    have hrank := ranked_ruleTable.bounded start
    simp only [Chart.depthLimit, List.size_toArray, Nat.sub_zero, Nat.add_mul, Nat.one_mul]
    omega
  obtain ⟨d, hd, hof, htokens⟩ := Chart.derive?_finds h proper_ruleTable ranked_ruleTable (by omega) hspans hdepth
  refine ⟨d, hd, hof, ?_⟩
  rw [htokens, stretch, List.drop_zero, Nat.sub_zero, List.take_length]

/-- The number of terminals at the beginning of a list that begin a sentence, at most. -/
structure Grammar.LongestViable (start : Category) (w : List Terminal) (k : Nat) : Prop where
  le : k ≤ w.length
  viable : Viable start (w.take k)
  longest : ∀ j ≤ w.length, Viable start (w.take j) → j ≤ k

theorem Grammar.longestViable_of_stuck {w : List Terminal} {k : Nat} (hk : k < w.length)
    (hviable : Viable start (w.take k)) (hstuck : ¬Viable start (w.take (k + 1))) : LongestViable start w k := by
  refine ⟨hk.le, hviable, fun j _ hj => Nat.le_of_not_lt (fun hlt => hstuck ?_)⟩
  have htake : w.take j = w.take (k + 1) ++ (w.take j).drop (k + 1) := by
    have hsplit := (List.take_append_drop (k + 1) (w.take j)).symm
    rwa [List.take_take, Nat.min_eq_left hlt] at hsplit
  exact (htake ▸ hj).of_append

/-- What reading tokens comes to: a token that does not fit, a sentence with its derivation, or an end
that comes too early. -/
theorem readTokens_cases (start : Category) (tokens : List Token) :
    ∃ k, LongestViable start (terminals tokens) k ∧
      ((∃ t, tokens[k]? = some t ∧ readTokens start tokens = .unexpectedToken t) ∨
        k = tokens.length ∧ Sentence start (terminals tokens) ∧
          (tokens = [] ∧ readTokens start tokens = .sentence none ∨
            ∃ d, readTokens start tokens = .sentence (some d) ∧ d.Of ruleTable (.cat start) ∧ d.tokens = tokens) ∨
        k = tokens.length ∧ ¬Sentence start (terminals tokens) ∧ readTokens start tokens = .unexpectedEnd) := by
  have hread := hasRead_all start tokens
  unfold readTokens
  rw [← terminals]
  generalize ruleTable.readAll #[ruleTable.firstSet start] (terminals tokens) = read at hread ⊢
  obtain ⟨sets, left⟩ := read
  dsimp only at hread
  have hpos := hread.faithful.pos
  have hsize := hread.faithful.size
  have hlength : (terminals tokens).length = tokens.length := List.length_map _
  have hleft : tokens.length - left.length = sets.size - 1 := by
    rw [← hread.left, List.length_drop]
    omega
  have hviable : Viable start ((terminals tokens).take (sets.size - 1)) := viable_iff.mpr hread.begins
  simp only [hleft]
  refine ⟨sets.size - 1, ?_⟩
  cases htoken : tokens[sets.size - 1]? with
  | some t =>
    have hlt := (List.getElem?_eq_some_iff.mp htoken).1
    have hstuck := hread.stuck (by omega)
    rw [← viable_iff, ← Nat.sub_add_cancel hpos] at hstuck
    exact ⟨longestViable_of_stuck (by omega) hviable hstuck, .inl ⟨t, rfl, rfl⟩⟩
  | none =>
    have hend : sets.size - 1 = tokens.length := by
      have := List.getElem?_eq_none_iff.mp htoken
      omega
    have hfull : Chart.Full ruleTable start tokens sets := ⟨hread.faithful, by omega⟩
    refine ⟨⟨by omega, hviable, fun j hj _ => by omega⟩, .inr ?_⟩
    dsimp only
    split
    · rename_i hempty
      simp only [Bool.and_eq_true, List.isEmpty_iff] at hempty
      exact .inl ⟨hend, sentence_iff.mpr (.inr ⟨by rw [hempty.1]; rfl, hempty.2⟩), .inl ⟨hempty.1, rfl⟩⟩
    · rename_i hnonempty
      by_cases hspans : Chart.Spans ruleTable sets start 0 tokens.length
      · obtain ⟨d, hd, hof, htokens⟩ := Chart.derive?_whole hfull hspans
        exact .inl ⟨hend, sentence_iff.mpr (.inl ((spans_iff hfull).mp hspans)), .inr ⟨d, by rw [hd], hof, htokens⟩⟩
      · refine .inr ⟨hend, fun hsentence => ?_, ?_⟩
        · rcases sentence_iff.mp hsentence with hderives | ⟨hnil, hempty⟩
          · exact hspans ((spans_iff hfull).mpr hderives)
          · exact hnonempty (by simp [List.map_eq_nil_iff.mp hnil, hempty])
        · split
          · rename_i d hd
            exact absurd (Chart.spans_of_derive? hd) hspans
          · rfl

/-- The tokens of a sentence have a derivation. -/
theorem readTokens_of_sentence (hne : tokens ≠ []) (h : Sentence start (terminals tokens)) :
    ∃ d, readTokens start tokens = .sentence (some d) ∧ d.Of ruleTable (.cat start) ∧ d.tokens = tokens := by
  obtain ⟨k, hk, ⟨t, ht, -⟩ | ⟨-, -, ⟨hnil, -⟩ | hread⟩ | ⟨-, hmisfit, -⟩⟩ := readTokens_cases start tokens
  · have hle := hk.longest _ le_rfl ⟨[], by simpa using h⟩
    have hlt := (List.getElem?_eq_some_iff.mp ht).1
    rw [terminals, List.length_map] at hle
    omega
  · exact absurd hnil hne
  · exact hread
  · exact absurd h hmisfit

theorem readTokens_of_derive {text : String} {d : Option Derivation} (h : derive start text = .ok d) :
    readTokens start (lex text).tokens = .sentence d := by
  unfold derive at h
  dsimp only at h
  split at h
  · cases h
  · cases h
  · cases h
  · rename_i hread _
    cases h
    exact hread

/-- A text that is read has a derivation of all its tokens, unless it has none and may be empty. -/
theorem derive_ok {text : String} {d : Option Derivation} (h : derive start text = .ok d) :
    d = none ∨ ∃ d', d = some d' ∧ d'.Of ruleTable (.cat start) ∧ d'.tokens = (lex text).tokens := by
  have hsentence := readTokens_of_derive h
  obtain ⟨k, -, ⟨t, -, hread⟩ | ⟨-, -, hread⟩ | ⟨-, -, hread⟩⟩ := readTokens_cases start (lex text).tokens
  · rw [hsentence] at hread
    cases hread
  · rcases hread with ⟨-, hread⟩ | ⟨d', hread, hof, htokens⟩
    · rw [hsentence] at hread
      cases hread
      exact .inl rfl
    · rw [hsentence] at hread
      cases hread
      exact .inr ⟨d', rfl, hof, htokens⟩
  · rw [hsentence] at hread
    cases hread

/-- A text that is read falls into tokens up to its end, and they are a sentence. -/
theorem sentence_of_derive {text : String} {d : Option Derivation} (h : derive start text = .ok d) :
    (lex text).stop = none ∧ Sentence start (terminals (lex text).tokens) := by
  have hsentence := readTokens_of_derive h
  constructor
  · unfold derive at h
    dsimp only at h
    split at h
    · cases h
    · cases h
    · cases h
    · assumption
  · obtain ⟨k, -, ⟨t, -, hread⟩ | ⟨-, hall, -⟩ | ⟨-, -, hread⟩⟩ := readTokens_cases start (lex text).tokens
    · rw [hsentence] at hread
      cases hread
    · exact hall
    · rw [hsentence] at hread
      cases hread

/-- For every list of tokens: reading it succeeds exactly if it is a sentence; otherwise, of all its
beginnings that begin sentences, the longest one ends before the token that is complained about, or
is the whole list, and then the end is. The same holds of texts, except that a character at which no
token begins is the complaint if all tokens before it begin a sentence. -/
theorem reader_accepts_exactly_sentences (start : Category) :
    (∀ tokens : List Token, ∃ k, LongestViable start (terminals tokens) k ∧
      ((∃ t, tokens[k]? = some t ∧ ¬Sentence start (terminals tokens) ∧
          readTokens start tokens = .unexpectedToken t) ∨
        (k = tokens.length ∧ Sentence start (terminals tokens) ∧ ∃ d, readTokens start tokens = .sentence d) ∨
        (k = tokens.length ∧ ¬Sentence start (terminals tokens) ∧ readTokens start tokens = .unexpectedEnd))) ∧
    ∀ text : String, ∃ k, LongestViable start (terminals (lex text).tokens) k ∧
      ((∃ t, (lex text).tokens[k]? = some t ∧ ¬Sentence start (terminals (lex text).tokens) ∧
          derive start text = .error ⟨.unexpectedToken t.text, some t.position⟩) ∨
        (k = (lex text).tokens.length ∧ ∃ bad, (lex text).stop = some bad ∧
          derive start text = .error ⟨.unexpectedCharacter bad.char, some bad.position⟩) ∨
        (k = (lex text).tokens.length ∧ (lex text).stop = none ∧ Sentence start (terminals (lex text).tokens) ∧
          ∃ d, derive start text = .ok d) ∨
        (k = (lex text).tokens.length ∧ (lex text).stop = none ∧ ¬Sentence start (terminals (lex text).tokens) ∧
          derive start text = .error ⟨.unexpectedEnd, none⟩)) := by
  have hmisfit {tokens : List Token} {k : Nat} {t : Token} (hk : LongestViable start (terminals tokens) k)
      (ht : tokens[k]? = some t) : ¬Sentence start (terminals tokens) := by
    intro hsentence
    have hall : Viable start ((terminals tokens).take (terminals tokens).length) := ⟨[], by simpa using hsentence⟩
    have hle := hk.longest _ le_rfl hall
    have hlt := (List.getElem?_eq_some_iff.mp ht).1
    rw [terminals, List.length_map] at hle
    omega
  refine ⟨fun tokens => ?_, fun text => ?_⟩
  · obtain ⟨k, hk, ⟨t, ht, hread⟩ | ⟨hend, hsentence, hread⟩ | hend⟩ := readTokens_cases start tokens
    · exact ⟨k, hk, .inl ⟨t, ht, hmisfit hk ht, hread⟩⟩
    · refine ⟨k, hk, .inr (.inl ⟨hend, hsentence, ?_⟩)⟩
      rcases hread with ⟨-, hread⟩ | ⟨d, hread, -⟩
      · exact ⟨none, hread⟩
      · exact ⟨some d, hread⟩
    · exact ⟨k, hk, .inr (.inr hend)⟩
  · obtain ⟨k, hk, ⟨t, ht, hread⟩ | ⟨hend, hsentence, hread⟩ | ⟨hend, hsentence, hread⟩⟩ :=
      readTokens_cases start (lex text).tokens
    · exact ⟨k, hk, .inl ⟨t, ht, hmisfit hk ht, by simp only [derive, hread]⟩⟩
    · refine ⟨k, hk, .inr ?_⟩
      cases hstop : (lex text).stop with
      | some bad =>
        refine .inl ⟨hend, bad, rfl, ?_⟩
        rcases hread with ⟨-, hread⟩ | ⟨d, hread, -⟩ <;> simp only [derive, hread, hstop]
      | none =>
        refine .inr (.inl ⟨hend, rfl, hsentence, ?_⟩)
        rcases hread with ⟨-, hread⟩ | ⟨d, hread, -⟩
        · exact ⟨none, by simp only [derive, hread, hstop]⟩
        · exact ⟨some d, by simp only [derive, hread, hstop]⟩
    · refine ⟨k, hk, .inr ?_⟩
      cases hstop : (lex text).stop with
      | some bad => exact .inl ⟨hend, bad, rfl, by simp only [derive, hread, hstop]⟩
      | none => exact .inr (.inr ⟨hend, rfl, hsentence, by simp only [derive, hread, hstop]⟩)

end Dartlet.Syntax
