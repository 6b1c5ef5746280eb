import Dartlet.Proofs.Program.Depth
import Dartlet.Proofs.Program.DerivedPlaceless
import Dartlet.Proofs.Program.Literals

/-!
# Layout does not change meaning

A text that is read has the same meaning however its tokens are written down, with any blanks between them:
it falls into the same tokens again, and the same program is built from them up to places.
-/

namespace Dartlet.Syntax

open Dartlet.Text

/-! ### Charts of the same words -/

namespace Chart

/-- Two charts that have read the same words, and may have read them at different places. -/
structure Alike (c c' : Chart) : Prop where
  table : c.table = c'.table
  sets : c.sets = c'.sets
  tokens : c.tokens.toList.map Token.placeless = c'.tokens.toList.map Token.placeless

namespace Alike

variable {c c' : Chart} (h : c.Alike c')

include h

theorem token (place : Nat) : c.tokens[place]?.map Token.placeless = c'.tokens[place]?.map Token.placeless := by
  simpa using congrArg (·[place]?) h.tokens

theorem ruleFor? (category : Category) (low high : Nat) : c.ruleFor? category low high = c'.ruleFor? category low high := by
  simp only [Chart.ruleFor?, Chart.holds, h.table, h.sets]

theorem splits (category : Category) (rule dot low high : Nat) :
    c.splits category rule dot low high = c'.splits category rule dot low high := by
  obtain ⟨table, tokens, sets⟩ := c
  obtain ⟨table', tokens', sets'⟩ := c'
  obtain rfl : table = table' := h.table
  obtain rfl : sets = sets' := h.sets
  rfl

theorem isHollow (low high : Nat) : c.isHollow low high = c'.isHollow low high := by
  have hterminals : c.tokens.toList.map Token.terminal = c'.tokens.toList.map Token.terminal := by
    have hmap := congrArg (List.map Token.terminal) h.tokens
    rw [List.map_map, List.map_map] at hmap
    exact hmap
  have hextract : (c.tokens.extract low high).toList.map Token.terminal =
      (c'.tokens.extract low high).toList.map Token.terminal := by
    simp only [Array.toList_extract, List.extract, List.map_drop, List.map_take, hterminals]
  simp only [Chart.isHollow, hextract]

theorem choose? (preference : LastPart) (high : Nat) (places : List Nat) :
    c.choose? preference high places = c'.choose? preference high places := by
  cases preference <;> simp only [Chart.choose?, h.isHollow]

theorem parts? {derive derive' : Category → Nat → Nat → Option Derivation}
    (hderive : ∀ category low high,
      (derive category low high).map Derivation.placeless = (derive' category low high).map Derivation.placeless)
    (number : Nat) (rule : Rule) (low : Nat) {before : List Symbol} {high : Nat} {found found' : List Derivation}
    (hfound : found.map Derivation.placeless = found'.map Derivation.placeless) :
    (c.parts? derive number rule low before high found).map (List.map Derivation.placeless) =
      (c'.parts? derive' number rule low before high found').map (List.map Derivation.placeless) := by
  induction before generalizing high found found' with
  | nil =>
    simp only [Chart.parts?]
    split <;> simp [hfound]
  | cons symbol before ih =>
    cases symbol with
    | tok terminal =>
      cases high with
      | zero => rfl
      | succ place =>
        simp only [Chart.parts?]
        cases htoken : c.tokens[place]? with
        | none =>
          have hnone : c'.tokens[place]? = none := by simpa [htoken] using (h.token place).symm
          rw [hnone]
        | some t =>
          obtain ⟨t', ht', heq⟩ : ∃ t', c'.tokens[place]? = some t' ∧ t'.placeless = t.placeless := by
            simpa [htoken] using (h.token place).symm
          rw [ht']
          exact ih (by simp [Derivation.placeless, heq, hfound])
    | cat category =>
      simp only [Chart.parts?, h.splits, h.choose?]
      cases c'.choose? rule.lastPart high (c'.splits category number before.length low high) with
      | none => rfl
      | some k =>
        have hpart := hderive category k high
        cases hd : derive category k high with
        | none =>
          have hnone : derive' category k high = none := by simpa [hd] using hpart.symm
          simp only [hd, hnone]
        | some d =>
          obtain ⟨d', hd', heq⟩ : ∃ d', derive' category k high = some d' ∧ d'.placeless = d.placeless := by
            simpa [hd] using hpart.symm
          simp only [hd, hd']
          exact ih (by simp [heq, hfound])

theorem derive? (depth : Nat) (category : Category) (low high : Nat) :
    (c.derive? depth category low high).map Derivation.placeless =
      (c'.derive? depth category low high).map Derivation.placeless := by
  induction depth generalizing category low high with
  | zero => rfl
  | succ depth ih =>
    simp only [Chart.derive?, h.ruleFor?]
    cases c'.ruleFor? category low high with
    | none => rfl
    | some found =>
      obtain ⟨number, rule⟩ := found
      have hnode (l : Location) (parts : Option (List Derivation)) :
          (parts.map (Derivation.node rule l)).map Derivation.placeless =
            (parts.map (List.map Derivation.placeless)).map (Derivation.node rule none) := by
        cases parts <;> simp [Derivation.placeless]
      simp only [hnode]
      rw [h.parts? ih number rule low rfl]

end Alike

end Chart

/-! ### Reading the same words -/

/-- Two texts that say the same: they fall into the same words, and end at the same character if not at their end. -/
structure SameWords (text text' : String) : Prop where
  words : (lex text).tokens.map Token.word = (lex text').tokens.map Token.word
  stop : (lex text).stop.map BadCharacter.char = (lex text').stop.map BadCharacter.char

/-- Readings of the same words are the same up to places. -/
def Reading.Alike : Reading → Reading → Prop
  | .sentence d, .sentence d' => d.map Derivation.placeless = d'.map Derivation.placeless
  | .unexpectedToken t, .unexpectedToken t' => t.word = t'.word
  | .unexpectedEnd, .unexpectedEnd => True
  | _, _ => False

theorem readTokens_alike (start : Category) {ts ts' : List Token} (h : ts.map Token.word = ts'.map Token.word) :
    (readTokens start ts).Alike (readTokens start ts') := by
  have hmap {α : Type} (f : Word → α) : ts.map (f ∘ Token.word) = ts'.map (f ∘ Token.word) := by
    simpa only [List.map_map] using congrArg (List.map f) h
  have hplaceless : ts.map Token.placeless = ts'.map Token.placeless :=
    hmap (fun w => (⟨w.terminal, w.text, default⟩ : Token))
  have hterminals : ts.map Token.terminal = ts'.map Token.terminal := hmap Word.terminal
  have hlength : ts.length = ts'.length := by simpa using congrArg List.length h
  have hempty : ts.isEmpty = ts'.isEmpty := by cases ts <;> cases ts' <;> simp_all
  simp only [readTokens, hterminals, hlength, hempty]
  generalize ruleTable.readAll #[ruleTable.firstSet start] (ts'.map Token.terminal) = found
  obtain ⟨sets, left⟩ := found
  have htoken : ts[ts'.length - left.length]?.map Token.word = ts'[ts'.length - left.length]?.map Token.word := by
    simpa using congrArg (·[ts'.length - left.length]?) h
  dsimp only
  cases ht : ts'[ts'.length - left.length]? with
  | some t' =>
    obtain ⟨t, ht', heq⟩ : ∃ t, ts[ts'.length - left.length]? = some t ∧ t.word = t'.word := by
      simpa [ht] using htoken
    rw [ht']
    exact heq
  | none =>
    have hnone : ts[ts'.length - left.length]? = none := by simpa [ht] using htoken
    rw [hnone]
    dsimp only
    split
    · rfl
    · have hcharts : Chart.Alike ⟨ruleTable, ts.toArray, sets⟩ ⟨ruleTable, ts'.toArray, sets⟩ := ⟨rfl, rfl, hplaceless⟩
      have hlimit : Chart.depthLimit ⟨ruleTable, ts.toArray, sets⟩ = Chart.depthLimit ⟨ruleTable, ts'.toArray, sets⟩ := by
        simp [Chart.depthLimit, hlength]
      have hderive := hcharts.derive? (Chart.depthLimit ⟨ruleTable, ts'.toArray, sets⟩) start 0 ts'.length
      rw [hlimit]
      revert hderive
      generalize Chart.derive? ⟨ruleTable, ts.toArray, sets⟩ _ start 0 ts'.length = d
      generalize Chart.derive? ⟨ruleTable, ts'.toArray, sets⟩ _ start 0 ts'.length = d'
      intro hderive
      cases d with
      | none =>
        obtain rfl : d' = none := by simpa using hderive.symm
        trivial
      | some d =>
        obtain ⟨d', rfl, heq⟩ : ∃ x, d' = some x ∧ x.placeless = d.placeless := by simpa using hderive.symm
        exact congrArg some heq.symm

namespace SameWords

variable {text text' : String} (h : SameWords text text')

include h

theorem stop_cases : ((lex text).stop = none ∧ (lex text').stop = none) ∨
    ∃ bad bad', (lex text).stop = some bad ∧ (lex text').stop = some bad' ∧ bad.char = bad'.char := by
  have hstop := h.stop
  cases hbad : (lex text).stop with
  | none => exact .inl ⟨rfl, by simpa [hbad] using hstop.symm⟩
  | some bad =>
    obtain ⟨bad', hbad', hchar⟩ : ∃ bad', (lex text').stop = some bad' ∧ bad'.char = bad.char := by
      simpa [hbad] using hstop.symm
    exact .inr ⟨bad, bad', rfl, hbad', hchar.symm⟩

/-- A derivation of the same words is the same one up to places. -/
theorem derive (start : Category) : placelessResult (Option.map Derivation.placeless) (Syntax.derive start text) =
    placelessResult (Option.map Derivation.placeless) (Syntax.derive start text') := by
  have halike := readTokens_alike start h.words
  unfold Syntax.derive
  dsimp only
  -- a token that does not fit comes first, then a character at which no token begins
  cases hread : readTokens start (lex text).tokens with
  | unexpectedToken t =>
    rw [hread] at halike
    cases hread' : readTokens start (lex text').tokens with
    | unexpectedToken t' =>
      rw [hread'] at halike
      have htext : t.text = t'.text := congrArg Word.text halike
      simp [placelessResult, SyntaxError.placeless, htext]
    | _ => simp [hread', Reading.Alike] at halike
  | sentence d =>
    rw [hread] at halike
    cases hread' : readTokens start (lex text').tokens with
    | sentence d' =>
      rw [hread'] at halike
      rcases h.stop_cases with ⟨hstop, hstop'⟩ | ⟨bad, bad', hbad, hbad', hchar⟩
      · simp only [hstop, hstop']
        exact congrArg Except.ok halike
      · simp [hbad, hbad', placelessResult, SyntaxError.placeless, hchar]
    | _ => simp [hread', Reading.Alike] at halike
  | unexpectedEnd =>
    rw [hread] at halike
    cases hread' : readTokens start (lex text').tokens with
    | unexpectedEnd =>
      rcases h.stop_cases with ⟨hstop, hstop'⟩ | ⟨bad, bad', hbad, hbad', hchar⟩
      · simp [hstop, hstop', placelessResult, SyntaxError.placeless]
      · simp [hbad, hbad', placelessResult, SyntaxError.placeless, hchar]
    | _ => simp [hread', Reading.Alike] at halike

/-- From the same words the same piece of a program is read up to places, if this is so for the expressions that are
embedded in them. -/
theorem readPiece [Host] {read read' : String → Except SyntaxError Expr}
    (hregular : ∀ code x, read code = .ok x → (Node.expr x).Regular)
    (hregular' : ∀ code x, read' code = .ok x → (Node.expr x).Regular)
    (hread : Quotation.AgreeOn (· ∈ (lex text).tokens) read read') (start : Category) :
    placelessResult Piece.placeless (Syntax.readPiece read start text) =
      placelessResult Piece.placeless (Syntax.readPiece read' start text') := by
  unfold Syntax.readPiece
  rcases placelessResult_cases (h.derive start) with ⟨e, e', he, he', heq⟩ | ⟨d, d', hd, hd', heq⟩
  · rw [he, he']
    exact congrArg Except.error heq
  · rw [hd, hd']
    cases d with
    | none =>
      obtain rfl : d' = none := by simpa using heq.symm
      rfl
    | some d =>
      obtain ⟨d', rfl, hsame⟩ : ∃ x, d' = some x ∧ x.placeless = d.placeless := by simpa using heq.symm
      obtain ⟨_, ⟨⟩, hof, htokens⟩ := (derive_ok hd).resolve_left (by simp)
      obtain ⟨_, ⟨⟩, hof', htokens'⟩ := (derive_ok hd').resolve_left (by simp)
      exact Derivation.build_placeless hregular hregular' hread hof hof'
        (fun t ht => ⟨lex_spelled text t (htokens ▸ ht), htokens ▸ ht⟩) (fun t ht => lex_spelled text' t (htokens' ▸ ht))
        (derive_placed hd) hsame.symm

end SameWords

/-- A check that finds the same error up to places passes the same. -/
theorem checked_placeless {α β : Type} {f : α → β} {found found' : Option SyntaxError} {x x' : α} :
    found.map SyntaxError.placeless = found'.map SyntaxError.placeless → f x = f x' →
    placelessResult f (match found with | some e => .error e | none => .ok x) =
      placelessResult f (match found' with | some e => .error e | none => .ok x') := by
  intro h hx
  cases found with
  | none =>
    obtain rfl : found' = none := by simpa using h.symm
    exact congrArg Except.ok hx
  | some e =>
    obtain ⟨e', rfl, heq⟩ : ∃ e', found' = some e' ∧ e'.placeless = e.placeless := by simpa using h.symm
    exact congrArg Except.error heq.symm

theorem checkedExpr_placeless {p p' : Piece} (h : p.placeless = p'.placeless) :
    placelessResult Expr.placeless (checkedExpr p) = placelessResult Expr.placeless (checkedExpr p') := by
  cases p with
  | expr x =>
    cases p' with
    | expr x' =>
      have hx : x.placeless = x'.placeless := Piece.expr.inj h
      refine checked_placeless ?_ hx
      rw [← Expr.jumpError_placeless, hx, Expr.jumpError_placeless]
    | _ => simp [Piece.placeless] at h
  | _ => cases p' <;> first | rfl | simp [Piece.placeless] at h

theorem Lexer.length_le_of_mem_scan {limit : Nat} {position : Position} {text : List Char} :
    ∀ l ∈ (scan limit position text).lexemes, l.text.length ≤ text.length := by
  induction limit generalizing position text with
  | zero => cases text <;> simp [scan]
  | succ limit ih =>
    cases text with
    | nil => simp [scan]
    | cons c rest =>
      simp only [scan]
      split
      · simp
      · refine List.forall_mem_cons.mpr ⟨List.length_take_le' _ _, fun l hl => ?_⟩
        exact (ih l hl).trans (by rw [List.length_drop]; omega)

/-- The text of an embedded expression is shorter than the one in which it is embedded. -/
theorem Token.Embeds.length_lt {text code : String} {t : Token} (h : t.Embeds code) (ht : t ∈ (lex text).tokens) :
    code.length < text.length := by
  obtain ⟨l, hl, hlt⟩ := List.mem_filterMap.mp ht
  have hlength : t.text.length ≤ text.length := by
    have hle := Lexer.length_le_of_mem_scan l hl
    unfold Lexeme.token? at hlt
    obtain ⟨terminal, -, rfl⟩ := Option.map_eq_some_iff.mp hlt
    simpa [String.length_toList] using hle
  have hcode := h.length_le
  simp only [List.length_cons, List.length_append, List.length_nil, String.length_toList] at hcode
  omega

theorem SameWords.refl (text : String) : SameWords text text := ⟨rfl, rfl⟩

theorem SameWords.symm {text text' : String} (h : SameWords text text') : SameWords text' text :=
  ⟨h.words.symm, h.stop.symm⟩

/-- What a token of one text embeds a token of the other embeds. -/
theorem SameWords.length_lt {text text' code : String} (h : SameWords text text') {t : Token} (ht : t ∈ (lex text).tokens)
    (hcode : t.Embeds code) : code.length < text.length ∧ code.length < text'.length := by
  obtain ⟨t', ht', hword⟩ : ∃ t' ∈ (lex text').tokens, t'.word = t.word :=
    List.mem_map.mp (h.words ▸ List.mem_map_of_mem ht)
  have hcode' : t'.Embeds code := by
    rw [Token.Embeds, show t'.text = t.text from congrArg Word.text hword]
    exact hcode
  exact ⟨hcode.length_lt ht, hcode'.length_lt ht'⟩

section

variable [Host]

/-- From the same words the same expression is read up to places. How many levels of embedded texts are allowed for
does not matter, if there are enough. -/
theorem SameWords.readExpr {depth depth' : Nat} {text text' : String} (h : SameWords text text') (hdepth : text.length < depth)
    (hdepth' : text'.length < depth') :
    placelessResult Expr.placeless (Syntax.readExpr depth text) =
      placelessResult Expr.placeless (Syntax.readExpr depth' text') := by
  induction depth generalizing depth' text text' with
  | zero => omega
  | succ depth ih =>
    obtain ⟨depth', rfl⟩ : ∃ k, depth' = k + 1 := ⟨depth' - 1, by omega⟩
    have hagree : Quotation.AgreeOn (· ∈ (lex text).tokens) (Syntax.readExpr depth) (Syntax.readExpr depth') := by
      intro t ht code hcode
      obtain ⟨hlt, hlt'⟩ := h.length_lt ht hcode
      exact ih (.refl code) (by omega) (by omega)
    have hpiece := h.readPiece (fun _ _ hx => (readExpr_accepted hx).regular) (fun _ _ hx => (readExpr_accepted hx).regular)
      hagree .expression
    simp only [Syntax.readExpr]
    rcases placelessResult_cases hpiece with ⟨e, e', he, he', heq⟩ | ⟨p, p', hp, hp', heq⟩
    · rw [he, he']
      exact congrArg Except.error heq
    · rw [hp, hp']
      exact checkedExpr_placeless heq

theorem SameWords.parseExpression {text text' : String} (h : SameWords text text') :
    placelessResult Expr.placeless (Syntax.parseExpression text) =
      placelessResult Expr.placeless (Syntax.parseExpression text') :=
  h.readExpr (Nat.lt_succ_self _) (Nat.lt_succ_self _)

theorem SameWords.readProgram {text text' : String} (h : SameWords text text') (start : Category) :
    placelessResult Piece.placeless (Syntax.readPiece (Syntax.readExpr (embeddingLimit text)) start text) =
      placelessResult Piece.placeless (Syntax.readPiece (Syntax.readExpr (embeddingLimit text')) start text') := by
  refine h.readPiece (fun _ _ hx => (readExpr_accepted hx).regular) (fun _ _ hx => (readExpr_accepted hx).regular)
    (fun t ht code hcode => ?_) start
  obtain ⟨hlt, hlt'⟩ := h.length_lt ht hcode
  exact (SameWords.refl code).readExpr (Nat.lt_succ_of_lt hlt) (Nat.lt_succ_of_lt hlt')

theorem SameWords.parseStatements {text text' : String} (h : SameWords text text') :
    placelessResult (List.map Stmt.placeless) (Syntax.parseStatements text) =
      placelessResult (List.map Stmt.placeless) (Syntax.parseStatements text') := by
  unfold Syntax.parseStatements
  rcases placelessResult_cases (h.readProgram .script) with ⟨e, e', he, he', heq⟩ | ⟨p, p', hp, hp', heq⟩
  · rw [he, he']
    exact congrArg Except.error heq
  · rw [hp, hp']
    have hstmts : (p.flatten.filterMap Piece.stmt?).map Stmt.placeless = (p'.flatten.filterMap Piece.stmt?).map Stmt.placeless := by
      rw [← filterMap_placeless stmt?_placeless, ← filterMap_placeless stmt?_placeless, ← flatten_placeless,
        ← flatten_placeless, heq]
    refine checked_placeless ?_ hstmts
    rw [← jumpErrorStmts_placeless, placelessStmts_eq, hstmts, ← placelessStmts_eq, jumpErrorStmts_placeless]

theorem SameWords.parseUnit {text text' : String} (h : SameWords text text') :
    placelessResult Stmt.placeless (Syntax.parseUnit text) = placelessResult Stmt.placeless (Syntax.parseUnit text') := by
  unfold Syntax.parseUnit
  rcases placelessResult_cases (h.readProgram .unit) with ⟨e, e', he, he', heq⟩ | ⟨p, p', hp, hp', heq⟩
  · rw [he, he']
    exact congrArg Except.error heq
  · rw [hp, hp']
    have hunit : (p.stmt?.getD (.unit none [])).placeless = (p'.stmt?.getD (.unit none [])).placeless := by
      have hget (p : Piece) : (p.stmt?.getD (.unit none [])).placeless = p.placeless.stmt?.getD (.unit none []) := by
        cases p <;> rfl
      rw [hget, hget, heq]
    refine checked_placeless ?_ hunit
    rw [← Stmt.jumpError_placeless, hunit, Stmt.jumpError_placeless]

end

/-! ### Directives of the same words -/

namespace Directive

mutual

theorem tokens_placeless (d : Derivation) : d.placeless.tokens = d.tokens.map Token.placeless := by
  cases d with
  | leaf t => rfl
  | node rule l parts => exact tokensAll_placeless parts

theorem tokensAll_placeless (ds : List Derivation) :
    Derivation.tokensAll (placelessDerivations ds) = (Derivation.tokensAll ds).map Token.placeless := by
  cases ds with
  | nil => rfl
  | cons d ds => rw [placelessDerivations, Derivation.tokensAll, Derivation.tokensAll, List.map_append, tokens_placeless d,
      tokensAll_placeless ds]

end

theorem ofDerivation_placeless (d : Derivation) : ofDerivation d.placeless = ofDerivation d := by
  unfold ofDerivation
  rw [tokens_placeless]
  cases d.tokens with
  | nil => rfl
  | cons keyword rest =>
    rw [List.map_cons]
    dsimp only
    rw [List.filter_map, List.map_map]
    rfl

mutual

theorem allIn_placeless (d : Derivation) : allIn d.placeless = allIn d := by
  cases d with
  | leaf t => rfl
  | node rule l parts =>
    have hone := ofDerivation_placeless (.node rule l parts)
    have hparts := allInParts_placeless parts
    simp only [Derivation.placeless, allIn] at hone ⊢
    rw [hone, hparts]

theorem allInParts_placeless (ds : List Derivation) : allInParts (placelessDerivations ds) = allInParts ds := by
  cases ds with
  | nil => rfl
  | cons d ds => rw [placelessDerivations, allInParts, allInParts, allIn_placeless d, allInParts_placeless ds]

end

end Directive

theorem SameWords.directives {text text' : String} (h : SameWords text text') :
    Syntax.directives text = Syntax.directives text' := by
  unfold Syntax.directives
  rcases placelessResult_cases (h.derive .unit) with ⟨e, e', he, he', -⟩ | ⟨d, d', hd, hd', heq⟩
  · rw [he, he']
  · rw [hd, hd']
    cases d with
    | none =>
      obtain rfl : d' = none := by simpa using heq.symm
      rfl
    | some d =>
      obtain ⟨d', rfl, hsame⟩ : ∃ x, d' = some x ∧ x.placeless = d.placeless := by simpa using heq.symm
      dsimp only
      rw [← Directive.allIn_placeless d, ← hsame, Directive.allIn_placeless]

/-! ### Texts of the tokens of a text -/

/-- Only a string literal gets the terminal of one. -/
theorem Lexer.matchLength?_of_next? {text : List Char} {n : Nat} (h : next? text = some (some .string, n)) :
    stringLiteral.matchLength? text = some n := by
  cases hstring : stringLiteral.matchLength? text with
  | some m =>
    simpa [next?, hstring] using h
  | none =>
    exfalso
    have hword (word : String) : Terminal.ofWord word ≠ .string := by
      unfold Terminal.ofWord
      split
      · rename_i entry hentry
        have hkeywords : ∀ entry ∈ Terminal.keywords, entry.2 ≠ .string := by decide
        exact hkeywords entry (List.mem_of_find?_eq_some hentry)
      · decide
    unfold next? at h
    rw [hstring] at h
    dsimp only at h
    split at h
    · cases h
    split at h
    · cases h
    split at h
    · cases h
    split at h
    · cases h
    split at h
    · exact hword _ (Option.some.inj (Prod.mk.inj (Option.some.inj h)).1)
    split at h
    · cases h
    · obtain ⟨⟨t, m⟩, hsymbol, heq⟩ := Option.map_eq_some_iff.mp h
      cases heq
      have hsymbols : ∀ entry ∈ Terminal.symbols, entry.2 ≠ .string := by decide
      exact hsymbols _ (symbol?_spelled hsymbol) rfl

/-- Every token that is cut from a text is one wherever the text ends or a blank follows, if no string literal on one
line embeds an expression. -/
theorem Lexer.separable_scan {limit : Nat} {position : Position} {text : List Char} (t : Token)
    (ht : t ∈ (scan limit position text).tokens)
    (hplain : t.terminal = .string → isOneLine t.text.toList = true → ¬ ['$', '{'] <:+: t.text.toList) :
    t.word.Separable := by
  induction limit generalizing position text with
  | zero => cases text <;> simp [scan, Lexed.tokens] at ht
  | succ limit ih =>
    cases text with
    | nil => simp [scan, Lexed.tokens] at ht
    | cons c rest =>
      cases hnext : next? (c :: rest) with
      | none => simp [scan, hnext, Lexed.tokens] at ht
      | some found =>
        obtain ⟨terminal?, n⟩ := found
        rw [scan_next hnext (by simp)] at ht
        cases terminal? with
        | none => exact ih (by simpa [Lexed.tokens, Lexeme.token?] using ht)
        | some terminal =>
          have hcases : t = ⟨terminal, String.ofList ((c :: rest).take n), position⟩ ∨
              t ∈ (scan limit (position.after ((c :: rest).take n)) ((c :: rest).drop n)).tokens := by
            simpa [Lexed.tokens, Lexeme.token?] using ht
          obtain rfl | hlater := hcases
          · have hfound : ∃ s more, c :: rest = String.toList s ++ more ∧ n = s.toList.length ∧
                Word.Separable ⟨terminal, s⟩ := by
              by_cases hstring : terminal = .string
              · subst hstring
                refine Word.separable_literal (matchLength?_of_next? hnext) ?_
                simpa using hplain rfl
              · exact Word.separable_token hnext hstring
            obtain ⟨s, more, hs, rfl, hw⟩ := hfound
            simpa [Token.word, hs] using hw
          · exact ih hlater

/-- No string literal of a text that is written on one line embeds an expression. -/
def EmbedsNothing (text : String) : Prop :=
  ∀ t ∈ (lex text).tokens, t.terminal = .string → Lexer.isOneLine t.text.toList = true → ¬ ['$', '{'] <:+: t.text.toList

/-- What is read from a text is read from one that is read alike, up to places. -/
theorem placelessResult_ok {α β : Type} {f : α → β} {r r' : Except SyntaxError α} {x : α}
    (h : placelessResult f r = placelessResult f r') (hx : r = .ok x) : ∃ y, r' = .ok y ∧ f y = f x := by
  rcases placelessResult_cases h with ⟨e, e', he, -⟩ | ⟨z, y, hz, hy, heq⟩
  · rw [he] at hx
    cases hx
  · rw [hz] at hx
    cases hx
    exact ⟨y, hy, heq.symm⟩

section

variable [Host]

/-- Two texts that are read the same up to places, or refused for the same reason. -/
structure ReadAlike (text text' : String) : Prop where
  program : placelessResult Stmt.placeless (parseUnit text) = placelessResult Stmt.placeless (parseUnit text')
  statements : placelessResult (List.map Stmt.placeless) (parseStatements text) =
    placelessResult (List.map Stmt.placeless) (parseStatements text')
  expression : placelessResult Expr.placeless (parseExpression text) =
    placelessResult Expr.placeless (parseExpression text')
  directives : directives text = directives text'

theorem SameWords.readAlike {text text' : String} (h : SameWords text text') : ReadAlike text text' :=
  ⟨h.parseUnit, h.parseStatements, h.parseExpression, h.directives⟩

/-- The tokens of a text that can be read, written down in order with any blanks between them, are cut from the
new text again, and the new text is read as what the old one is up to places. Where a text has its comments and
its blanks never matters: texts that fall into the same words are read alike, or refused for the same reason. -/
theorem layout_does_not_change_meaning (text text' : String) :
    (IsReadable text → EmbedsNothing text → Laid ((lex text).tokens.map Token.word) text'.toList →
      (lex text').Says ((lex text).tokens.map Token.word) ∧
      (∀ x, parseUnit text = .ok x → ∃ y, parseUnit text' = .ok y ∧ y.placeless = x.placeless) ∧
      (∀ xs, parseStatements text = .ok xs →
        ∃ ys, parseStatements text' = .ok ys ∧ ys.map Stmt.placeless = xs.map Stmt.placeless) ∧
      (∀ x, parseExpression text = .ok x → ∃ y, parseExpression text' = .ok y ∧ y.placeless = x.placeless)) ∧
    (SameWords text text' → ReadAlike text text') := by
  refine ⟨fun hreadable hplain hlaid => ?_, SameWords.readAlike⟩
  have hseparable : ∀ w ∈ (lex text).tokens.map Token.word, w.Separable := by
    intro w hw
    obtain ⟨t, ht, rfl⟩ := List.mem_map.mp hw
    exact Lexer.separable_scan t ht (hplain t ht)
  have hlexed := lex_laid hseparable hlaid
  have hsame : SameWords text text' := ⟨hlexed.1.symm, by rw [hreadable.sentence.1, hlexed.2]⟩
  have hread := hsame.readAlike
  exact ⟨hlexed, fun x hx => placelessResult_ok hread.program hx, fun xs hxs => placelessResult_ok hread.statements hxs,
    fun x hx => placelessResult_ok hread.expression hx⟩

end

/-- A difference whose words stand on three lines. -/
theorem layout_does_not_change_meaning_lines :
    let text := "a - b - 1"
    let text' := "a\t-\n b  -\r\n1"
    ∃ x y, parseExpression text = .ok x ∧ EmbedsNothing text ∧
      Laid ((lex text).tokens.map Token.word) text'.toList ∧ (lex text').Says ((lex text).tokens.map Token.word) ∧
      parseExpression text' = .ok y ∧ y.placeless = x.placeless ∧ ReadAlike text "/* a */ a-b // b\n- 1" := by
  intro text text'
  obtain ⟨x, hx⟩ := exists_difference
  have hwords : (lex text).tokens.map Token.word =
      [⟨.identifier, "a"⟩, ⟨.minus, "-"⟩, ⟨.identifier, "b"⟩, ⟨.minus, "-"⟩, ⟨.integer, "1"⟩] := by decide
  have hplain : EmbedsNothing text := by
    intro t ht hstring
    have hword := List.mem_map_of_mem (f := Token.word) ht
    rw [hwords] at hword
    have hstrings : ∀ w ∈ [(⟨.identifier, "a"⟩ : Word), ⟨.minus, "-"⟩, ⟨.identifier, "b"⟩, ⟨.minus, "-"⟩,
        ⟨.integer, "1"⟩], w.terminal ≠ .string := by decide
    exact absurd hstring (hstrings _ hword)
  have hlaid : Laid ((lex text).tokens.map Token.word) text'.toList := by
    have htext : text'.toList =
        "a".toList ++ (['\t'] ++ ("-".toList ++ (['\n', ' '] ++ ("b".toList ++ ([' ', ' '] ++
          ("-".toList ++ (['\r', '\n'] ++ "1".toList))))))) := by decide
    rw [hwords, htext]
    exact .more (by decide) (by decide) (.more (by decide) (by decide) (.more (by decide)
      (by decide) (.more (by decide) (by decide) (.last _))))
  obtain ⟨hlexed, -, -, hexpression⟩ := (layout_does_not_change_meaning text text').1 (.expression hx) hplain hlaid
  obtain ⟨y, hy, heq⟩ := hexpression x hx
  exact ⟨x, y, hx, hplain, hlaid, hlexed, hy, heq,
    (layout_does_not_change_meaning text "/* a */ a-b // b\n- 1").2 ⟨by decide, by decide⟩⟩

end Dartlet.Syntax
