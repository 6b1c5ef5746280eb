import Dartlet.Proofs.Program.Layout
import Dartlet.Proofs.Program.Sentences
import Mathlib.Tactic.CasesM

/-!
# Embedded expressions

The expressions embedded in string literals are read as texts of their own, which are shorter. So it does not
matter how many levels of embedded texts are allowed for, if there are enough, and an embedded expression is
what its text alone is read as.
-/

namespace Dartlet.Syntax

open Dartlet.Text
open RuleTable
open Grammar (Sentence mem_ruleTable passes sentence_iff)

set_option maxRecDepth 1000

/-! ### String literals -/

namespace Quotation

variable {read read' : String → Except SyntaxError Expr}

theorem parts_congr {l : Location} {limit : Nat} {pending : Option (List Char)} {text : List Char}
    (hread : ∀ code, '$' :: '{' :: (code ++ ['}']) <:+: text → read (String.ofList code) = read' (String.ofList code)) :
    parts read l limit pending text = parts read' l limit pending text := by
  have hdrop (c : Char) (rest : List Char) (n : Nat) : rest.drop n <:+: c :: rest :=
    ((List.drop_suffix _ _).trans (List.suffix_cons _ _)).isInfix
  have hembedded {rest code : List Char} (hcode : untilBrace 0 none rest = some code) :
      '$' :: '{' :: (code ++ ['}']) <:+: '$' :: '{' :: rest := by
    simpa using (List.prefix_cons_inj '$').mpr ((List.prefix_cons_inj '{').mpr (isPrefix_of_untilBrace hcode)) |>.isInfix
  fun_induction parts read l limit pending text with
  | case1 | case2 => simp only [parts]
  | case3 _ _ _ _ hflaw => simp only [parts, hflaw]
  | case4 _ _ _ _ _ hok ih =>
    simp only [parts, hok]
    exact ih (fun code hcode => hread code (hcode.trans (hdrop _ _ _)))
  | case5 _ _ _ hnone => simp only [parts, hnone]
  | case6 _ _ rest code hcode e he =>
    rw [hread code (hembedded hcode)] at he
    simp only [parts, hcode, he]
  | case7 _ _ rest code hcode x hx ih =>
    have hrest := (hdrop '{' rest (code.length + 1)).trans (List.suffix_cons '$' _).isInfix
    rw [hread code (hembedded hcode)] at hx
    simp only [parts, hcode, hx, ih (fun code hcode => hread code (hcode.trans hrest))]
  | case8 => simp only [parts]
  | case9 _ _ c more hbegins =>
    rename_i ih
    simp only [parts, hbegins, if_true]
    rw [ih (fun code hcode => hread code (hcode.trans (hdrop _ _ _)))]
  | case10 _ _ _ _ hbegins => simp only [parts, hbegins, Bool.false_eq_true, if_false]
  | case11 _ _ _ _ _ _ _ ih =>
    simp only [parts]
    exact ih (fun code hcode => hread code (hcode.trans (List.suffix_cons _ _).isInfix))

theorem ofToken_congr {t : Token} (hread : ∀ code, t.Embeds code → read code = read' code) :
    ofToken read t = ofToken read' t := by
  unfold ofToken
  split
  · rfl
  · refine parts_congr fun code hcode => hread _ ?_
    simpa [Token.Embeds] using hcode.trans (isInfix_inside _)

theorem literal_congr {l : Location} {ts : List Token}
    (hread : ∀ t ∈ ts, ∀ code, t.Embeds code → read code = read' code) : literal read l ts = literal read' l ts := by
  have hparts : ts.mapM (ofToken read) = ts.mapM (ofToken read') := by
    induction ts with
    | nil => rfl
    | cons t rest ih =>
      obtain ⟨ht, hrest⟩ := List.forall_mem_cons.mp hread
      rw [List.mapM_cons, List.mapM_cons, ofToken_congr ht, ih hrest]
  simp only [literal, hparts]

end Quotation

/-! ### Derivations of string tokens -/

theorem strings_rules : ∀ r ∈ Grammar.rules, r.head = .strings →
    r.construct = .single ∧ r.body = [.tok .string] ∨ r.construct = .appended ∧ r.body = [.cat .strings, .tok .string] := by
  decide

theorem stringLiteral_rules : ∀ r ∈ Grammar.rules, r.construct = .stringLiteral → r.body = [.cat .strings] := by
  decide

namespace Derivation

variable {read read' : String → Except SyntaxError Expr}

theorem Of.leaf_inv {g : RuleTable} {t : Terminal} {d : Derivation} (h : d.Of g (.tok t)) :
    ∃ token, d = .leaf token ∧ token.terminal = t := by
  cases h with
  | leaf token => exact ⟨token, rfl, rfl⟩

theorem Of.node_inv {g : RuleTable} {c : Category} {d : Derivation} (h : d.Of g (.cat c)) :
    ∃ r l parts, d = .node r l parts ∧ r ∈ g.rules ∧ r.head = c ∧ AllOf g r.body parts := by
  cases h with
  | node hr hparts => exact ⟨_, _, _, rfl, hr, rfl, hparts⟩

/-- Neighbouring string tokens are collected. -/
theorem build_strings [Host] {d : Derivation} (hd : d.Of ruleTable (.cat .strings)) :
    d.build read = .ok (.many (d.tokens.map .token)) ∧ ∀ t ∈ d.tokens, t.terminal = .string := by
  obtain ⟨r, l, parts, rfl, hr, hhead, hparts⟩ := hd.node_inv
  rcases strings_rules r (mem_ruleTable.mp hr) hhead with ⟨hconstruct, hbody⟩ | ⟨hconstruct, hbody⟩
  · rw [hbody] at hparts
    obtain _ | ⟨hlast, ⟨⟩⟩ := hparts
    obtain ⟨t, rfl, ht⟩ := hlast.leaf_inv
    refine ⟨?_, by simpa [tokens, tokensAll] using ht⟩
    simp only [build, buildAll, hconstruct]
    rfl
  · rw [hbody] at hparts
    obtain _ | @⟨_, before, _, _, hbefore, _ | ⟨hlast, ⟨⟩⟩⟩ := hparts
    obtain ⟨t, rfl, ht⟩ := hlast.leaf_inv
    obtain ⟨hbuilt, hterminals⟩ := build_strings hbefore
    refine ⟨?_, ?_⟩
    · simp only [build, buildAll, hbuilt, hconstruct]
      change Except.ok (Piece.many _) = _
      simp [tokens, tokensAll]
    · simpa [tokens, tokensAll, or_imp, forall_and, ht] using hterminals
termination_by sizeOf d

/-- They form one literal. -/
theorem build_stringLiteral [Host] {r : Rule} {l : Location} {parts : List Derivation} (hr : r ∈ Grammar.rules)
    (hstring : r.construct = .stringLiteral) (hparts : AllOf ruleTable r.body parts) :
    (node r l parts).build read = (Quotation.literal read l (tokensAll parts)).map Piece.expr := by
  rw [stringLiteral_rules r hr hstring] at hparts
  obtain _ | @⟨_, d, _, _, hstrings, ⟨⟩⟩ := hparts
  have htokens : (d.tokens.map Piece.token).filterMap Piece.token? = tokensAll [d] := by
    rw [List.filterMap_map, tokensAll, tokensAll, List.append_nil]
    exact List.filterMap_some
  rw [← htokens]
  simp only [build, buildAll, (build_strings hstrings).1, hstring]
  rfl

end Derivation

/-! ### Enough levels -/

section

variable [Host]

section

variable {read read' : String → Except SyntaxError Expr}

/-- Only string literals embed expressions. -/
theorem Construct.assemble_congr {c : Construct} {l : Location} {ps : List Piece} (hstring : c ≠ .stringLiteral)
    (hps : c ∉ [.same, .single, .appended] → c.Takes ps) : assemble read c l ps = assemble read' c l ps := by
  cases c
  case stringLiteral => exact absurd rfl hstring
  case same => rcases ps with _ | ⟨_, _ | ⟨_, _ | _⟩⟩ <;> rfl
  case single => rcases ps with _ | ⟨_, _ | _⟩ <;> rfl
  case appended =>
    rcases ps with _ | ⟨p, ps⟩
    · rfl
    · rcases ps with _ | ⟨_, _ | ⟨_, _ | _⟩⟩ <;> cases p <;> rfl
  all_goals
    first
    | rfl
    | have hshape := (hps (by decide)).2 rfl
      unfold shapes at hshape
      simp only [FitsOneOf, FitsShape, Piece.Fits, Category.kind] at hshape
      casesm* _ ∨ _, _ ∧ _, ∃ _, _ <;> subst_vars <;> rfl

theorem Rule.assemble_congr {r : Rule} (hr : r.respectsKinds = true) (hstring : r.construct ≠ .stringLiteral) {l : Location}
    {ps : List Piece} (hps : FitsAll (r.body.map Symbol.kind) ps) :
    assemble read r.construct l ps = assemble read' r.construct l ps := by
  exact r.construct.assemble_congr hstring fun hc => Rule.takes hr hc hps

end

namespace Derivation

variable {read read' : String → Except SyntaxError Expr}

mutual

/-- What is built from a derivation depends only on how the expressions are read that its tokens embed. -/
theorem build_congr (hregular : ∀ text x, read text = .ok x → (Node.expr x).Regular) {s : Symbol} {d : Derivation}
    (hd : d.Of ruleTable s) (hspelled : ∀ t ∈ d.tokens, t.Spelled)
    (hread : ∀ t ∈ d.tokens, ∀ code, t.Embeds code → read code = read' code) : d.build read = d.build read' := by
  cases hd with
  | leaf t => rfl
  | @node r l parts hr hparts =>
    by_cases hstring : r.construct = .stringLiteral
    · have hrule := mem_ruleTable.mp hr
      rw [build_stringLiteral hrule hstring hparts, build_stringLiteral hrule hstring hparts]
      exact congrArg _ (Quotation.literal_congr hread)
    · have hall := buildAll_congr hregular hparts hspelled hread
      simp only [build, ← hall]
      cases hps : buildAll read parts with
      | error e => rfl
      | ok ps =>
        exact Rule.assemble_congr (Grammar.respectsKinds r (mem_ruleTable.mp hr)) hstring (buildAll_fits hregular hparts hspelled hps)

theorem buildAll_congr (hregular : ∀ text x, read text = .ok x → (Node.expr x).Regular) {symbols : List Symbol}
    {parts : List Derivation} (hparts : AllOf ruleTable symbols parts) (hspelled : ∀ t ∈ tokensAll parts, t.Spelled)
    (hread : ∀ t ∈ tokensAll parts, ∀ code, t.Embeds code → read code = read' code) :
    buildAll read parts = buildAll read' parts := by
  cases hparts with
  | nil => rfl
  | cons hd hrest =>
    simp only [tokensAll, List.forall_mem_append] at hspelled hread
    simp only [buildAll, build_congr hregular hd hspelled.1 hread.1, buildAll_congr hregular hrest hspelled.2 hread.2]

end

end Derivation

/-- How many levels of embedded texts are allowed for does not matter, if there are enough. -/
theorem readExpr_eq {depth depth' : Nat} {text : String} (hdepth : text.length < depth) (hdepth' : text.length < depth') :
    readExpr depth text = readExpr depth' text := by
  induction depth generalizing depth' text with
  | zero => omega
  | succ depth ih =>
    obtain ⟨depth', rfl⟩ : ∃ k, depth' = k + 1 := ⟨depth' - 1, by omega⟩
    have hpiece : readPiece (readExpr depth) .expression text = readPiece (readExpr depth') .expression text := by
      unfold readPiece
      split
      · rfl
      · rfl
      · rename_i d hd
        obtain ⟨_, ⟨⟩, hof, htokens⟩ := (derive_ok hd).resolve_left (by simp)
        refine Derivation.build_congr (fun _ _ hx => (readExpr_accepted hx).regular) hof
          (fun t ht => lex_spelled text t (htokens ▸ ht)) (fun t ht code hcode => ?_)
        have hlt := hcode.length_lt (htokens ▸ ht)
        exact ih (by omega) (by omega)
    simp only [readExpr, hpiece]

/-- What is embedded in a text is read as a text of its own. -/
theorem readExpr_of_lt {text code : String} (h : code.length < text.length) : readExpr text.length code = parseExpression code :=
  readExpr_eq h (Nat.lt_succ_self _)

end

/-! ### Texts that are one literal -/

/-- The categories that stand for neighbouring string tokens, among others. -/
def Category.spansStrings (c : Category) : Bool :=
  [.expression, .expr, .assignmentExpr, .conditionalExpr, .orExpr, .andExpr, .equalityExpr, .relationalExpr, .additiveExpr,
    .multiplicativeExpr, .unaryExpr, .postfixExpr, .primary, .literal, .strings, .argument, .argumentList, .element, .elements,
    .expressionList, .forStart, .directivePart, .directiveParts].contains c

/-- The symbols that stand for other tokens than strings. -/
def Symbol.needsOther : Symbol → Bool
  | .tok t => t != .string
  | .cat c => !c.spansStrings

theorem marks_needsOther : ruleTable.Marks Symbol.needsOther := by
  have h : ∀ r ∈ Grammar.rules, Symbol.needsOther (.cat r.head) = true → r.body.any Symbol.needsOther = true := by
    decide
  exact fun r hr => h r (mem_ruleTable.mp hr)

/-- An expression of nothing but string tokens is passed on, down to the literal that they form. -/
theorem strings_passed : ∀ r ∈ Grammar.rules, r.head.kind = .expr → r.body.any Symbol.needsOther = false →
    r.construct = .stringLiteral ∨ r.construct = .same ∧ (match r.body with
      | [.cat c] => c.kind == .expr
      | _ => false) = true := by
  decide

/-- Neighbouring string tokens that are an expression are one literal, and its place is that of the first of them. -/
theorem Derivation.build_literal [Host] (read : String → Except SyntaxError Expr) {c : Category} (hc : c.kind = .expr) {d : Derivation}
    (hd : d.Of ruleTable (.cat c)) (hstrings : ∀ t ∈ d.tokens, t.terminal = .string) (hplaced : d.Placed) :
    ∃ t, d.tokens.head? = some t ∧ d.build read = (Quotation.literal read (some t.position) d.tokens).map Piece.expr := by
  obtain ⟨r, l, parts, rfl, hr, rfl, hparts⟩ := hd.node_inv
  have hrule := mem_ruleTable.mp hr
  have hbody : r.body.any Symbol.needsOther = false := by
    refine List.any_eq_false.mpr fun s hs => ?_
    simp [hparts.not_marked marks_needsOther (fun t ht => by simp [Symbol.needsOther, hstrings t ht]) s hs]
  obtain ⟨⟨t, ht, rfl⟩, hplacedParts⟩ := hplaced
  rcases strings_passed r hrule hc hbody with hstring | ⟨hsame, hone⟩
  · exact ⟨t, ht, build_stringLiteral hrule hstring hparts⟩
  · split at hone
    · rename_i c hsymbols
      rw [hsymbols] at hparts
      obtain _ | @⟨_, d, _, _, hpart, ⟨⟩⟩ := hparts
      simp only [tokens, tokensAll, List.append_nil] at hstrings ⊢
      have hpassed : (node r (some t.position) [d]).build read = d.build read := by
        simp only [build, buildAll, hsame]
        cases build read d <;> rfl
      rw [hpassed]
      exact build_literal read (eq_of_beq hone) hpart hstrings hplacedParts.1
    · cases hone
termination_by sizeOf d

/-! ### Neighbouring string tokens are a sentence -/

theorem derives_expression {w : List Terminal} (h : ruleTable.Derives [.cat (categoryAt postfixLevel)] w) :
    ruleTable.Derives [.cat .expression] w := by
  have hlevel (k : Nat) (hk : k ≤ postfixLevel) : ruleTable.Derives [.cat (categoryAt (postfixLevel - k))] w := by
    induction k with
    | zero => exact h
    | succ k ih =>
      refine derives_lower (by omega) ?_
      rw [show postfixLevel - (k + 1) + 1 = postfixLevel - k by omega]
      exact ih (by omega)
  have hexpr : ruleTable.Derives [.cat .expr] w := hlevel postfixLevel le_rfl
  have hpasses : passes .expression .expr ∈ Grammar.rules := by decide
  exact Derives.single (mem_ruleTable.mpr hpasses) hexpr

theorem derives_strings (n : Nat) : ruleTable.Derives [.cat .strings] (List.replicate (n + 1) .string) := by
  induction n with
  | zero => exact derives_rule .single (by decide) (.tok .string .nil)
  | succ n ih =>
    rw [List.replicate_succ']
    exact derives_rule .appended (by decide) (ih.append (.tok .string .nil))

/-- String tokens next to each other are an expression. -/
theorem sentence_strings {tokens : List Token} (hne : tokens ≠ []) (hstrings : ∀ t ∈ tokens, t.terminal = .string) :
    Sentence .expression (terminals tokens) := by
  obtain ⟨n, hn⟩ : ∃ n, tokens.length = n + 1 := Nat.exists_eq_add_one.mpr (List.length_pos_iff.mpr hne)
  have hterminals : terminals tokens = List.replicate (n + 1) .string := by
    rw [← hn, List.eq_replicate_iff]
    simpa [terminals] using hstrings
  have hliteral : ruleTable.Derives [.cat .literal] (terminals tokens) := by
    rw [hterminals]
    exact derives_rule .stringLiteral (by decide) (derives_strings n)
  exact sentence_iff.mpr (.inl (derives_expression (derives_primary (derives_passes (by decide) hliteral))))

/-- A text of nothing but string tokens is the literal that they form. -/
theorem readPiece_strings [Host] {read : String → Except SyntaxError Expr} {text : String} {t : Token} {rest : List Token}
    (htokens : (lex text).tokens = t :: rest) (hstop : (lex text).stop = none)
    (hstrings : ∀ t ∈ (lex text).tokens, t.terminal = .string) :
    readPiece read .expression text = (Quotation.literal read (some t.position) (t :: rest)).map Piece.expr := by
  have hne : (lex text).tokens ≠ [] := by simp [htokens]
  obtain ⟨d, hread, hof, hcovers⟩ := readTokens_of_sentence hne (sentence_strings hne hstrings)
  have hderive : derive .expression text = .ok (some d) := by simp only [derive, hread, hstop]
  obtain ⟨t', ht', hbuilt⟩ := Derivation.build_literal read rfl hof (hcovers ▸ hstrings) (derive_placed hderive)
  rw [hcovers, htokens] at ht' hbuilt
  cases ht'
  simp only [readPiece, hderive, hbuilt]

/-- Nothing that is embedded in a literal jumps out of it. -/
theorem Quotation.literal_lands [Host] {l : Location} {ts : List Token} {x : Expr} (h : literal parseExpression l ts = .ok x) :
    x.jumpError .nothing = none := by
  have hembedded : ∀ t ∈ ts, ∀ code x, t.Embeds code → parseExpression code = .ok x → (Node.part (.code x)).jumpError .nothing = none :=
    fun _ _ _ _ _ hx => (parseExpression_accepted hx).lands
  rcases literal_cases (P := fun q => (Node.part q).jumpError .nothing = none) (fun _ => rfl) hembedded (fun _ _ _ => rfl) h with
    ⟨text, rfl⟩ | ⟨ps, rfl, hps⟩
  · rfl
  · exact (jumpErrorParts_eq_none .nothing ps).mpr (List.forall_mem_map.mpr hps)

/-- A text of nothing but string tokens is read as the literal that they form, and what it embeds as texts of its own. -/
theorem parseExpression_strings [Host] {text : String} {t : Token} {rest : List Token} (htokens : (lex text).tokens = t :: rest)
    (hstop : (lex text).stop = none) (hstrings : ∀ t ∈ (lex text).tokens, t.terminal = .string) :
    parseExpression text = Quotation.literal parseExpression (some t.position) (t :: rest) := by
  have hread : Quotation.literal (readExpr text.length) (some t.position) (t :: rest) =
      Quotation.literal parseExpression (some t.position) (t :: rest) :=
    Quotation.literal_congr fun t ht code hcode => readExpr_of_lt (hcode.length_lt (htokens ▸ ht))
  rw [parseExpression, embeddingLimit, readExpr, readPiece_strings htokens hstop hstrings, hread]
  cases hliteral : Quotation.literal parseExpression (some t.position) (t :: rest) with
  | error e => rfl
  | ok x =>
    simp only [Except.map, checkedExpr, Quotation.literal_lands hliteral]

end Dartlet.Syntax
