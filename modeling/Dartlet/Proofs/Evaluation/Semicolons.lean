import Dartlet.Host.Standard
import Dartlet.Proofs.Evaluation.Sessions
import Dartlet.Proofs.Grammar.Contexts
import Dartlet.Proofs.Grammar.Outlines
import Dartlet.Proofs.Program.Embedded
import Dartlet.Proofs.Program.Lines
import Dartlet.Proofs.Program.RoundTrip

/-!
# A semicolon after an expression

The input of a session may be an expression or a list of statements. An expression is no list of statements,
so it is read as what it is; with a semicolon on a new line after it, it is one expression statement and no
other statement. Both inputs evaluate the same expression and show its value.
-/

namespace Dartlet

set_option maxRecDepth 1000

namespace Syntax

open Grammar RuleTable

/-- The rule of a list of one statement. -/
def oneStatement : Rule := rule .statements .single [.cat .statement]

/-- The rule of an expression statement. -/
def expressionStatement : Rule := rule .simpleStatement .expressionStmt [.cat .expr, .tok .semicolon]

/-- The only rules by which an expression with a semicolon after it is a list of statements, from the outside in. -/
def semicolonRules : List Rule :=
  [passes .script .statements, oneStatement, passes .statement .closedStatement, passes .closedStatement .simpleStatement,
    expressionStatement]

theorem semicolonRules_mem : ∀ r ∈ semicolonRules, r ∈ Grammar.rules := by
  decide

/-- By the other rules of their categories, nothing leads from the beginning of a statement to its end. -/
theorem leads_semicolonRules : ∀ r ∈ Grammar.rules, r.head ∈ semicolonRules.map Rule.head → r ∉ semicolonRules →
    Outline.leads (fun o => o ≠ some ⟨[], .done, 0⟩) (some Outline.start) r.body = true := by
  decide

variable {w : List Terminal} {tokens : List Token} {semicolon : Token} {d : Derivation}

theorem semicolonRules_only (h : ruleTable.Derives [.cat .expr] w) (hbrace : w.head? ≠ some .leftBrace) {rule : Rule}
    (hrule : rule ∈ semicolonRules) {r : Rule} (hr : r ∈ ruleTable.rules) (hhead : r.head = rule.head)
    (hbody : ruleTable.Derives r.body (w ++ [.semicolon])) : r = rule := by
  have hmem : r ∈ semicolonRules := by
    by_contra hnot
    exact not_derives_of_expr h hbrace
      (leads_semicolonRules r (mem_ruleTable.mp hr) (hhead ▸ List.mem_map_of_mem hrule) hnot) hbody
  have hheads : ∀ r ∈ semicolonRules, ∀ r' ∈ semicolonRules, r.head = r'.head → r = r' := by decide
  exact hheads r hmem rule hrule hhead

/-- An expression with a semicolon after it is a list of statements. -/
theorem sentence_semicolon (h : ruleTable.Derives [.cat .expr] w) : Sentence .script (w ++ [.semicolon]) := by
  have hstep {r : Rule} (hr : r ∈ semicolonRules) {v : List Terminal} (hv : ruleTable.Derives r.body v) :
      ruleTable.Derives [.cat r.head] v :=
    Derives.single (mem_ruleTable.mpr (semicolonRules_mem r hr)) hv
  have hsimple := hstep (r := expressionStatement) (by decide) (h.append (.tok .semicolon .nil))
  have hclosed := hstep (r := passes .closedStatement .simpleStatement) (by decide) hsimple
  have hstatement := hstep (r := passes .statement .closedStatement) (by decide) hclosed
  have hstatements := hstep (r := oneStatement) (by decide) hstatement
  exact sentence_iff.mpr (.inl (hstep (r := passes .script .statements) (by decide) hstatements))

/-- The derivation of an expression with a semicolon after it, as a list of statements. -/
def asScript (l : Location) (d : Derivation) (semicolon : Token) : Derivation :=
  .node (passes .script .statements) l [.node oneStatement l [.node (passes .statement .closedStatement) l
    [.node (passes .closedStatement .simpleStatement) l [.node expressionStatement l [d, .leaf semicolon]]]]]

/-- The only rule for the text of an expression passes it on. -/
theorem eq_passes_expr {r : Rule} (hr : r ∈ ruleTable.rules) (hhead : r.head = .expression) : r = passes .expression .expr := by
  have honly : ∀ r ∈ Grammar.rules, r.head = .expression → r = passes .expression .expr := by decide
  exact honly r (mem_ruleTable.mp hr) hhead

theorem derives_expr (h : Sentence .expression w) : ruleTable.Derives [.cat .expr] w := by
  rcases sentence_iff.mp h with hw | ⟨-, hempty⟩
  · obtain ⟨r, hr, hhead, hbody⟩ := hw.of_single
    rwa [eq_passes_expr hr hhead] at hbody
  · cases hempty

/-- What a rule begins with is awaited where the rule is. -/
theorem awaited_corner {start c : Category} {r : Rule} (hr : r ∈ Grammar.rules) (hc : ∃ rest, r.body = .cat c :: rest)
    (h : ruleTable.Awaited start r.head []) : ruleTable.Awaited start c [] := by
  obtain ⟨rest, hbody⟩ := hc
  have hsplit : r.body = [] ++ .cat c :: rest := hbody
  exact .inside (mem_ruleTable.mpr hr) h hsplit .nil

/-- A list of statements may begin with an expression. -/
theorem awaited_semicolon : ruleTable.Awaited .script .expr [] := by
  have hcorner {r : Rule} (hr : r ∈ semicolonRules) {c : Category} (hc : ∃ rest, r.body = .cat c :: rest)
      (h : ruleTable.Awaited .script r.head []) : ruleTable.Awaited .script c [] :=
    awaited_corner (semicolonRules_mem r hr) hc h
  have hstatements := hcorner (r := passes .script .statements) (by decide) ⟨_, rfl⟩ .start
  have hstatement := hcorner (r := oneStatement) (by decide) ⟨_, rfl⟩ hstatements
  have hclosed := hcorner (r := passes .statement .closedStatement) (by decide) ⟨_, rfl⟩ hstatement
  have hsimple := hcorner (r := passes .closedStatement .simpleStatement) (by decide) ⟨_, rfl⟩ hclosed
  exact hcorner (r := expressionStatement) (by decide) ⟨_, rfl⟩ hsimple

/-- Where tokens are read as an expression, they are read as an expression statement with a semicolon after them. -/
theorem readTokens_semicolon (hexpr : ruleTable.Derives [.cat .expr] (terminals tokens))
    (hsemicolon : semicolon.terminal = .semicolon) (hread : readTokens .expression tokens = .sentence (some d))
    (hbrace : (terminals tokens).head? ≠ some .leftBrace) :
    ∃ l l' d', d = .node (passes .expression .expr) l [d'] ∧
      readTokens .script (tokens ++ [semicolon]) = .sentence (some (asScript l' d' semicolon)) := by
  obtain ⟨sets, depth, hfull, hd⟩ := exists_chart hread
  obtain ⟨below, d', hd', rfl⟩ := Chart.derive?_passes hfull (fun r hr hhead _ => eq_passes_expr hr hhead)
    proper_ruleTable rfl (Nat.le_refl _) hd
  have hterminals : terminals (tokens ++ [semicolon]) = terminals tokens ++ [.semicolon] := by
    simp [terminals, hsemicolon]
  obtain ⟨script, hscript, -, -⟩ := readTokens_of_sentence (by simp) (hterminals ▸ sentence_semicolon hexpr)
  obtain ⟨sets', depth', hfull', hd₁⟩ := exists_chart hscript
  have hwhole : stretch (terminals (tokens ++ [semicolon])) 0 (tokens ++ [semicolon]).length =
      terminals tokens ++ [.semicolon] := by
    rw [hterminals]
    simp [stretch, terminals]
  have honly (rule : Rule) (hrule : rule ∈ semicolonRules) (r : Rule) (hr : r ∈ ruleTable.rules) (hhead : r.head = rule.head)
      (hbody : ruleTable.Derives r.body (stretch (terminals (tokens ++ [semicolon])) 0 (tokens ++ [semicolon]).length)) :
      r = rule :=
    semicolonRules_only hexpr hbrace hrule hr hhead (hwhole ▸ hbody)
  have hpasses (rule : Rule) (hrule : rule ∈ semicolonRules) {e : Category} (hbody : rule.body = [.cat e]) {depth : Nat}
      {d : Derivation} (hd : Chart.derive? ⟨ruleTable, (tokens ++ [semicolon]).toArray, sets'⟩ depth rule.head 0
        (tokens ++ [semicolon]).length = some d) :=
    Chart.derive?_passes hfull' (honly rule hrule) proper_ruleTable hbody (Nat.le_refl _) hd
  obtain ⟨_, d₂, hd₂, rfl⟩ := hpasses (passes .script .statements) (by decide) rfl hd₁
  obtain ⟨_, d₃, hd₃, rfl⟩ := hpasses oneStatement (by decide) rfl hd₂
  obtain ⟨_, d₄, hd₄, rfl⟩ := hpasses (passes .statement .closedStatement) (by decide) rfl hd₃
  obtain ⟨_, d₅, hd₅, rfl⟩ := hpasses (passes .closedStatement .simpleStatement) (by decide) rfl hd₄
  obtain ⟨depth₅, number, parts, hparts, rfl⟩ :=
    Chart.derive?_only hfull' (honly expressionStatement (by decide)) (Nat.le_refl _) hd₅
  -- the last part is the semicolon, and before it stands what the expression is
  have hbody : expressionStatement.body.reverse = [.tok .semicolon, .cat .expr] := rfl
  have htoken : (tokens ++ [semicolon]).toArray[tokens.length]? = some semicolon := by simp
  rw [hbody, List.length_append, List.length_singleton, Chart.parts?] at hparts
  simp only [htoken] at hparts
  obtain ⟨d₆, hd₆, rfl⟩ := Chart.parts?_first hfull' proper_ruleTable (by simp) hparts
  have hboth : Chart.BothAwait ruleTable .expression .script tokens (tokens ++ [semicolon]) .expr 0 :=
    ⟨awaited_corner (r := passes .expression .expr) (by decide) ⟨_, rfl⟩ .start, awaited_semicolon⟩
  obtain rfl := Chart.derive?_agree hfull hfull' (Nat.le_refl _) (by simp) (by simp) proper_ruleTable (Nat.le_refl _) hboth hd' hd₆
  exact ⟨_, _, d', rfl, hscript⟩

section

variable [Host]

/-- A rule that passes on a category builds what the category does. -/
theorem build_passed {read : String → Except SyntaxError Expr} {c e : Category} {l : Location} {p : Piece}
    (h : (Derivation.node (passes c e) l [d]).build read = .ok p) : d.build read = .ok p := by
  simp only [Derivation.build, Derivation.buildAll] at h
  cases hd : d.build read with
  | error e => simp [hd] at h
  | ok p' =>
    simp only [hd] at h
    exact h

/-- What is built from an expression with a semicolon after it is an expression statement. -/
theorem build_asScript {read : String → Except SyntaxError Expr} {x : Expr} (hd : d.build read = .ok (.expr x)) (l : Location)
    (semicolon : Token) : (asScript l d semicolon).build read = .ok (.many [.stmt (.expression l x)]) := by
  simp only [asScript, Derivation.build, Derivation.buildAll, hd]
  rfl

/-- The first token of a text is no opening brace. -/
def BeginsWithoutBrace (text : String) : Prop := (terminals (lex text).tokens).head? ≠ some .leftBrace

instance (text : String) : Decidable (BeginsWithoutBrace text) := inferInstanceAs (Decidable (_ ≠ _))

/-- An expression that does not begin with a brace cannot be read as statements, and with a semicolon on a new line after
it, it is read as one statement. -/
theorem parseStatements_of_expression {text : String} {x : Expr} (h : parseExpression text = .ok x)
    (hbrace : BeginsWithoutBrace text) : (∃ e, parseStatements text = .error e ∧ e.isFatal = false) ∧
      ∃ l, parseStatements (text ++ "\n;") = .ok [.expression l x] := by
  have hparse := h
  rw [parseExpression, embeddingLimit, readExpr] at hparse
  split at hparse
  · cases hparse
  · rename_i piece hpiece
    obtain ⟨rfl, hjumps⟩ := checkedExpr_ok hparse
    unfold readPiece at hpiece
    split at hpiece
    · cases hpiece
    · cases hpiece
    · rename_i d hderive
      obtain ⟨hstop, hsentence⟩ := sentence_of_derive hderive
      obtain ⟨_, ⟨⟩, hof, htokens⟩ := (derive_ok hderive).resolve_left (by simp)
      obtain ⟨place, htokens', hstop'⟩ := lex_line hstop
      have hexpr := derives_expr hsentence
      have hsemicolon : (⟨.semicolon, ";", place⟩ : Token).terminal = .semicolon := rfl
      obtain ⟨l, l', d', rfl, hscript⟩ := readTokens_semicolon hexpr hsemicolon (readTokens_of_derive hderive) hbrace
      -- the expression is built in the same way where more levels of embedded texts are allowed for
      have hbuild : d'.build (readExpr (embeddingLimit (text ++ "\n;"))) = .ok (.expr x) := by
        obtain ⟨_, _, _, ⟨⟩, -, -, hparts⟩ := hof.node_inv
        obtain _ | @⟨_, _, _, _, hpart, -⟩ := hparts
        simp only [Derivation.tokens, Derivation.tokensAll, List.append_nil] at htokens
        rw [← build_passed hpiece]
        refine (Derivation.build_congr (fun _ _ hx => (readExpr_accepted hx).regular) hpart
          (fun t ht => lex_spelled text t (htokens ▸ ht)) fun t ht code hcode => ?_).symm
        have hlt := hcode.length_lt (htokens ▸ ht)
        refine readExpr_eq hlt ?_
        simp only [embeddingLimit, String.length_append]
        omega
      have hderive' : derive .script (text ++ "\n;") =
          .ok (some (asScript l' d' ⟨.semicolon, ";", place⟩)) := by
        simp only [derive, htokens', hstop', hscript]
      constructor
      · obtain ⟨e, he, hfatal⟩ := derive_error_of_not_sentence (not_script_of_expr hexpr hbrace)
        exact ⟨e, by simp only [parseStatements, readPiece, he], hfatal⟩
      · refine ⟨l', ?_⟩
        have hjump : jumpErrorStmts .nothing [.expression l' x] = none := firstError_eq_none.mpr ⟨hjumps, rfl⟩
        simp only [parseStatements, readPiece, hderive', build_asScript hbuild]
        simp only [Piece.flatten, List.filterMap_cons, Piece.stmt?, List.filterMap_nil, hjump]

end

end Syntax

open Dartlet.Syntax (Expr parseExpression BeginsWithoutBrace)

section

variable [Host]

/-- In a session, the text of an expression that does not begin with a brace may have a semicolon on a new line after it:
the same expression is evaluated in the same state, so that the result, the output and the state at the end are the same.
A value that it has is shown. -/
theorem trailing_semicolons_change_nothing {text : String} {x : Expr} (h : parseExpression text = .ok x)
    (hbrace : BeginsWithoutBrace text) (scope : Address) (s : Store) :
    runInput scope (text ++ "\n;") s = runInput scope text s ∧
      runInput scope text s = Run.ofOutcome (replyExpression scope x s) ∧
      ∀ reply, (runInput scope text s).result = .ok reply → reply.echo = true := by
  obtain ⟨⟨complaint, hcomplaint, hfatal⟩, l, hstatement⟩ := Syntax.parseStatements_of_expression h hbrace
  have hwithout : Input.read text = .ok (.expression x) := by
    simp only [Input.read, hcomplaint, hfatal, Bool.false_eq_true, if_false, h]
  have hwith : Input.read (text ++ "\n;") = .ok (.statements [.expression l x]) := by
    simp only [Input.read, hstatement]
  have hrun : runInput scope text s = Run.ofOutcome (replyExpression scope x s) := by
    rw [runInput_eq, hwithout]
    rfl
  refine ⟨?_, hrun, fun reply hreply => ?_⟩
  · rw [hrun, runInput_eq, hwith]
    rfl
  · rw [hrun, replyExpression] at hreply
    change (Run.ofOutcome (Action.bind _ _ s)).result = _ at hreply
    unfold Action.bind at hreply
    cases hv : evalIn scope x s with
    | done v t =>
      rw [hv] at hreply
      cases hreply
      rfl
    | _ =>
      rw [hv] at hreply
      cases hreply

end

/-- `a - b - 1` is an input for which the semicolon changes nothing: `a` is unbound with it and without it. -/
theorem trailing_semicolons_change_nothing_difference :
    ∃ x, parseExpression "a - b - 1" = .ok x ∧ BeginsWithoutBrace "a - b - 1" ∧
      runInput rootScope ("a - b - 1" ++ "\n;") Store.initial = runInput rootScope "a - b - 1" Store.initial ∧
      runInput rootScope "a - b - 1" Store.initial = Run.ofOutcome (replyExpression rootScope x Store.initial) := by
  obtain ⟨x, hx⟩ := Syntax.exists_difference
  have hbrace : BeginsWithoutBrace "a - b - 1" := by decide
  obtain ⟨hsame, hrun, -⟩ := trailing_semicolons_change_nothing hx hbrace rootScope Store.initial
  exact ⟨x, hx, hbrace, hsame, hrun⟩

end Dartlet
