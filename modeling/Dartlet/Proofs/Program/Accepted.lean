import Dartlet.Proofs.Grammar.Acceptance
import Dartlet.Proofs.Program.BuiltExpressions
import Dartlet.Proofs.Program.Jumps

/-!
# Programs that are read from texts

What is built from a derivation has the kind of the symbol that is derived, by induction on the
derivation. So the trees read from texts are regular, whole programs consist of declarations, and
their jumps have been checked.
-/

namespace Dartlet.Syntax

set_option linter.unusedSectionVars false

variable [Host] {read : String → Except SyntaxError Expr}

theorem Construct.builds (hread : ∀ text x, read text = .ok x → (Node.expr x).Regular) (c : Construct)
    (hc : c ∉ [same, single, appended]) : Builds read c := by
  cases c with
  | same | single | appended => simp at hc
  | directive | formals | optionalParameters | namedParameters | declarationWord | variableDeclarations | type =>
    exact builds_declaration _ (by decide)
  | breakStmt | continueStmt | rethrowStmt | emptyStmt | block => exact builds_statement _ (by decide)
  | arguments | nullLiteral | trueLiteral | falseLiteral | listLiteral | setOrMapLiteral =>
    exact builds_literal _ (by decide)
  | spread | nullAwareSpread | nullAwareElement => exact builds_marked _ (by decide)
  | unit => exact builds_unit
  | function => exact builds_function
  | blockBody => exact builds_blockBody
  | expressionBody => exact builds_expressionBody
  | normal => exact builds_normal
  | defaulted => exact builds_defaulted
  | typeArguments => exact builds_typeArguments
  | conditionalStmt => exact builds_conditionalStmt
  | whileStmt => exact builds_whileStmt
  | forStmt => exact builds_forStmt
  | variablesStmt => exact builds_variablesStmt
  | expressionStmt => exact builds_expressionStmt
  | returnStmt => exact builds_returnStmt
  | doStmt => exact builds_doStmt
  | tryStmt => exact builds_tryStmt
  | catchClause => exact builds_catchClause
  | forClassic => exact builds_forClassic
  | forEach => exact builds_forEach
  | startDeclarations => exact builds_startDeclarations
  | startExpressions => exact builds_startExpressions
  | declaredVariable => exact builds_declaredVariable
  | existingVariable => exact builds_existingVariable
  | arrowFunction => exact builds_arrowFunction
  | throwing => exact builds_throwing
  | assignment => exact builds_assignment
  | conditional => exact builds_conditional
  | binary => exact builds_binary
  | unary => exact builds_unary
  | postfixed => exact builds_postfixed
  | property => exact builds_property
  | call => exact builds_call
  | index => exact builds_index
  | positional => exact builds_positional
  | named => exact builds_named
  | identifier => exact builds_identifier
  | parenthesized => exact builds_parenthesized
  | functionLiteral => exact builds_functionLiteral
  | intLiteral => exact builds_intLiteral
  | doubleLiteral => exact builds_doubleLiteral
  | stringLiteral => exact builds_stringLiteral hread
  | plainElement => exact builds_plainElement
  | mapEntry => exact builds_mapEntry
  | elementIf => exact builds_elementIf
  | elementFor => exact builds_elementFor
  | _ => exact builds_variable

theorem FitsAll.one {k : Kind} {ps : List Piece} (h : FitsAll [k] ps) : ∃ p, ps = [p] ∧ p.Fits k := by
  cases h with
  | cons hp hnil =>
    cases hnil
    exact ⟨_, rfl, hp⟩

theorem FitsAll.more {k : Kind} {ks : List Kind} {ps : List Piece} (h : FitsAll (k :: ks) ps) :
    ∃ p qs, ps = p :: qs ∧ p.Fits k ∧ FitsAll ks qs := by
  cases h with
  | cons hp hps => exact ⟨_, _, rfl, hp, hps⟩

section

variable {ks : List Kind} {k : Kind} {l : Location} {ps : List Piece} {p : Piece}

private theorem fits_same (hks : (match ks with | [k'] | [_, k'] => k'.le k | _ => false) = true)
    (hps : FitsAll ks ps) (h : assemble read .same l ps = .ok p) : p.Fits k := by
  split at hks
  · obtain ⟨q, rfl, hq⟩ := hps.one
    cases h
    exact hq.of_le hks
  · obtain ⟨_, _, rfl, -, hrest⟩ := hps.more
    obtain ⟨q, rfl, hq⟩ := hrest.one
    cases h
    exact hq.of_le hks
  · cases hks

private theorem fits_single (hks : (match ks with | [k'] => k == .list k' | _ => false) = true)
    (hps : FitsAll ks ps) (h : assemble read .single l ps = .ok p) : p.Fits k := by
  split at hks
  · obtain ⟨q, rfl, hq⟩ := hps.one
    cases h
    rw [eq_of_beq hks]
    exact ⟨_, rfl, by simpa using hq⟩
  · cases hks

private theorem fits_appended
    (hks : (match ks with
      | [.list k₁, k₂] | [.list k₁, _, k₂] => k == .list k₁ && k₂.le k₁
      | _ => false) = true)
    (hps : FitsAll ks ps) (h : assemble read .appended l ps = .ok p) : p.Fits k := by
  have hlist {k₁ k₂ : Kind} {found : List Piece} {q : Piece} (hk : (k == .list k₁ && k₂.le k₁) = true)
      (hfound : ∀ q ∈ found, q.Fits k₁) (hq : q.Fits k₂) : (Piece.many (found ++ [q])).Fits k := by
    rw [Bool.and_eq_true] at hk
    rw [eq_of_beq hk.1]
    exact ⟨_, rfl, by simpa [or_imp, forall_and] using ⟨hfound, hq.of_le hk.2⟩⟩
  split at hks
  · obtain ⟨_, _, rfl, ⟨found, rfl, hfound⟩, hrest⟩ := hps.more
    obtain ⟨q, rfl, hq⟩ := hrest.one
    cases h
    exact hlist hks hfound hq
  · obtain ⟨_, _, rfl, ⟨found, rfl, hfound⟩, hrest⟩ := hps.more
    obtain ⟨_, _, rfl, -, hrest⟩ := hrest.more
    obtain ⟨q, rfl, hq⟩ := hrest.one
    cases h
    exact hlist hks hfound hq
  · cases hks

end

/-- A rule that respects the kinds brings pieces that its construct can take. -/
theorem Rule.takes {r : Rule} (hr : r.respectsKinds = true) (hc : r.construct ∉ [.same, .single, .appended])
    {ps : List Piece} (hps : FitsAll (r.body.map Symbol.kind) ps) : r.construct.Takes ps := by
  have hkinds : (r.construct.result.le r.head.kind &&
      (r.construct.isFree || r.construct.shapes.any (fun shape => matchesShape shape (r.body.map Symbol.kind)))) = true := by
    unfold Rule.respectsKinds at hr
    cases hconstruct : r.construct with
    | same | single | appended => simp [hconstruct] at hc
    | _ => rwa [hconstruct] at hr
  rw [Bool.and_eq_true, Bool.or_eq_true] at hkinds
  exact ⟨hps.sound, fun hfree => hps.oneOf (hkinds.2.resolve_left (by simp [hfree]))⟩

/-- A rule that respects the kinds builds what its category stands for. -/
theorem Rule.builds (hread : ∀ text x, read text = .ok x → (Node.expr x).Regular) {r : Rule}
    (hr : r.respectsKinds = true) {l : Location} {ps : List Piece} {p : Piece}
    (hps : FitsAll (r.body.map Symbol.kind) ps) (h : assemble read r.construct l ps = .ok p) :
    p.Fits r.head.kind := by
  have hbuilds {c : Construct} (hc : c ∉ [.same, .single, .appended]) (h : assemble read c l ps = .ok p)
      (hkinds : (c.result.le r.head.kind &&
        (c.isFree || c.shapes.any (fun shape => matchesShape shape (r.body.map Symbol.kind)))) = true) :
      p.Fits r.head.kind := by
    rw [Bool.and_eq_true, Bool.or_eq_true] at hkinds
    refine (c.builds hread hc ⟨hps.sound, fun hfree => ?_⟩ h).of_le hkinds.1
    exact hps.oneOf (hkinds.2.resolve_left (by simp [hfree]))
  unfold Rule.respectsKinds at hr
  cases hconstruct : r.construct with
  | same =>
    rw [hconstruct] at hr h
    exact fits_same hr hps h
  | single =>
    rw [hconstruct] at hr h
    exact fits_single hr hps h
  | appended =>
    rw [hconstruct] at hr h
    exact fits_appended hr hps h
  | _ =>
    rw [hconstruct] at hr h
    exact hbuilds (by decide) h hr

namespace Derivation

mutual

/-- What is built from a derivation has the kind of the symbol that is derived. -/
theorem build_fits (hread : ∀ text x, read text = .ok x → (Node.expr x).Regular) {s : Symbol} {d : Derivation}
    (hd : d.Of ruleTable s) (htokens : ∀ t ∈ d.tokens, t.Spelled) {p : Piece} (h : d.build read = .ok p) :
    p.Fits s.kind := by
  cases hd with
  | leaf t =>
    cases h
    exact ⟨t, rfl, List.mem_singleton_self _, htokens t (List.mem_singleton_self _)⟩
  | node hr hparts =>
    rename_i r l parts
    simp only [build] at h
    split at h
    · cases h
    · rename_i ps hps
      exact Rule.builds hread (Grammar.respectsKinds r (Grammar.mem_ruleTable.mp hr))
        (buildAll_fits hread hparts htokens hps) h

theorem buildAll_fits (hread : ∀ text x, read text = .ok x → (Node.expr x).Regular) {symbols : List Symbol}
    {parts : List Derivation} (hparts : AllOf ruleTable symbols parts) (htokens : ∀ t ∈ tokensAll parts, t.Spelled)
    {ps : List Piece} (h : buildAll read parts = .ok ps) : FitsAll (symbols.map Symbol.kind) ps := by
  cases hparts with
  | nil =>
    cases h
    exact .nil
  | cons hd hrest =>
    simp only [tokensAll, List.mem_append] at htokens
    simp only [buildAll] at h
    split at h
    · cases h
    · rename_i p hp
      split at h
      · cases h
      · rename_i ps' hps
        cases h
        exact .cons (build_fits hread hd (fun t ht => htokens t (.inl ht)) hp)
          (buildAll_fits hread hrest (fun t ht => htokens t (.inr ht)) hps)

end

end Derivation

/-- A construct as it is read from a text: nothing in it is out of place, and its jumps have targets. -/
structure Node.Accepted (n : Node) : Prop where
  regular : n.Regular
  lands : n.jumpError .nothing = none

theorem readPiece_fits (hread : ∀ text x, read text = .ok x → (Node.expr x).Regular) {start : Category} {text : String}
    {p : Piece} (h : readPiece read start text = .ok p) : p = .many [] ∨ p.Fits start.kind := by
  unfold readPiece at h
  split at h
  · cases h
  · cases h
    exact .inl rfl
  · rename_i d hderive
    rcases derive_ok hderive with hnone | ⟨d', ⟨⟩, hof, htokens⟩
    · cases hnone
    · exact .inr (Derivation.build_fits hread hof (htokens ▸ lex_spelled text) h)

theorem checkedExpr_ok {p : Piece} {x : Expr} (h : checkedExpr p = .ok x) :
    p = .expr x ∧ (Node.expr x).jumpError .nothing = none := by
  unfold checkedExpr at h
  split at h
  · split at h
    · cases h
    · rename_i hlands
      cases h
      exact ⟨rfl, hlands⟩
  · cases h

theorem readExpr_accepted {depth : Nat} {text : String} {x : Expr} (h : readExpr depth text = .ok x) :
    (Node.expr x).Accepted := by
  induction depth generalizing text x with
  | zero => cases h
  | succ depth ih =>
    simp only [readExpr] at h
    split at h
    · cases h
    · rename_i p hp
      obtain ⟨rfl, hlands⟩ := checkedExpr_ok h
      rcases readPiece_fits (fun _ _ hx => (ih hx).regular) hp with hnone | ⟨x', ⟨⟩, hregular⟩
      · cases hnone
      · exact ⟨hregular, hlands⟩

theorem parseExpression_accepted {text : String} {x : Expr} (h : parseExpression text = .ok x) :
    (Node.expr x).Accepted :=
  readExpr_accepted h

theorem parseStatements_accepted {text : String} {xs : List Stmt} (h : parseStatements text = .ok xs) :
    ∀ x ∈ xs, (Node.stmt x).Accepted := by
  unfold parseStatements at h
  split at h
  · cases h
  · rename_i p hp
    simp only at h
    split at h
    · cases h
    · rename_i hlands
      cases h
      have hsound : p.Sound := by
        rcases readPiece_fits (fun _ _ hx => (readExpr_accepted hx).regular) hp with rfl | hfits
        · exact ⟨.list .stmt, [], rfl, by simp⟩
        · exact hfits.sound
      intro x hx
      have hmem := List.mem_map_of_mem (f := Node.stmt) hx
      exact ⟨(AllSound.nodes hsound.flatten).stmts _ hmem, (jumpErrorStmts_eq_none _ _).mp hlands _ hmem⟩

/-- Whole programs are lists of declarations. -/
theorem parseUnit_accepted {text : String} {x : Stmt} (h : parseUnit text = .ok x) :
    (Node.stmt x).Accepted ∧ ∃ l xs, x = .unit l xs ∧ ∀ y ∈ xs, y.isDeclaration = true := by
  unfold parseUnit at h
  split at h
  · cases h
  · rename_i p hp
    simp only at h
    split at h
    · cases h
    · rename_i hlands
      cases h
      rcases readPiece_fits (fun _ _ hx => (readExpr_accepted hx).regular) hp with
        rfl | ⟨l, xs, rfl, hregular, hdeclares⟩
      · have hregular : (Node.stmt (.unit none [])).Regular :=
          .mk (by rintro f ⟨⟩) (by simp [Node.children, Stmt.children])
        exact ⟨⟨hregular, hlands⟩, none, [], rfl, by simp⟩
      · exact ⟨⟨hregular, hlands⟩, l, xs, rfl, hdeclares⟩

end Dartlet.Syntax
