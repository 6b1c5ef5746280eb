import Dartlet.Proofs.Program.Pieces

/-!
# What the constructs of declarations and statements build

Each construct builds a piece of its kind from the pieces that it expects.
-/

namespace Dartlet.Syntax

set_option linter.unusedSectionVars false

theorem Stmt.regular_function {l : Location} {name : String} {parameters : List Parameter} {body : FunctionBody}
    {type : Option String} (hparameters : ∀ q ∈ parameters, q.IsKnown) (hbody : (Node.body body).Regular) :
    (Node.stmt (.function l name parameters body type)).Regular := by
  constructor
  · intro f hf
    cases hf with
    | function _ _ _ _ _ q hq hkind => exact (hparameters q hq).fault hkind _ _
  · simpa [Node.children, Stmt.children, or_imp, forall_and, Node.regular_parameter] using hbody

theorem Expr.regular_functionLiteral {l : Location} {parameters : List Parameter} {body : FunctionBody}
    (hparameters : ∀ q ∈ parameters, q.IsKnown) (hbody : (Node.body body).Regular) :
    (Node.expr (.functionLiteral l parameters body)).Regular := by
  constructor
  · intro f hf
    cases hf with
    | literal _ _ _ q hq hkind => exact (hparameters q hq).fault hkind _ _
  · simpa [Node.children, Expr.children, or_imp, forall_and, Node.regular_parameter] using hbody

theorem FunctionBody.regular_block {l : Location} {s : Stmt} (h : (Node.stmt s).Regular) :
    (Node.body (.block l s)).Regular :=
  .mk (by rintro f ⟨⟩) (by simpa [Node.children] using h)

theorem FunctionBody.regular_expression {l : Location} {x : Expr} (h : (Node.expr x).Regular) :
    (Node.body (.expression l x)).Regular :=
  .mk (by rintro f ⟨⟩) (by simpa [Node.children] using h)

/-- Pieces that a construct can take. -/
def Construct.Takes (c : Construct) (ps : List Piece) : Prop :=
  AllSound ps ∧ (c.isFree = false → FitsOneOf c.shapes ps)

variable [Host]

/-- A construct builds a piece of its kind from all pieces that it can take. -/
def Construct.Builds (read : String → Except SyntaxError Expr) (c : Construct) : Prop :=
  ∀ ⦃l ps p⦄, c.Takes ps → assemble read c l ps = .ok p → p.Fits c.result

namespace Construct

variable {read : String → Except SyntaxError Expr}

theorem builds_unit : Builds read .unit := by
  rintro l ps p ⟨hsound, h⟩ ⟨⟩
  have hdeclares : ∀ q ∈ flattenPieces ps, ∀ x, q.stmt? = some x → x.isDeclaration = true := by
    have hnone : ∀ qs : List Piece, (∀ q ∈ qs, q.Fits .nothing) → ∀ q ∈ qs, ∀ x, q.stmt? = some x →
        x.isDeclaration = true := by
      rintro qs hqs q hq x hx
      rw [show q = .nothing from hqs q hq] at hx
      cases hx
    have hsome : ∀ qs : List Piece, (∀ q ∈ qs, q.Fits .declaration) → ∀ q ∈ qs, ∀ x, q.stmt? = some x →
        x.isDeclaration = true := by
      rintro qs hqs q hq x hx
      obtain ⟨y, rfl, -, hy⟩ := hqs q hq
      cases hx
      exact hy
    rcases h rfl with ⟨_, _, rfl, ⟨qs, rfl, hqs⟩, rfl⟩ | ⟨_, _, rfl, ⟨qs, rfl, hqs⟩, rfl⟩ |
      ⟨_, _, rfl, ⟨qs, rfl, hqs⟩, _, _, rfl, ⟨qs', rfl, hqs'⟩, rfl⟩
    · simpa [flattenPieces, Piece.flatten] using hnone qs hqs
    · simpa [flattenPieces, Piece.flatten] using hsome qs hqs
    · simpa [flattenPieces, Piece.flatten, or_imp, forall_and] using ⟨hnone qs hqs, hsome qs' hqs'⟩
  refine ⟨l, _, rfl, .mk (by rintro f ⟨⟩) hsound.flatten.nodes.stmts, fun x hx => ?_⟩
  obtain ⟨q, hq, hqx⟩ := List.mem_filterMap.mp hx
  exact hdeclares q hq x hqx

theorem builds_function : Builds read .function := by
  rintro l ps p ⟨-, h⟩ ha
  rcases h rfl with
    ⟨_, _, rfl, ⟨type, rfl⟩, _, _, rfl, ⟨t, rfl, -⟩, _, _, rfl, ⟨qs, rfl, hqs⟩, _, _, rfl, ⟨b, rfl, hb⟩, rfl⟩ |
    ⟨_, _, rfl, ⟨t, rfl, -⟩, _, _, rfl, ⟨qs, rfl, hqs⟩, _, _, rfl, ⟨b, rfl, hb⟩, rfl⟩
  all_goals
    cases ha
    have hknown := AllSound.parameters (fun q hq => (hqs q hq).sound)
    exact ⟨_, rfl, Stmt.regular_function hknown hb, rfl⟩

theorem builds_blockBody : Builds read .blockBody := by
  rintro l ps p ⟨-, h⟩ ha
  obtain ⟨_, _, rfl, ⟨x, rfl, hx⟩, rfl⟩ := h rfl
  cases ha
  exact ⟨_, rfl, FunctionBody.regular_block hx⟩

theorem builds_expressionBody : Builds read .expressionBody := by
  rintro l ps p ⟨-, h⟩ ha
  obtain ⟨_, _, rfl, _, _, rfl, ⟨x, rfl, hx⟩, _, _, rfl, rfl⟩ := h rfl
  cases ha
  exact ⟨_, rfl, FunctionBody.regular_expression hx⟩

theorem builds_normal : Builds read .normal := by
  rintro l ps p ⟨-, h⟩ ha
  rcases h rfl with ⟨_, _, rfl, ⟨t, rfl, -⟩, rfl⟩ | ⟨_, _, rfl, _, _, rfl, ⟨t, rfl, -⟩, rfl⟩ |
    ⟨_, _, rfl, _, _, rfl, _, _, rfl, ⟨t, rfl, -⟩, rfl⟩
  all_goals
    cases ha
    exact ⟨_, rfl, .inl rfl⟩

theorem builds_defaulted : Builds read .defaulted := by
  rintro l ps p ⟨hsound, h⟩ ha
  obtain ⟨q, hq⟩ : ∃ q, .parameter q ∈ ps := by
    rcases h rfl with ⟨_, _, rfl, ⟨q, rfl, -⟩, rfl⟩ | ⟨_, _, rfl, _, _, rfl, ⟨q, rfl, -⟩, rfl⟩ |
      ⟨_, _, rfl, ⟨q, rfl, -⟩, _⟩ | ⟨_, _, rfl, _, _, rfl, ⟨q, rfl, -⟩, _⟩
    all_goals exact ⟨q, by simp⟩
  unfold assemble at ha
  dsimp only at ha
  split at ha
  · rename_i q' rest hfound
    cases ha
    exact ⟨q', rfl, hsound.parameters q' (by simp [hfound])⟩
  · rename_i hfound
    have hmem : q ∈ ps.filterMap Piece.parameter? := List.mem_filterMap.mpr ⟨_, hq, rfl⟩
    simp [hfound] at hmem

/-- Parameters among sound pieces, turned into parameters of one of the kinds that texts have. -/
private theorem fits_parameters {ps : List Piece} {kind : ParameterKind} (hkind : kind = .optional ∨ kind = .named) :
    Piece.Fits (.list .parameter) (.many ((ps.filterMap Piece.parameter?).map
      (fun q => .parameter { q with kind := kind }))) := by
  refine ⟨_, rfl, fun p hp => ?_⟩
  obtain ⟨q, -, rfl⟩ := List.mem_map.mp hp
  exact ⟨_, rfl, .inr hkind⟩

theorem builds_variable : Builds read .variable := by
  rintro l ps p ⟨-, h⟩ ha
  rcases h rfl with ⟨_, _, rfl, ⟨t, rfl, -⟩, rfl⟩ |
    ⟨_, _, rfl, ⟨t, rfl, -⟩, _, _, rfl, _, _, rfl, ⟨x, rfl, hx⟩, rfl⟩
  · cases ha
    exact ⟨_, rfl, .mk (by rintro f ⟨⟩) (by simp [Node.children])⟩
  · cases ha
    exact ⟨_, rfl, .mk (by rintro f ⟨⟩) (by simpa [Node.children] using hx)⟩

theorem builds_typeArguments : Builds read .typeArguments := by
  rintro l ps p ⟨-, h⟩ ha
  obtain ⟨_, _, rfl, _, _, rfl, ⟨qs, rfl, hqs⟩, _, _, rfl, rfl⟩ := h rfl
  cases ha
  exact ⟨qs, rfl, hqs⟩

theorem builds_conditionalStmt : Builds read .conditionalStmt := by
  rintro l ps p ⟨-, h⟩ ha
  rcases h rfl with
    ⟨_, _, rfl, _, _, rfl, _, _, rfl, ⟨x, rfl, hx⟩, _, _, rfl, _, _, rfl, ⟨t, rfl, ht⟩, rfl⟩ |
    ⟨_, _, rfl, _, _, rfl, _, _, rfl, ⟨x, rfl, hx⟩, _, _, rfl, _, _, rfl, ⟨t, rfl, ht⟩, _, _, rfl, _, _, rfl,
      ⟨e, rfl, he⟩, rfl⟩
  · cases ha
    exact ⟨_, rfl, .mk (by rintro f ⟨⟩) (by simpa [Node.children, Stmt.children] using ⟨hx, ht⟩)⟩
  · cases ha
    exact ⟨_, rfl, .mk (by rintro f ⟨⟩) (by simpa [Node.children, Stmt.children] using ⟨hx, ht, he⟩)⟩

theorem builds_whileStmt : Builds read .whileStmt := by
  rintro l ps p ⟨-, h⟩ ha
  obtain ⟨_, _, rfl, _, _, rfl, _, _, rfl, ⟨x, rfl, hx⟩, _, _, rfl, _, _, rfl, ⟨b, rfl, hb⟩, rfl⟩ := h rfl
  cases ha
  exact ⟨_, rfl, .mk (by rintro f ⟨⟩) (by simpa [Node.children, Stmt.children] using ⟨hx, hb⟩)⟩

theorem builds_doStmt : Builds read .doStmt := by
  rintro l ps p ⟨-, h⟩ ha
  obtain ⟨_, _, rfl, _, _, rfl, ⟨b, rfl, hb⟩, _, _, rfl, _, _, rfl, _, _, rfl, ⟨x, rfl, hx⟩, _, _, rfl, _, _, rfl,
    rfl⟩ := h rfl
  cases ha
  exact ⟨_, rfl, .mk (by rintro f ⟨⟩) (by simpa [Node.children, Stmt.children] using ⟨hb, hx⟩)⟩

theorem builds_forStmt : Builds read .forStmt := by
  rintro l ps p ⟨-, h⟩ ha
  obtain ⟨_, _, rfl, _, _, rfl, _, _, rfl, ⟨header, rfl, hheader⟩, _, _, rfl, _, _, rfl, ⟨b, rfl, hb⟩, rfl⟩ := h rfl
  cases ha
  exact ⟨_, rfl, hheader l b hb⟩

theorem builds_variablesStmt : Builds read .variablesStmt := by
  rintro l ps p ⟨-, h⟩ ha
  obtain ⟨_, _, rfl, ⟨x, rfl, hx⟩, _, _, rfl, rfl⟩ := h rfl
  cases ha
  exact ⟨x, rfl, hx⟩

theorem builds_expressionStmt : Builds read .expressionStmt := by
  rintro l ps p ⟨-, h⟩ ha
  obtain ⟨_, _, rfl, ⟨x, rfl, hx⟩, _, _, rfl, rfl⟩ := h rfl
  cases ha
  exact ⟨_, rfl, .mk (by rintro f ⟨⟩) (by simpa [Node.children, Stmt.children] using hx)⟩

theorem builds_returnStmt : Builds read .returnStmt := by
  rintro l ps p ⟨-, h⟩ ha
  rcases h rfl with ⟨_, _, rfl, _, _, rfl, rfl⟩ | ⟨_, _, rfl, _, _, rfl, ⟨x, rfl, hx⟩, _, _, rfl, rfl⟩
  · cases ha
    exact ⟨_, rfl, .mk (by rintro f ⟨⟩) (by simp [Node.children, Stmt.children])⟩
  · cases ha
    exact ⟨_, rfl, .mk (by rintro f ⟨⟩) (by simpa [Node.children, Stmt.children] using hx)⟩

theorem head_nodes_subset {α : Type} (xs : List α) (node : α → Node) :
    xs.head?.toList.map node ⊆ xs.map node := by
  cases xs <;> simp

theorem builds_tryStmt : Builds read .tryStmt := by
  rintro l ps p ⟨hsound, h⟩ ha
  obtain ⟨first, x, rest, rfl, hx⟩ : ∃ first x rest, ps = first :: .stmt x :: rest ∧ (Node.stmt x).Regular := by
    rcases h rfl with ⟨_, _, rfl, _, _, rfl, ⟨x, rfl, hx⟩, _⟩ | ⟨_, _, rfl, _, _, rfl, ⟨x, rfl, hx⟩, _⟩ |
      ⟨_, _, rfl, _, _, rfl, ⟨x, rfl, hx⟩, _⟩
    all_goals exact ⟨_, x, _, rfl, hx⟩
  have hrest : AllSound rest := hsound.mono (by simp)
  change (if _ then _ else _) = Except.ok p at ha
  split at ha
  · cases ha
  · cases ha
    refine ⟨_, rfl, .mk (by rintro f ⟨⟩) (fun n hn => ?_)⟩
    simp only [Node.children, Stmt.children, List.cons_append, List.mem_cons, List.mem_append] at hn
    rcases hn with rfl | hn | hn
    · exact hx
    · exact hrest.flatten.nodes.clauses n hn
    · exact hrest.nodes.stmts n (head_nodes_subset _ _ hn)

theorem builds_catchClause : Builds read .catchClause := by
  have hclause : ∀ {l : Location} {x : Stmt} (type name trace : Option String), (Node.stmt x).Regular →
      (Node.clause (.mk l x type name trace)).Regular := by
    intro l x type name trace hx
    exact .mk (by rintro f ⟨⟩; rfl) (by simpa [Node.children] using hx)
  rintro l ps p ⟨-, h⟩ ha
  rcases h rfl with ⟨_, _, rfl, _, _, rfl, _, _, rfl, ⟨x, rfl, hx⟩, rfl⟩ |
    ⟨_, _, rfl, _, _, rfl, _, _, rfl, _, _, rfl, _, _, rfl, ⟨x, rfl, hx⟩, rfl⟩ |
    ⟨_, _, rfl, _, _, rfl, _, _, rfl, _, _, rfl, _, _, rfl, _, _, rfl, _, _, rfl, ⟨x, rfl, hx⟩, rfl⟩ |
    ⟨_, _, rfl, _, _, rfl, _, _, rfl, _, _, rfl, _, _, rfl, _, _, rfl, _, _, rfl, _, _, rfl, _, _, rfl,
      ⟨x, rfl, hx⟩, rfl⟩
  all_goals
    cases ha
    exact ⟨_, rfl, hclause _ _ _ hx⟩

theorem builds_forClassic : Builds read .forClassic := by
  rintro l ps p ⟨hsound, -⟩ ⟨⟩
  have hafter := hsound.after (fun q => !q.isToken .semicolon)
  refine ⟨_, rfl, fun l' body hbody => .mk (by rintro f ⟨⟩) (fun n hn => ?_)⟩
  simp only [classicHeader, LoopHeader.loop, Node.children, Stmt.children, List.cons_append, List.mem_cons,
    List.mem_append, List.not_mem_nil, or_false] at hn
  rcases hn with rfl | (hn | hn) | rfl
  · split
    · exact (hsound _ List.mem_cons_self).regular rfl
    · exact .mk (by rintro f ⟨⟩) (by simp [Node.children])
  · obtain ⟨x, hx, rfl⟩ := List.mem_map.mp hn
    obtain ⟨q, hq, hqx⟩ := Option.bind_eq_some_iff.mp (Option.mem_toList.mp hx)
    exact hafter.nodes.exprs _ (List.mem_map_of_mem (List.mem_filterMap.mpr ⟨q, List.mem_of_head? hq, hqx⟩))
  · exact (hafter.after _).flatten.nodes.exprs n hn
  · exact hbody

theorem builds_forEach : Builds read .forEach := by
  rintro l ps p ⟨-, h⟩ ha
  obtain ⟨_, _, rfl, ⟨name, declares, rfl⟩, _, _, rfl, _, _, rfl, ⟨x, rfl, hx⟩, rfl⟩ := h rfl
  cases ha
  refine ⟨_, rfl, fun l' body hbody => .mk (by rintro f ⟨⟩) ?_⟩
  simpa [LoopHeader.loop, Node.children, Stmt.children] using ⟨hx, hbody⟩

theorem builds_startDeclarations : Builds read .startDeclarations := by
  rintro l ps p ⟨-, h⟩ ha
  obtain ⟨_, _, rfl, ⟨x, rfl, hx⟩, rfl⟩ := h rfl
  cases ha
  exact ⟨_, rfl, .mk (by rintro f ⟨⟩) (by simpa [Node.children] using hx)⟩

theorem builds_startExpressions : Builds read .startExpressions := by
  rintro l ps p ⟨-, h⟩ ha
  obtain ⟨_, _, rfl, ⟨qs, rfl, hqs⟩, rfl⟩ := h rfl
  cases ha
  exact ⟨_, rfl, .mk (by rintro f ⟨⟩) (AllSound.nodes (fun q hq => (hqs q hq).sound)).exprs⟩

theorem builds_declaredVariable : Builds read .declaredVariable := by
  rintro l ps p ⟨-, h⟩ ha
  rcases h rfl with ⟨_, _, rfl, _, _, rfl, ⟨t, rfl, -⟩, rfl⟩ | ⟨_, _, rfl, _, _, rfl, _, _, rfl, ⟨t, rfl, -⟩, rfl⟩
  all_goals
    cases ha
    exact ⟨_, _, rfl⟩

theorem builds_existingVariable : Builds read .existingVariable := by
  rintro l ps p ⟨-, h⟩ ha
  obtain ⟨_, _, rfl, ⟨t, rfl, -⟩, rfl⟩ := h rfl
  cases ha
  exact ⟨_, _, rfl⟩

/-- The constructs of declarations, which take what they are given. -/
theorem builds_declaration : ∀ c ∈ [directive, formals, optionalParameters, namedParameters, declarationWord,
    variableDeclarations, type], Builds read c := by
  simp only [List.forall_mem_cons, List.not_mem_nil, false_implies, implies_true, and_true]
  refine ⟨?_, ?_, ?_, ?_, ?_, ?_, ?_⟩ <;> rintro l ps p ⟨hsound, -⟩ ⟨⟩
  · rfl
  · exact ⟨_, rfl, hsound.flatten.parameter_pieces⟩
  · exact fits_parameters (.inl rfl)
  · exact fits_parameters (.inr rfl)
  · exact ⟨_, rfl⟩
  · exact ⟨_, rfl, .mk (by rintro f ⟨⟩) hsound.flatten.nodes.vars, rfl⟩
  · exact ⟨_, rfl⟩

/-- The constructs of statements, which take what they are given. -/
theorem builds_statement : ∀ c ∈ [breakStmt, continueStmt, rethrowStmt, emptyStmt, block], Builds read c := by
  simp only [List.forall_mem_cons, List.not_mem_nil, false_implies, implies_true, and_true]
  refine ⟨?_, ?_, ?_, ?_, ?_⟩ <;> rintro l ps p ⟨hsound, -⟩ ⟨⟩
  · exact ⟨_, rfl, .mk (by rintro f ⟨⟩) (by simp [Node.children, Stmt.children])⟩
  · exact ⟨_, rfl, .mk (by rintro f ⟨⟩) (by simp [Node.children, Stmt.children])⟩
  · exact ⟨_, rfl, .mk (by rintro f ⟨⟩; rfl) (by simp [Node.children, Stmt.children])⟩
  · exact ⟨_, rfl, .mk (by rintro f ⟨⟩) (by simp [Node.children, Stmt.children])⟩
  · exact ⟨_, rfl, .mk (by rintro f ⟨⟩) hsound.flatten.nodes.stmts⟩

end Construct
end Dartlet.Syntax
