import Dartlet.Proofs.Program.BuiltStatements
import Dartlet.Proofs.Program.Placeless

/-!
# Constructs without places

A construct builds from pieces without places what it builds from the pieces themselves, without places. Only
string literals are different: they give their places to what they embed.
-/

namespace Dartlet.Syntax

set_option linter.unusedSectionVars false

section

variable (p : Piece)

@[simp] theorem token?_placeless : p.placeless.token? = p.token?.map Token.placeless := by cases p <;> rfl
@[simp] theorem expr?_placeless : p.placeless.expr? = p.expr?.map Expr.placeless := by cases p <;> rfl
@[simp] theorem stmt?_placeless : p.placeless.stmt? = p.stmt?.map Stmt.placeless := by cases p <;> rfl
@[simp] theorem element?_placeless : p.placeless.element? = p.element?.map Element.placeless := by cases p <;> rfl
@[simp] theorem argument?_placeless : p.placeless.argument? = p.argument?.map Argument.placeless := by cases p <;> rfl
@[simp] theorem parameter?_placeless : p.placeless.parameter? = p.parameter?.map Parameter.placeless := by
  cases p <;> rfl
@[simp] theorem variableIn?_placeless : p.placeless.variableIn? = p.variableIn?.map Variable.placeless := by
  cases p <;> rfl
@[simp] theorem clause?_placeless : p.placeless.clause? = p.clause?.map CatchClause.placeless := by cases p <;> rfl
@[simp] theorem typeName?_placeless : p.placeless.typeName? = p.typeName? := by cases p <;> rfl
@[simp] theorem isToken_placeless (t : Terminal) : p.placeless.isToken t = p.isToken t := by cases p <;> rfl
@[simp] theorem flatten_placeless : p.placeless.flatten = p.flatten.map Piece.placeless := by
  cases p <;> simp [Piece.placeless, Piece.flatten]

end

/-- What is taken out of pieces without places is what is taken out of them. -/
theorem filterMap_placeless {α : Type} {get : Piece → Option α} {placeless : α → α}
    (hget : ∀ p : Piece, get p.placeless = (get p).map placeless) (ps : List Piece) :
    (ps.map Piece.placeless).filterMap get = (ps.filterMap get).map placeless := by
  rw [List.filterMap_map, List.map_filterMap]
  exact congrArg₂ _ (funext hget) rfl

@[simp] theorem flattenPieces_placeless (ps : List Piece) :
    flattenPieces (ps.map Piece.placeless) = (flattenPieces ps).map Piece.placeless := by
  simp [flattenPieces, List.flatMap_map, List.map_flatMap]

theorem dropWhile_placeless {before : Piece → Bool} (hbefore : ∀ p : Piece, before p.placeless = before p) (ps : List Piece) :
    (ps.map Piece.placeless).dropWhile before = (ps.dropWhile before).map Piece.placeless := by
  rw [List.dropWhile_map]
  exact congrArg _ (congrArg (List.dropWhile · ps) (funext hbefore))

theorem typeNames_placeless (ps : List Piece) :
    (ps.map Piece.placeless).filterMap Piece.typeName? = ps.filterMap Piece.typeName? := by
  rw [List.filterMap_map]
  exact congrArg (List.filterMap · ps) (funext typeName?_placeless)

theorem typeText_placeless (ps : List Piece) : typeText (ps.map Piece.placeless) = typeText ps := by
  rw [typeText, List.map_map, typeText]
  refine congrArg String.join (List.map_congr_left (fun p _ => ?_))
  cases p with
  | many arguments =>
    simp only [Function.comp_apply, Piece.placeless, placelessPieces_eq, typeNames_placeless]
  | _ => rfl

theorem typeArgumentsOf_placeless (ps : List Piece) : typeArgumentsOf (ps.map Piece.placeless) = typeArgumentsOf ps := by
  cases ps with
  | nil => rfl
  | cons p ps =>
    cases p with
    | many found =>
      simp only [List.map_cons, Piece.placeless, placelessPieces_eq, typeArgumentsOf, typeNames_placeless]
    | _ => rfl

theorem identifiers_placeless (ps : List Piece) : identifiers (ps.map Piece.placeless) = identifiers ps := by
  rw [identifiers, List.filterMap_map, identifiers]
  refine congrArg (List.filterMap · ps) (funext (fun p => ?_))
  cases p <;> rfl

variable [Host]

/-- A construct builds the same without places, however embedded expressions are read. -/
def Construct.Keeps (read read' : String → Except SyntaxError Expr) (c : Construct) : Prop :=
  ∀ ⦃l ps⦄, c.Takes ps →
    assemble read' c none (ps.map Piece.placeless) = placelessResult Piece.placeless (assemble read c l ps)

namespace Construct

variable {read read' : String → Except SyntaxError Expr}

/-- The constructs that build words, types and loop variables. -/
theorem keeps_words : ∀ c ∈ [directive, declarationWord, type, declaredVariable, existingVariable], Keeps read read' c := by
  simp only [List.forall_mem_cons, List.not_mem_nil, false_implies, implies_true, and_true]
  refine ⟨?_, ?_, ?_, ?_, ?_⟩ <;> rintro l ps ⟨-, h⟩
  · rfl
  · change Except.ok (Piece.words _) = Except.ok (Piece.words _)
    rw [filterMap_placeless token?_placeless, List.map_map]
    rfl
  · change Except.ok (Piece.typeName _) = Except.ok (Piece.typeName _)
    rw [typeText_placeless]
  · rcases h rfl with ⟨_, _, rfl, _, _, rfl, ⟨t, rfl, -⟩, rfl⟩ | ⟨_, _, rfl, _, _, rfl, _, _, rfl, ⟨t, rfl, -⟩, rfl⟩
    all_goals rfl
  · obtain ⟨_, _, rfl, ⟨t, rfl, -⟩, rfl⟩ := h rfl
    rfl

/-- The constructs that build parameters. -/
theorem keeps_parameters : ∀ c ∈ [normal, defaulted, optionalParameters, namedParameters], Keeps read read' c := by
  simp only [List.forall_mem_cons, List.not_mem_nil, false_implies, implies_true, and_true]
  refine ⟨?_, ?_, ?_, ?_⟩ <;> rintro l ps -
  · unfold assemble
    dsimp only
    rw [List.getLast?_map, typeNames_placeless]
    cases ps.getLast? with
    | none => rfl
    | some p => cases p <;> rfl
  · unfold assemble
    dsimp only
    rw [filterMap_placeless parameter?_placeless]
    cases ps.filterMap Piece.parameter? <;> rfl
  · change Except.ok (Piece.many _) = Except.ok (Piece.many (placelessPieces _))
    rw [flattenPieces_placeless, filterMap_placeless parameter?_placeless, placelessPieces_eq, List.map_map, List.map_map]
    rfl
  · change Except.ok (Piece.many _) = Except.ok (Piece.many (placelessPieces _))
    rw [flattenPieces_placeless, filterMap_placeless parameter?_placeless, placelessPieces_eq, List.map_map, List.map_map]
    rfl

/-- The constructs without parts. -/
theorem keeps_leaf : ∀ c ∈ [breakStmt, continueStmt, rethrowStmt, emptyStmt, nullLiteral, trueLiteral, falseLiteral],
    Keeps read read' c := by
  simp only [List.forall_mem_cons, List.not_mem_nil, false_implies, implies_true, and_true]
  refine ⟨?_, ?_, ?_, ?_, ?_, ?_, ?_⟩ <;> rintro l ps - <;> rfl

theorem integerLiteral_placeless (text : String) (l : Location) :
    integerLiteral text none = placelessResult Piece.placeless (integerLiteral text l) := by
  unfold integerLiteral
  split <;> rfl

/-- The constructs that are a token. -/
theorem keeps_token : ∀ c ∈ [identifier, intLiteral, doubleLiteral], Keeps read read' c := by
  simp only [List.forall_mem_cons, List.not_mem_nil, false_implies, implies_true, and_true]
  refine ⟨?name, ?number, ?double⟩
  case number =>
    rintro l ps ⟨-, h⟩
    obtain ⟨_, _, rfl, ⟨t, rfl, -⟩, rfl⟩ := h rfl
    exact integerLiteral_placeless t.text l
  all_goals
    rintro l ps ⟨-, h⟩
    obtain ⟨_, _, rfl, ⟨t, rfl, -⟩, rfl⟩ := h rfl
    rfl

/-- The constructs that are lists of others. -/
theorem keeps_lists : ∀ c ∈ [unit, block, variableDeclarations, listLiteral, setOrMapLiteral, formals, arguments],
    Keeps read read' c := by
  simp only [List.forall_mem_cons, List.not_mem_nil, false_implies, implies_true, and_true]
  have hparameter : (fun p => p.parameter?.isSome) ∘ Piece.placeless = fun p => p.parameter?.isSome :=
    funext (fun p => by simp)
  have hargument : (fun p => p.argument?.isSome) ∘ Piece.placeless = fun p => p.argument?.isSome :=
    funext (fun p => by simp)
  refine ⟨?_, ?_, ?_, ?_, ?_, ?_, ?_⟩ <;> rintro l ps -
  · change Except.ok (Piece.stmt (.unit none _)) = Except.ok (Piece.stmt (.unit none (placelessStmts _)))
    rw [flattenPieces_placeless, filterMap_placeless stmt?_placeless, placelessStmts_eq]
  · change Except.ok (Piece.stmt (.block none _)) = Except.ok (Piece.stmt (.block none (placelessStmts _)))
    rw [flattenPieces_placeless, filterMap_placeless stmt?_placeless, placelessStmts_eq]
  · change Except.ok (Piece.stmt (.variables none _ _ _)) =
      Except.ok (Piece.stmt (.variables none (placelessVariables _) _ _))
    rw [flattenPieces_placeless, filterMap_placeless variableIn?_placeless, placelessVariables_eq, typeNames_placeless]
    cases ps with
    | nil => rfl
    | cons p ps => cases p <;> rfl
  · change Except.ok (Piece.expr (.listLiteral none _ _)) = Except.ok (Piece.expr (.listLiteral none (placelessElements _) _))
    rw [flattenPieces_placeless, filterMap_placeless element?_placeless, placelessElements_eq, typeArgumentsOf_placeless]
  · change Except.ok (Piece.expr (.setOrMapLiteral none _ _)) =
      Except.ok (Piece.expr (.setOrMapLiteral none (placelessElements _) _))
    rw [flattenPieces_placeless, filterMap_placeless element?_placeless, placelessElements_eq, typeArgumentsOf_placeless]
  · change Except.ok (Piece.many _) = Except.ok (Piece.many (placelessPieces _))
    rw [flattenPieces_placeless, List.filter_map, placelessPieces_eq, hparameter]
  · change Except.ok (Piece.many _) = Except.ok (Piece.many (placelessPieces _))
    rw [flattenPieces_placeless, List.filter_map, placelessPieces_eq, hargument]

theorem keeps_typeArguments : Keeps read read' .typeArguments := by
  rintro l ps ⟨-, h⟩
  obtain ⟨_, _, rfl, _, _, rfl, ⟨qs, rfl, -⟩, _, _, rfl, rfl⟩ := h rfl
  rfl

/-- The constructs that are one other. -/
theorem keeps_one : ∀ c ∈ [blockBody, startDeclarations, positional, plainElement], Keeps read read' c := by
  simp only [List.forall_mem_cons, List.not_mem_nil, false_implies, implies_true, and_true]
  refine ⟨?_, ?_, ?_, ?_⟩
  all_goals
    rintro l ps ⟨-, h⟩
    obtain ⟨_, _, rfl, ⟨x, rfl, -⟩, rfl⟩ := h rfl
    rfl

/-- The constructs that are one expression after a token. -/
theorem keeps_marked : ∀ c ∈ [spread, nullAwareSpread, nullAwareElement, throwing], Keeps read read' c := by
  simp only [List.forall_mem_cons, List.not_mem_nil, false_implies, implies_true, and_true]
  refine ⟨?_, ?_, ?_, ?_⟩
  all_goals
    rintro l ps ⟨-, h⟩
    obtain ⟨_, _, rfl, _, _, rfl, ⟨x, rfl, -⟩, rfl⟩ := h rfl
    rfl

/-- The constructs that are one expression among tokens. -/
theorem keeps_around : ∀ c ∈ [expressionBody, parenthesized, named, property, expressionStmt, variablesStmt], Keeps read read' c := by
  simp only [List.forall_mem_cons, List.not_mem_nil, false_implies, implies_true, and_true]
  refine ⟨?_, ?_, ?_, ?_, ?_, ?_⟩ <;> rintro l ps ⟨-, h⟩
  · obtain ⟨_, _, rfl, _, _, rfl, ⟨x, rfl, -⟩, _, _, rfl, rfl⟩ := h rfl
    rfl
  · obtain ⟨_, _, rfl, _, _, rfl, ⟨x, rfl, -⟩, _, _, rfl, rfl⟩ := h rfl
    rfl
  · obtain ⟨_, _, rfl, ⟨t, rfl, -⟩, _, _, rfl, _, _, rfl, ⟨x, rfl, -⟩, rfl⟩ := h rfl
    rfl
  · obtain ⟨_, _, rfl, ⟨x, rfl, -⟩, _, _, rfl, _, _, rfl, ⟨t, rfl, -⟩, rfl⟩ := h rfl
    rfl
  · obtain ⟨_, _, rfl, ⟨x, rfl, -⟩, _, _, rfl, rfl⟩ := h rfl
    rfl
  · obtain ⟨_, _, rfl, ⟨x, rfl, -⟩, _, _, rfl, rfl⟩ := h rfl
    rfl

theorem keeps_operators : ∀ c ∈ [conditional, binary, index], Keeps read read' c := by
  simp only [List.forall_mem_cons, List.not_mem_nil, false_implies, implies_true, and_true]
  refine ⟨?_, ?_, ?_⟩ <;> rintro l ps ⟨-, h⟩
  · obtain ⟨_, _, rfl, ⟨x, rfl, -⟩, _, _, rfl, _, _, rfl, ⟨y, rfl, -⟩, _, _, rfl, _, _, rfl, ⟨z, rfl, -⟩, rfl⟩ := h rfl
    rfl
  · obtain ⟨_, _, rfl, ⟨x, rfl, -⟩, _, _, rfl, ⟨t, rfl, -⟩, _, _, rfl, ⟨y, rfl, -⟩, rfl⟩ := h rfl
    rfl
  · obtain ⟨_, _, rfl, ⟨x, rfl, -⟩, _, _, rfl, _, _, rfl, ⟨y, rfl, -⟩, _, _, rfl, rfl⟩ := h rfl
    rfl

theorem isPlace_placeless (x : Expr) : x.placeless.isPlace = x.isPlace := by cases x <;> rfl

theorem requirePlace_placeless (target result : Expr) (l : Location) (flaw : Flaw) :
    requirePlace target.placeless none flaw result.placeless =
      placelessResult Piece.placeless (requirePlace target l flaw result) := by
  rw [requirePlace, requirePlace, isPlace_placeless]
  split <;> rfl

/-- The constructs that need a place to write to. -/
theorem keeps_written : ∀ c ∈ [assignment, unary, postfixed], Keeps read read' c := by
  simp only [List.forall_mem_cons, List.not_mem_nil, false_implies, implies_true, and_true]
  refine ⟨?_, ?_, ?_⟩ <;> rintro l ps ⟨-, h⟩
  · obtain ⟨_, _, rfl, ⟨x, rfl, -⟩, _, _, rfl, ⟨t, rfl, -⟩, _, _, rfl, ⟨y, rfl, -⟩, rfl⟩ := h rfl
    exact requirePlace_placeless x (.assignment l (.ofSpelling t.text) x y) l _
  · obtain ⟨_, _, rfl, ⟨t, rfl, -⟩, _, _, rfl, ⟨x, rfl, -⟩, rfl⟩ := h rfl
    change (if (UnaryOp.ofSpelling t.text).isStep then _ else _) = placelessResult _ (if _ then _ else _)
    split
    · exact requirePlace_placeless x (.unary l (.ofSpelling t.text) x) l _
    · rfl
  · obtain ⟨_, _, rfl, ⟨x, rfl, -⟩, _, _, rfl, ⟨t, rfl, -⟩, rfl⟩ := h rfl
    exact requirePlace_placeless x (.postfixed l (.ofSpelling t.text) x) l _

theorem keeps_call : Keeps read read' .call := by
  rintro l ps ⟨-, h⟩
  obtain ⟨_, _, rfl, ⟨x, rfl, -⟩, _, _, rfl, ⟨qs, rfl, -⟩, rfl⟩ := h rfl
  change Except.ok (Piece.expr (callOf none x.placeless _)) = Except.ok (Piece.expr (Expr.placeless (callOf l x _)))
  rw [placelessPieces_eq, filterMap_placeless argument?_placeless, ← placelessArguments_eq]
  cases x <;> rfl

theorem keeps_functionLiteral : ∀ c ∈ [arrowFunction, functionLiteral], Keeps read read' c := by
  simp only [List.forall_mem_cons, List.not_mem_nil, false_implies, implies_true, and_true]
  refine ⟨?_, ?_⟩ <;> rintro l ps ⟨-, h⟩
  · obtain ⟨_, _, rfl, ⟨qs, rfl, -⟩, _, _, rfl, _, _, rfl, ⟨x, rfl, -⟩, rfl⟩ := h rfl
    change Except.ok (Piece.expr (.functionLiteral none _ _)) = Except.ok (Piece.expr (.functionLiteral none _ _))
    rw [placelessPieces_eq, filterMap_placeless parameter?_placeless]
    rfl
  · obtain ⟨_, _, rfl, ⟨qs, rfl, -⟩, _, _, rfl, ⟨x, rfl, -⟩, rfl⟩ := h rfl
    change Except.ok (Piece.expr (.functionLiteral none _ _)) = Except.ok (Piece.expr (.functionLiteral none _ _))
    rw [placelessPieces_eq, filterMap_placeless parameter?_placeless]
    rfl

theorem keeps_function : Keeps read read' .function := by
  rintro l ps ⟨-, h⟩
  rcases h rfl with
    ⟨_, _, rfl, ⟨type, rfl⟩, _, _, rfl, ⟨t, rfl, -⟩, _, _, rfl, ⟨qs, rfl, -⟩, _, _, rfl, ⟨b, rfl, -⟩, rfl⟩ |
    ⟨_, _, rfl, ⟨t, rfl, -⟩, _, _, rfl, ⟨qs, rfl, -⟩, _, _, rfl, ⟨b, rfl, -⟩, rfl⟩
  all_goals
    change Except.ok (Piece.stmt (.function none _ _ _ _)) = Except.ok (Piece.stmt (.function none _ _ _ _))
    rw [placelessPieces_eq, filterMap_placeless parameter?_placeless]
    rfl

theorem keeps_variable : Keeps read read' .variable := by
  rintro l ps ⟨-, h⟩
  rcases h rfl with ⟨_, _, rfl, ⟨t, rfl, -⟩, rfl⟩ |
    ⟨_, _, rfl, ⟨t, rfl, -⟩, _, _, rfl, _, _, rfl, ⟨x, rfl, -⟩, rfl⟩
  all_goals rfl

theorem keeps_returnStmt : Keeps read read' .returnStmt := by
  rintro l ps ⟨-, h⟩
  rcases h rfl with ⟨_, _, rfl, _, _, rfl, rfl⟩ | ⟨_, _, rfl, _, _, rfl, ⟨x, rfl, -⟩, _, _, rfl, rfl⟩
  all_goals rfl

theorem keeps_conditionalStmt : Keeps read read' .conditionalStmt := by
  rintro l ps ⟨-, h⟩
  rcases h rfl with
    ⟨_, _, rfl, _, _, rfl, _, _, rfl, ⟨x, rfl, -⟩, _, _, rfl, _, _, rfl, ⟨t, rfl, -⟩, rfl⟩ |
    ⟨_, _, rfl, _, _, rfl, _, _, rfl, ⟨x, rfl, -⟩, _, _, rfl, _, _, rfl, ⟨t, rfl, -⟩, _, _, rfl, _, _, rfl,
      ⟨e, rfl, -⟩, rfl⟩
  all_goals rfl

theorem keeps_elementIf : Keeps read read' .elementIf := by
  rintro l ps ⟨-, h⟩
  rcases h rfl with
    ⟨_, _, rfl, _, _, rfl, _, _, rfl, ⟨x, rfl, -⟩, _, _, rfl, _, _, rfl, ⟨t, rfl, -⟩, rfl⟩ |
    ⟨_, _, rfl, _, _, rfl, _, _, rfl, ⟨x, rfl, -⟩, _, _, rfl, _, _, rfl, ⟨t, rfl, -⟩, _, _, rfl, _, _, rfl,
      ⟨e, rfl, -⟩, rfl⟩
  all_goals rfl

theorem head_isToken_placeless (t : Terminal) (ps : List Piece) :
    ((ps.map Piece.placeless).head?.map (Piece.isToken t)).getD false = (ps.head?.map (Piece.isToken t)).getD false := by
  cases ps with
  | nil => rfl
  | cons p ps => simp

theorem after_placeless (t : Terminal) (ps : List Piece) :
    ((ps.map Piece.placeless).dropWhile (fun p => !p.isToken t)).drop 1 =
      ((ps.dropWhile (fun p => !p.isToken t)).drop 1).map Piece.placeless := by
  rw [dropWhile_placeless (fun p => by rw [isToken_placeless]), List.map_drop]

theorem entryElement_placeless (l : Location) (ps : List Piece) :
    entryElement none (ps.map Piece.placeless) = (entryElement l ps).map Element.placeless := by
  unfold entryElement
  dsimp only
  rw [head_isToken_placeless, after_placeless, head_isToken_placeless, filterMap_placeless expr?_placeless]
  match ps.filterMap Piece.expr? with
  | [] | [_] | [_, _] | _ :: _ :: _ :: _ => rfl

theorem keeps_mapEntry : Keeps read read' .mapEntry := by
  rintro l ps -
  change Except.ok (Option.elim _ _ _) = Except.ok (Piece.placeless (Option.elim _ _ _))
  rw [entryElement_placeless l]
  cases entryElement l ps <;> rfl

theorem loop_placeless (h : LoopHeader) (l : Location) (body : Stmt) :
    h.placeless.loop none body.placeless = (h.loop l body).placeless := by
  cases h with
  | each name declares x => rfl
  | classic start condition updaters =>
    rw [LoopHeader.placeless, LoopHeader.loop, ← placelessExprs_eq]
    cases condition <;> rfl

/-- The loops, and an element that has the form of one. -/
theorem keeps_loop : ∀ c ∈ [whileStmt, doStmt, forStmt, elementFor], Keeps read read' c := by
  simp only [List.forall_mem_cons, List.not_mem_nil, false_implies, implies_true, and_true]
  refine ⟨?_, ?_, ?_, ?_⟩ <;> rintro l ps ⟨-, h⟩
  · obtain ⟨_, _, rfl, _, _, rfl, _, _, rfl, ⟨x, rfl, -⟩, _, _, rfl, _, _, rfl, ⟨b, rfl, -⟩, rfl⟩ := h rfl
    rfl
  · obtain ⟨_, _, rfl, _, _, rfl, ⟨b, rfl, -⟩, _, _, rfl, _, _, rfl, _, _, rfl, ⟨x, rfl, -⟩, _, _, rfl, _, _, rfl,
      rfl⟩ := h rfl
    rfl
  · obtain ⟨_, _, rfl, _, _, rfl, _, _, rfl, ⟨header, rfl, -⟩, _, _, rfl, _, _, rfl, ⟨b, rfl, -⟩, rfl⟩ := h rfl
    change Except.ok (Piece.stmt _) = Except.ok (Piece.stmt (Stmt.placeless _))
    rw [← loop_placeless]
  · obtain ⟨_, _, rfl, _, _, rfl, _, _, rfl, ⟨header, rfl, -⟩, _, _, rfl, _, _, rfl, ⟨x, rfl, -⟩, rfl⟩ := h rfl
    change Except.ok (Piece.element (.loop none _ _)) = Except.ok (Piece.element (.loop none (Stmt.placeless _) _))
    rw [← loop_placeless]
    rfl

theorem keeps_forEach : Keeps read read' .forEach := by
  rintro l ps ⟨-, h⟩
  obtain ⟨_, _, rfl, ⟨name, declares, rfl⟩, _, _, rfl, _, _, rfl, ⟨x, rfl, -⟩, rfl⟩ := h rfl
  rfl

theorem keeps_startExpressions : Keeps read read' .startExpressions := by
  rintro l ps ⟨-, h⟩
  obtain ⟨_, _, rfl, ⟨qs, rfl, -⟩, rfl⟩ := h rfl
  change Except.ok (Piece.start (.expressions _)) = Except.ok (Piece.start (.expressions (placelessExprs _)))
  rw [placelessPieces_eq, filterMap_placeless expr?_placeless, placelessExprs_eq]

theorem classicHeader_placeless (ps : List Piece) :
    classicHeader (ps.map Piece.placeless) = (classicHeader ps).placeless := by
  unfold classicHeader
  dsimp only
  rw [after_placeless, after_placeless, flattenPieces_placeless, filterMap_placeless expr?_placeless, List.head?_map,
    Option.bind_map]
  simp only [LoopHeader.placeless, Option.map_bind]
  congr 1
  · cases ps with
    | nil => rfl
    | cons p ps => cases p <;> rfl
  · exact congrArg _ (funext expr?_placeless)

theorem keeps_forClassic : Keeps read read' .forClassic := by
  rintro l ps -
  change Except.ok (Piece.header _) = Except.ok (Piece.header (LoopHeader.placeless _))
  rw [classicHeader_placeless]

theorem keeps_tryStmt : Keeps read read' .tryStmt := by
  rintro l ps ⟨-, h⟩
  obtain ⟨first, x, rest, rfl⟩ : ∃ first x rest, ps = first :: .stmt x :: rest := by
    rcases h rfl with ⟨_, _, rfl, _, _, rfl, ⟨x, rfl, -⟩, _⟩ | ⟨_, _, rfl, _, _, rfl, ⟨x, rfl, -⟩, _⟩ |
      ⟨_, _, rfl, _, _, rfl, ⟨x, rfl, -⟩, _⟩
    all_goals exact ⟨_, x, _, rfl⟩
  change (if _ then _ else Except.ok (Piece.stmt _)) = placelessResult _ (if _ then _ else Except.ok (Piece.stmt _))
  rw [flattenPieces_placeless, filterMap_placeless clause?_placeless, filterMap_placeless stmt?_placeless, List.head?_map,
    List.isEmpty_map, Option.isNone_map]
  split
  · rfl
  · rw [← placelessClauses_eq]
    cases (rest.filterMap Piece.stmt?).head? <;> rfl

theorem keeps_catchClause : Keeps read read' .catchClause := by
  rintro l ps -
  unfold assemble
  dsimp only
  rw [List.getLast?_map, typeNames_placeless, identifiers_placeless]
  cases ps.getLast? with
  | none => rfl
  | some p => cases p <;> rfl

/-- Every construct but that of string literals, which reads embedded texts, builds the same without places. -/
theorem keeps (c : Construct) (hc : c ∉ [same, single, appended, stringLiteral]) : Keeps read read' c := by
  cases c with
  | same | single | appended | stringLiteral => simp at hc
  | directive | declarationWord | type | declaredVariable | existingVariable => exact keeps_words _ (by decide)
  | normal | defaulted | optionalParameters | namedParameters => exact keeps_parameters _ (by decide)
  | breakStmt | continueStmt | rethrowStmt | emptyStmt | nullLiteral | trueLiteral | falseLiteral =>
    exact keeps_leaf _ (by decide)
  | identifier | intLiteral | doubleLiteral => exact keeps_token _ (by decide)
  | unit | block | variableDeclarations | listLiteral | setOrMapLiteral | formals | arguments =>
    exact keeps_lists _ (by decide)
  | typeArguments => exact keeps_typeArguments
  | blockBody | startDeclarations | positional | plainElement => exact keeps_one _ (by decide)
  | spread | nullAwareSpread | nullAwareElement | throwing => exact keeps_marked _ (by decide)
  | expressionBody | parenthesized | named | property | expressionStmt | variablesStmt =>
    exact keeps_around _ (by decide)
  | conditional | binary | index => exact keeps_operators _ (by decide)
  | assignment | unary | postfixed => exact keeps_written _ (by decide)
  | call => exact keeps_call
  | arrowFunction | functionLiteral => exact keeps_functionLiteral _ (by decide)
  | function => exact keeps_function
  | returnStmt => exact keeps_returnStmt
  | conditionalStmt => exact keeps_conditionalStmt
  | elementIf => exact keeps_elementIf
  | mapEntry => exact keeps_mapEntry
  | whileStmt | doStmt | forStmt | elementFor => exact keeps_loop _ (by decide)
  | forEach => exact keeps_forEach
  | startExpressions => exact keeps_startExpressions
  | forClassic => exact keeps_forClassic
  | tryStmt => exact keeps_tryStmt
  | catchClause => exact keeps_catchClause
  | _ => exact keeps_variable

end Construct

end Dartlet.Syntax
