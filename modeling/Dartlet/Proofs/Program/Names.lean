import Dartlet.Proofs.Program.BuiltTraits
import Dartlet.Proofs.Program.Mentions
import Mathlib.Tactic.CasesM

/-!
# Where names come from

Every name in a program is written in its text. What a construct builds mentions only the names of the pieces that
it takes, so by induction on the derivation all names are texts of tokens. Texts with string literals are left out
here, since expressions can be embedded in those.
-/

namespace Dartlet.Syntax

set_option linter.unusedSectionVars false

variable {words : List String}

namespace Node

/-- Whether the names in a construct are all among some words. -/
def NamesAmong (words : List String) (n : Node) : Prop := ∀ name, n.Mentions name → name ∈ words

theorem NamesAmong.mk {n : Node} (hn : ∀ name ∈ n.names, name ∈ words) (h : ∀ m ∈ n.children, m.NamesAmong words) :
    n.NamesAmong words := by
  rintro name ⟨k, hk, hname⟩
  rcases contains_iff.mp hk with rfl | ⟨m, hm, hmk⟩
  · exact hn name hname
  · exact h m hm name ⟨k, hmk, hname⟩

theorem NamesAmong.part {n m : Node} (h : n.NamesAmong words) (hm : m ∈ n.children) : m.NamesAmong words :=
  fun name ⟨k, hk, hname⟩ => h name ⟨k, .of_mem hm hk, hname⟩

theorem NamesAmong.own {n : Node} (h : n.NamesAmong words) : ∀ name ∈ n.names, name ∈ words :=
  fun name hname => h name ⟨n, .self, hname⟩

end Node

namespace Piece

mutual

/-- Whether the names in a piece are all among some words, and no token in it is a string. -/
def NamesAmong (words : List String) : Piece → Prop
  | .token t => t.text ∈ words ∧ t.terminal ≠ .string
  | .expr x => (Node.expr x).NamesAmong words
  | .stmt x => (Node.stmt x).NamesAmong words
  | .element x => (Node.element x).NamesAmong words
  | .argument a => (Node.argument a).NamesAmong words
  | .body b => (Node.body b).NamesAmong words
  | .parameter q => (Node.parameter q).NamesAmong words
  | .variable v => (Node.var v).NamesAmong words
  | .clause c => (Node.clause c).NamesAmong words
  | .start s => (Node.start s).NamesAmong words
  | .header h => ∀ l body, (Node.stmt body).NamesAmong words → (Node.stmt (h.loop l body)).NamesAmong words
  | .loopVariable name _ => name ∈ words
  | .many ps => AllNamesAmong words ps
  | .typeName _ | .words _ | .nothing => True

/-- The same for all of some pieces. -/
def AllNamesAmong (words : List String) : List Piece → Prop
  | [] => True
  | p :: ps => NamesAmong words p ∧ AllNamesAmong words ps

end

variable {p : Piece} {ps qs : List Piece}

theorem allNamesAmong_iff : AllNamesAmong words ps ↔ ∀ p ∈ ps, p.NamesAmong words := by
  induction ps with
  | nil => simp [AllNamesAmong]
  | cons p ps ih => simp [AllNamesAmong, ih]

theorem NamesAmong.node (h : p.NamesAmong words) {n : Node} (hn : p.node? = some n) : n.NamesAmong words := by
  cases p <;> first | (cases hn; exact h) | cases hn

theorem AllNamesAmong.nodes (h : AllNamesAmong words ps) : AllNodes (Node.NamesAmong words) ps :=
  fun p hp _ hn => (allNamesAmong_iff.mp h p hp).node hn

theorem AllNamesAmong.mono (h : AllNamesAmong words ps) (hsub : qs ⊆ ps) : AllNamesAmong words qs :=
  allNamesAmong_iff.mpr fun p hp => allNamesAmong_iff.mp h p (hsub hp)

theorem AllNamesAmong.flatten (h : AllNamesAmong words ps) : AllNamesAmong words (flattenPieces ps) := by
  refine allNamesAmong_iff.mpr fun q hq => ?_
  obtain ⟨p, hp, hq⟩ := List.mem_flatMap.mp hq
  have hnames := allNamesAmong_iff.mp h p hp
  cases p with
  | many ps => exact allNamesAmong_iff.mp hnames q hq
  | _ =>
    obtain rfl := List.mem_singleton.mp hq
    exact hnames

end Piece

open Piece

variable [Host]

namespace Construct

variable {read : String → Except SyntaxError Expr} {l : Location} {ps : List Piece} {p : Piece}

/-- A construct builds pieces whose names are among those of the pieces that it takes. -/
def PassesNames (read : String → Except SyntaxError Expr) (c : Construct) : Prop :=
  ∀ ⦃words l ps p⦄, c.Takes ps → AllNamesAmong words ps → assemble read c l ps = .ok p → p.NamesAmong words

theorem passesNames_leaf : ∀ c ∈ [directive, declarationWord, type, breakStmt, continueStmt, rethrowStmt, emptyStmt,
    nullLiteral, trueLiteral, falseLiteral], PassesNames read c := by
  simp only [List.forall_mem_cons, List.not_mem_nil, false_implies, implies_true, and_true]
  refine ⟨?_, ?_, ?_, ?_, ?_, ?_, ?_, ?_, ?_, ?_⟩ <;> rintro words l ps p - - ⟨⟩
  all_goals first | trivial | exact .mk (by simp [Node.names]) (by simp [Node.children, Stmt.children, Expr.children])

theorem passesNames_lists : ∀ c ∈ [unit, block, variableDeclarations, listLiteral, setOrMapLiteral, formals, arguments],
    PassesNames read c := by
  simp only [List.forall_mem_cons, List.not_mem_nil, false_implies, implies_true, and_true]
  refine ⟨?_, ?_, ?_, ?_, ?_, ?_, ?_⟩ <;> rintro words l ps p - hps ⟨⟩
  · exact .mk (by simp [Node.names]) hps.flatten.nodes.stmts
  · exact .mk (by simp [Node.names]) hps.flatten.nodes.stmts
  · exact .mk (by simp [Node.names]) hps.flatten.nodes.vars
  · exact .mk (by simp [Node.names]) hps.flatten.nodes.elements
  · exact .mk (by simp [Node.names]) hps.flatten.nodes.elements
  · exact hps.flatten.mono List.filter_sublist.subset
  · exact hps.flatten.mono List.filter_sublist.subset

/-- The constructs that are made of a fixed number of others. -/
theorem passesNames_fixed : ∀ c ∈ [blockBody, expressionBody, Construct.variable, conditionalStmt, whileStmt, expressionStmt,
    returnStmt, doStmt, startDeclarations, throwing, conditional, binary, property, index, positional, named, identifier,
    parenthesized, doubleLiteral, plainElement, spread, nullAwareSpread, nullAwareElement, elementIf,
    mapEntry], PassesNames read c := by
  simp only [List.forall_mem_cons, List.not_mem_nil, false_implies, implies_true, and_true]
  and_intros <;> intro words l ps p htakes hps h
  all_goals
    have hshape := htakes.2 rfl
    unfold shapes at hshape
    simp only [FitsOneOf, FitsShape, Piece.Fits] at hshape
    clear htakes
    casesm* _ ∨ _, _ ∧ _, ∃ _, _ <;> subst_vars
  all_goals
    cases h
    simp only [AllNamesAmong, Piece.NamesAmong] at hps
    refine .mk ?_ ?_ <;> simp [Node.names, Variable.name, Node.children, Expr.children, Stmt.children, Element.children, hps]

theorem passesNames_intLiteral : PassesNames read intLiteral := by
  intro words l ps p htakes hps h
  obtain ⟨_, _, rfl, ⟨t, rfl, -⟩, rfl⟩ := htakes.2 rfl
  obtain ⟨-, rfl⟩ := integerLiteral_ok h
  refine .mk ?_ ?_ <;> simp [Node.names, Node.children, Expr.children]

/-- The constructs that are one of their pieces. -/
theorem passesNames_one : ∀ c ∈ [typeArguments, variablesStmt, existingVariable], PassesNames read c := by
  simp only [List.forall_mem_cons, List.not_mem_nil, false_implies, implies_true, and_true]
  refine ⟨?_, ?_, ?_⟩ <;> rintro words l ps p ⟨-, hshape⟩ hps h
  · obtain ⟨_, _, rfl, _, _, rfl, ⟨qs, rfl, -⟩, _, _, rfl, rfl⟩ := hshape rfl
    cases h
    exact hps.2.1
  · obtain ⟨_, _, rfl, ⟨x, rfl, -⟩, _, _, rfl, rfl⟩ := hshape rfl
    cases h
    exact hps.1
  · obtain ⟨_, _, rfl, ⟨t, rfl, -⟩, rfl⟩ := hshape rfl
    cases h
    exact hps.1.1

/-- The constructs that end with a name. -/
theorem passesNames_last : ∀ c ∈ [normal, declaredVariable], PassesNames read c := by
  simp only [List.forall_mem_cons, List.not_mem_nil, false_implies, implies_true, and_true]
  refine ⟨?_, ?_⟩ <;> rintro words l ps p - hps h
  all_goals
    unfold assemble at h
    dsimp only at h
    split at h
    · rename_i t hlast
      have hname := (allNamesAmong_iff.mp hps (.token t) (List.mem_of_getLast? hlast)).1
      cases h
      first
      | exact hname
      | exact .mk (List.forall_mem_singleton.mpr hname) (by simp [Node.children])
    · cases h
      trivial

theorem passesNames_parameters : ∀ c ∈ [defaulted, optionalParameters, namedParameters], PassesNames read c := by
  simp only [List.forall_mem_cons, List.not_mem_nil, false_implies, implies_true, and_true]
  refine ⟨?_, ?_, ?_⟩ <;> rintro words l ps p - hps h
  · unfold assemble at h
    dsimp only at h
    split at h
    · rename_i q rest hfound
      cases h
      exact hps.nodes.parameters _ (by simp [hfound])
    · cases h
      trivial
  all_goals
    cases h
    refine allNamesAmong_iff.mpr fun p hp => ?_
    obtain ⟨q, hq, rfl⟩ := List.mem_map.mp hp
    have hown := (hps.flatten.nodes.parameters _ (List.mem_map_of_mem hq)).own
    exact .mk hown (by simp [Node.children])

theorem passesNames_functions : ∀ c ∈ [function, arrowFunction, functionLiteral], PassesNames read c := by
  have hfunction {words : List String} {n : Node} {qs : List Piece} {b : FunctionBody}
      (hn : ∀ name ∈ n.names, name ∈ words) (hqs : AllNamesAmong words qs) (hb : (Node.body b).NamesAmong words)
      (hchildren : n.children = (qs.filterMap Piece.parameter?).map .parameter ++ [.body b]) : n.NamesAmong words := by
    refine .mk hn ?_
    rw [hchildren, List.forall_mem_append, List.forall_mem_singleton]
    exact ⟨hqs.nodes.parameters, hb⟩
  simp only [List.forall_mem_cons, List.not_mem_nil, false_implies, implies_true, and_true]
  refine ⟨?_, ?_, ?_⟩ <;> rintro words l ps p ⟨-, hshape⟩ hps h
  · rcases hshape rfl with
      ⟨_, _, rfl, ⟨type, rfl⟩, _, _, rfl, ⟨t, rfl, -⟩, _, _, rfl, ⟨qs, rfl, -⟩, _, _, rfl, ⟨b, rfl, -⟩, rfl⟩ |
      ⟨_, _, rfl, ⟨t, rfl, -⟩, _, _, rfl, ⟨qs, rfl, -⟩, _, _, rfl, ⟨b, rfl, -⟩, rfl⟩
    · obtain ⟨-, ht, hqs, hb, -⟩ := hps
      cases h
      exact hfunction (by simpa [Node.names] using ht.1) hqs hb rfl
    · obtain ⟨ht, hqs, hb, -⟩ := hps
      cases h
      exact hfunction (by simpa [Node.names] using ht.1) hqs hb rfl
  · obtain ⟨_, _, rfl, ⟨qs, rfl, -⟩, _, _, rfl, _, _, rfl, ⟨x, rfl, -⟩, rfl⟩ := hshape rfl
    obtain ⟨hqs, -, hx, -⟩ := hps
    cases h
    have hbody : (Node.body (.expression l x)).NamesAmong words := .mk (by simp [Node.names]) (List.forall_mem_singleton.mpr hx)
    exact hfunction (by simp [Node.names]) hqs hbody rfl
  · obtain ⟨_, _, rfl, ⟨qs, rfl, -⟩, _, _, rfl, ⟨x, rfl, -⟩, rfl⟩ := hshape rfl
    obtain ⟨hqs, hx, -⟩ := hps
    cases h
    have hbody : (Node.body (.block l x)).NamesAmong words := .mk (by simp [Node.names]) (List.forall_mem_singleton.mpr hx)
    exact hfunction (by simp [Node.names]) hqs hbody rfl

/-- The constructs that need a place to write to, and calls. -/
theorem passesNames_checked : ∀ c ∈ [assignment, unary, postfixed, call], PassesNames read c := by
  simp only [List.forall_mem_cons, List.not_mem_nil, false_implies, implies_true, and_true]
  refine ⟨?_, ?_, ?_, ?_⟩ <;> rintro words l ps p ⟨-, hshape⟩ hps h
  · obtain ⟨_, _, rfl, ⟨x, rfl, -⟩, _, _, rfl, ⟨t, rfl, -⟩, _, _, rfl, ⟨y, rfl, -⟩, rfl⟩ := hshape rfl
    obtain ⟨hx, -, hy, -⟩ := hps
    obtain ⟨-, rfl⟩ := requirePlace_ok h
    exact .mk (by simp [Node.names]) (List.forall_mem_cons.mpr ⟨hx, List.forall_mem_singleton.mpr hy⟩)
  · obtain ⟨_, _, rfl, ⟨t, rfl, -⟩, _, _, rfl, ⟨x, rfl, -⟩, rfl⟩ := hshape rfl
    obtain ⟨-, hx, -⟩ := hps
    obtain ⟨-, rfl⟩ := unary_ok h
    exact .mk (by simp [Node.names]) (List.forall_mem_singleton.mpr hx)
  · obtain ⟨_, _, rfl, ⟨x, rfl, -⟩, _, _, rfl, ⟨t, rfl, -⟩, rfl⟩ := hshape rfl
    obtain ⟨hx, -⟩ := hps
    obtain ⟨-, rfl⟩ := requirePlace_ok h
    exact .mk (by simp [Node.names]) (List.forall_mem_singleton.mpr hx)
  · obtain ⟨_, _, rfl, ⟨x, rfl, -⟩, _, _, rfl, ⟨qs, rfl, -⟩, rfl⟩ := hshape rfl
    obtain ⟨hx, hqs, -⟩ := hps
    cases h
    have harguments := AllNamesAmong.nodes hqs |>.arguments
    change (Node.expr (callOf l x _)).NamesAmong words
    unfold callOf
    split
    · have hreceiver := Node.NamesAmong.part hx (List.mem_singleton_self _)
      exact .mk (by simp [Node.names]) (List.forall_mem_cons.mpr ⟨hreceiver, harguments⟩)
    · exact .mk (by simp [Node.names]) (List.forall_mem_cons.mpr ⟨hx, harguments⟩)

/-- Loop headers, and what is made of them. -/
theorem passesNames_headers : ∀ c ∈ [forEach, forClassic, startExpressions, forStmt, elementFor], PassesNames read c := by
  simp only [List.forall_mem_cons, List.not_mem_nil, false_implies, implies_true, and_true]
  refine ⟨?_, ?_, ?_, ?_, ?_⟩ <;> rintro words l ps p ⟨-, hshape⟩ hps h
  · obtain ⟨_, _, rfl, ⟨name, declares, rfl⟩, _, _, rfl, _, _, rfl, ⟨x, rfl, -⟩, rfl⟩ := hshape rfl
    obtain ⟨hname, -, hx, -⟩ := hps
    cases h
    exact fun l' body hbody => .mk (List.forall_mem_singleton.mpr hname)
      (List.forall_mem_cons.mpr ⟨hx, List.forall_mem_singleton.mpr hbody⟩)
  · cases h
    have hafter (before : Piece → Bool) {qs : List Piece} (hqs : AllNamesAmong words qs) :
        AllNamesAmong words ((qs.dropWhile before).drop 1) :=
      hqs.mono (List.Subset.trans (List.drop_subset _ _) (List.dropWhile_suffix _).subset)
    have hcondition := hafter (fun q => !q.isToken .semicolon) hps
    refine fun l' body hbody => .mk (by simp [Node.names, LoopHeader.loop, classicHeader]) fun n hn => ?_
    simp only [classicHeader, LoopHeader.loop, Node.children, Stmt.children, List.cons_append, List.mem_cons,
      List.mem_append, List.not_mem_nil, or_false] at hn
    rcases hn with rfl | (hn | hn) | rfl
    · split
      · exact hps.1
      · exact .mk (by simp [Node.names]) (by simp [Node.children])
    · obtain ⟨x, hx, rfl⟩ := List.mem_map.mp hn
      obtain ⟨q, hq, hqx⟩ := Option.bind_eq_some_iff.mp (Option.mem_toList.mp hx)
      exact hcondition.nodes.exprs _ (List.mem_map_of_mem (List.mem_filterMap.mpr ⟨q, List.mem_of_head? hq, hqx⟩))
    · exact (hafter _ hcondition).flatten.nodes.exprs n hn
    · exact hbody
  · obtain ⟨_, _, rfl, ⟨qs, rfl, -⟩, rfl⟩ := hshape rfl
    obtain ⟨hqs, -⟩ := hps
    cases h
    exact .mk (by simp [Node.names]) (AllNamesAmong.nodes hqs).exprs
  · obtain ⟨_, _, rfl, _, _, rfl, _, _, rfl, ⟨header, rfl, -⟩, _, _, rfl, _, _, rfl, ⟨b, rfl, -⟩, rfl⟩ := hshape rfl
    obtain ⟨-, -, hheader, -, hb, -⟩ := hps
    cases h
    exact hheader l b hb
  · obtain ⟨_, _, rfl, _, _, rfl, _, _, rfl, ⟨header, rfl, -⟩, _, _, rfl, _, _, rfl, ⟨x, rfl, -⟩, rfl⟩ := hshape rfl
    obtain ⟨-, -, hheader, -, hx, -⟩ := hps
    cases h
    have hempty : (Node.stmt (.empty l)).NamesAmong words := .mk (by simp [Node.names]) (by simp [Node.children, Stmt.children])
    exact .mk (by simp [Node.names]) (List.forall_mem_cons.mpr ⟨hheader l _ hempty, List.forall_mem_singleton.mpr hx⟩)

theorem identifiers_subset (hps : AllNamesAmong words ps) : ∀ name ∈ identifiers ps, name ∈ words := by
  intro name hname
  obtain ⟨p, hp, hpname⟩ := List.mem_filterMap.mp hname
  split at hpname
  · rename_i t
    split at hpname
    · cases hpname
      exact (allNamesAmong_iff.mp hps _ hp).1
    · cases hpname
  · cases hpname

theorem passesNames_attempts : ∀ c ∈ [tryStmt, catchClause], PassesNames read c := by
  simp only [List.forall_mem_cons, List.not_mem_nil, false_implies, implies_true, and_true]
  refine ⟨?_, ?_⟩ <;> rintro words l ps p ⟨-, hshape⟩ hps h
  · obtain ⟨first, x, rest, rfl⟩ : ∃ first x rest, ps = first :: .stmt x :: rest := by
      rcases hshape rfl with ⟨_, _, rfl, _, _, rfl, ⟨x, rfl, -⟩, _⟩ | ⟨_, _, rfl, _, _, rfl, ⟨x, rfl, -⟩, _⟩ |
        ⟨_, _, rfl, _, _, rfl, ⟨x, rfl, -⟩, _⟩
      all_goals exact ⟨_, x, _, rfl⟩
    obtain ⟨-, hx, hrest⟩ := hps
    change (if _ then _ else _) = Except.ok p at h
    split at h
    · cases h
    · cases h
      refine .mk (by simp [Node.names]) fun n hn => ?_
      simp only [Node.children, Stmt.children, List.cons_append, List.mem_cons, List.mem_append] at hn
      rcases hn with rfl | hn | hn
      · exact hx
      · exact AllNamesAmong.flatten hrest |>.nodes.clauses n hn
      · exact AllNamesAmong.nodes hrest |>.stmts n (head_nodes_subset _ _ hn)
  · unfold assemble at h
    dsimp only at h
    split at h
    · rename_i body hlast
      cases h
      have hbody : (Node.stmt body).NamesAmong words := allNamesAmong_iff.mp hps (.stmt body) (List.mem_of_getLast? hlast)
      refine .mk (fun name hname => identifiers_subset hps name ?_) (List.forall_mem_singleton.mpr hbody)
      simp only [Node.names, List.mem_append, Option.mem_toList] at hname
      rcases hname with hname | hname <;> exact List.mem_of_getElem? hname
    · cases h
      trivial

/-- No string is among the pieces, so there is nothing to decode. -/
theorem passesNames_stringLiteral : PassesNames read .stringLiteral := by
  rintro words l ps p ⟨-, hshape⟩ hps h
  obtain ⟨_, _, rfl, ⟨qs, rfl, hstrings⟩, rfl⟩ := hshape rfl
  obtain ⟨hqs, -⟩ := hps
  obtain rfl : qs = [] := by
    refine List.eq_nil_iff_forall_not_mem.mpr fun q hq => ?_
    obtain ⟨t, rfl, hstring, -⟩ := hstrings q hq
    exact (allNamesAmong_iff.mp hqs _ hq).2 (by simpa using hstring)
  cases h
  exact .mk (by simp [Node.names]) (by simp [Node.children, Expr.children])

/-- The constructs that pass on or collect what they are given. -/
theorem passesNames_passed {words : List String} {c : Construct} (hc : c ∈ [same, single, appended])
    (hps : AllNamesAmong words ps) (h : assemble read c l ps = .ok p) : p.NamesAmong words := by
  have hmore {found : List Piece} {q : Piece} (hfound : AllNamesAmong words found) (hq : q.NamesAmong words) :
      AllNamesAmong words (found ++ [q]) := by
    rw [allNamesAmong_iff] at hfound ⊢
    simpa [or_imp, forall_and] using ⟨hfound, hq⟩
  simp only [List.mem_cons, List.not_mem_nil, or_false] at hc
  rcases hc with rfl | rfl | rfl
  · rcases ps with _ | ⟨a, _ | ⟨b, _ | _⟩⟩ <;> cases h
    · trivial
    · exact hps.1
    · exact hps.2.1
    · trivial
  · rcases ps with _ | ⟨a, _ | _⟩ <;> cases h
    · trivial
    · exact hps
    · trivial
  · rcases ps with _ | ⟨a, ps⟩
    · cases h
      trivial
    · rcases ps with _ | ⟨b, _ | ⟨c, _ | _⟩⟩ <;> cases a <;> cases h
      all_goals first | trivial | exact hmore hps.1 hps.2.1 | exact hmore hps.1 hps.2.2.1

/-- Names come from the pieces that a construct takes. -/
theorem passesNames (c : Construct) (hc : c ∉ [same, single, appended]) : PassesNames read c := by
  cases c with
  | same | single | appended => simp at hc
  | directive | declarationWord | type | breakStmt | continueStmt | rethrowStmt | emptyStmt | nullLiteral | trueLiteral
  | falseLiteral => exact passesNames_leaf _ (by decide)
  | unit | block | variableDeclarations | listLiteral | setOrMapLiteral | formals | arguments =>
    exact passesNames_lists _ (by decide)
  | defaulted | optionalParameters | namedParameters => exact passesNames_parameters _ (by decide)
  | function | arrowFunction | functionLiteral => exact passesNames_functions _ (by decide)
  | assignment | unary | postfixed | call => exact passesNames_checked _ (by decide)
  | forEach | forClassic | startExpressions | forStmt | elementFor => exact passesNames_headers _ (by decide)
  | tryStmt | catchClause => exact passesNames_attempts _ (by decide)
  | typeArguments | variablesStmt | existingVariable => exact passesNames_one _ (by decide)
  | normal | declaredVariable => exact passesNames_last _ (by decide)
  | stringLiteral => exact passesNames_stringLiteral
  | intLiteral => exact passesNames_intLiteral
  | _ => exact passesNames_fixed _ (by decide)

end Construct

theorem Rule.passesNames {read : String → Except SyntaxError Expr} {r : Rule} (hr : r.respectsKinds = true) {l : Location}
    {ps : List Piece} {p : Piece} (hps : FitsAll (r.body.map Symbol.kind) ps) (hnames : AllNamesAmong words ps)
    (h : assemble read r.construct l ps = .ok p) : p.NamesAmong words := by
  by_cases hc : r.construct ∈ [.same, .single, .appended]
  · exact Construct.passesNames_passed hc hnames h
  · exact r.construct.passesNames hc (Rule.takes hr hc hps) hnames h

namespace Derivation

variable {read : String → Except SyntaxError Expr}

mutual

/-- The names in what is built from a derivation are texts of its tokens. -/
theorem build_names (hregular : ∀ text x, read text = .ok x → (Node.expr x).Regular) {s : Symbol} {d : Derivation}
    (hd : d.Of ruleTable s) (htokens : ∀ t ∈ d.tokens, t.Spelled ∧ t.text ∈ words ∧ t.terminal ≠ .string) {p : Piece}
    (h : d.build read = .ok p) : p.NamesAmong words := by
  cases hd with
  | leaf t =>
    cases h
    exact (htokens t (List.mem_singleton_self t)).2
  | node hr hparts =>
    rename_i r l parts
    simp only [build] at h
    split at h
    · cases h
    · rename_i ps hps
      have hspelled : ∀ t ∈ tokensAll parts, t.Spelled := fun t ht => (htokens t ht).1
      exact Rule.passesNames (Grammar.respectsKinds r (Grammar.mem_ruleTable.mp hr))
        (buildAll_fits hregular hparts hspelled hps) (buildAll_names hregular hparts htokens hps) h

theorem buildAll_names (hregular : ∀ text x, read text = .ok x → (Node.expr x).Regular) {symbols : List Symbol}
    {parts : List Derivation} (hparts : AllOf ruleTable symbols parts)
    (htokens : ∀ t ∈ tokensAll parts, t.Spelled ∧ t.text ∈ words ∧ t.terminal ≠ .string) {ps : List Piece}
    (h : buildAll read parts = .ok ps) : AllNamesAmong words ps := by
  cases hparts with
  | nil =>
    cases h
    trivial
  | cons hd hrest =>
    simp only [tokensAll, List.forall_mem_append] at htokens
    simp only [buildAll] at h
    split at h
    · cases h
    · rename_i p hp
      split at h
      · cases h
      · rename_i ps' hps
        cases h
        exact ⟨build_names hregular hd htokens.1 hp, buildAll_names hregular hrest htokens.2 hps⟩

end

end Derivation

/-- The words of a text. -/
def tokenTexts (text : String) : List String := (lex text).tokens.map Token.text

section

variable {text : String} (hplain : ∀ t ∈ (lex text).tokens, t.terminal ≠ .string)

include hplain

theorem readPiece_names {depth : Nat} {start : Category} {p : Piece} (h : readPiece (readExpr depth) start text = .ok p) :
    p.NamesAmong (tokenTexts text) := by
  unfold readPiece at h
  split at h
  · cases h
  · cases h
    trivial
  · rename_i d hderive
    obtain ⟨_, ⟨⟩, hof, htokens⟩ := (derive_ok hderive).resolve_left (by simp)
    refine Derivation.build_names (fun _ _ hx => (readExpr_accepted hx).regular) hof (fun t ht => ?_) h
    rw [htokens] at ht
    exact ⟨lex_spelled text t ht, List.mem_map_of_mem ht, hplain t ht⟩

/-- Every name in what a text without strings is read as is the text of one of its tokens. -/
theorem Node.IsReadFrom.namesAmong {n : Node} (h : n.IsReadFrom text) : n.NamesAmong (tokenTexts text) := by
  rcases h.piece with rfl | ⟨depth, start, p, hp, q, hq, hn⟩
  · exact .mk (by simp [Node.names]) (by simp [Node.children, Stmt.children])
  · have hnames : AllNamesAmong (tokenTexts text) [p] := ⟨readPiece_names hplain hp, trivial⟩
    exact hnames.flatten.nodes q (by simpa [flattenPieces] using hq) n hn

end

end Dartlet.Syntax
