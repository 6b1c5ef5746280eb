import Dartlet.Proofs.Program.BuiltExpressions
import Dartlet.Proofs.Program.Mentions

/-!
# Traits of programs

A trait is what a construct has when it has the place of a token and an allowed form, and everything
directly inside it has the trait. Every construct of the grammar puts the place it is given on what it
builds, and takes the rest from pieces that have the trait already.
-/

namespace Dartlet.Syntax

/-- Where an element begins, if it carries a place. -/
def Element.location? : Element → Option Location
  | .plain _ => none
  | .entry l _ _ _ _ | .spread l _ _ | .nullAware l _ | .conditional l _ _ _ | .loop l _ _ => some l

/-- Where the body of a function begins. -/
def FunctionBody.location : FunctionBody → Location
  | .block l _ | .expression l _ | .misplaced l _ => l

namespace Node

/-- Where a construct begins, if it carries a place. -/
def location? : Node → Option Location
  | .expr x => some x.location
  | .argument (.named l _ _) => some l
  | .element x => x.location?
  | .body b => some b.location
  | .parameter q => some q.location
  | .var (.mk l _ _) => some l
  | .clause (.mk l _ _ _ _) => some l
  | .stmt x => some x.location
  | .argument (.positional _) | .part _ | .start _ => none

/-- Whether a construct is of a sort that is made on the way to the one that a rule builds. -/
def isIncidental : Node → Bool
  | .expr (.identifier ..) | .part _ | .body _ | .start _ => true
  | .stmt (.forLoop ..) | .stmt (.forIn ..) | .stmt (.empty _) => true
  | _ => false

end Node

/-- A property of programs that depends on the tokens whose places they carry and on the forms of their
constructs. -/
structure Trait where
  /-- The tokens whose places a program may carry. -/
  Covers : Token → Prop
  /-- The forms that constructs may have. -/
  Shape : Node → Prop
  /-- The property. -/
  Holds : Node → Prop
  make : ∀ {n : Node}, (∀ l, n.location? = some l → ∃ t, Covers t ∧ l = some t.position) → Shape n →
    (∀ m ∈ n.children, Holds m) → Holds n
  incidental : ∀ {n : Node}, n.isIncidental = true → Shape n
  receiver : ∀ {l : Location} {x : Expr} {name : String}, Holds (.expr (.property l x name)) → Holds (.expr x)
  parameter : ∀ {q : Parameter} (kind : ParameterKind), Holds (.parameter q) → Holds (.parameter { q with kind := kind })

namespace Trait

variable {T : Trait} {l : Location} {n m k j : Node}

/-- A place that constructs may carry. -/
def At (T : Trait) (l : Location) : Prop := ∃ t, T.Covers t ∧ l = some t.position

theorem mk' (hl : T.At l) (hn : n.location?.getD l = l) (hshape : T.Shape n) (h : ∀ m ∈ n.children, T.Holds m) :
    T.Holds n := by
  refine T.make (fun l' hl' => ?_) hshape h
  rw [hl', Option.getD_some] at hn
  exact hn ▸ hl

theorem leaf (hl : T.At l) (hn : n.location?.getD l = l) (hshape : T.Shape n) (hchildren : n.children = []) :
    T.Holds n :=
  T.mk' hl hn hshape (by simp [hchildren])

theorem one (hl : T.At l) (hn : n.location?.getD l = l) (hshape : T.Shape n) (hchildren : n.children = [m])
    (hm : T.Holds m) : T.Holds n :=
  T.mk' hl hn hshape (by simpa [hchildren] using hm)

theorem two (hl : T.At l) (hn : n.location?.getD l = l) (hshape : T.Shape n) (hchildren : n.children = [m, k])
    (hm : T.Holds m) (hk : T.Holds k) : T.Holds n :=
  T.mk' hl hn hshape (by simpa [hchildren] using ⟨hm, hk⟩)

theorem three (hl : T.At l) (hn : n.location?.getD l = l) (hshape : T.Shape n) (hchildren : n.children = [m, k, j])
    (hm : T.Holds m) (hk : T.Holds k) (hj : T.Holds j) : T.Holds n :=
  T.mk' hl hn hshape (by simpa [hchildren] using ⟨hm, hk, hj⟩)

/-- A function, from its parameters and its body. -/
theorem function {parameters : List Parameter} {body : FunctionBody} (hl : T.At l) (hn : n.location?.getD l = l)
    (hshape : T.Shape n) (hchildren : n.children = parameters.map .parameter ++ [.body body])
    (hparameters : ∀ m ∈ parameters.map Node.parameter, T.Holds m) (hbody : T.Holds (.body body)) : T.Holds n :=
  T.mk' hl hn hshape (by simpa [hchildren, or_imp, forall_and] using ⟨by simpa using hparameters, hbody⟩)

/-! ### Pieces -/

/-- A loop header that has the trait, whatever is put around it and into it. -/
def OnHeader (T : Trait) (h : LoopHeader) : Prop :=
  ∀ l body, T.At l → T.Holds (.stmt body) → T.Holds (.stmt (h.loop l body))

mutual

/-- A piece that has the trait. -/
def On (T : Trait) : Piece → Prop
  | .token t => T.Covers t
  | .expr x => T.Holds (.expr x)
  | .stmt x => T.Holds (.stmt x)
  | .element x => T.Holds (.element x)
  | .argument a => T.Holds (.argument a)
  | .body b => T.Holds (.body b)
  | .parameter q => T.Holds (.parameter q)
  | .variable v => T.Holds (.var v)
  | .clause c => T.Holds (.clause c)
  | .start s => T.Holds (.start s)
  | .header h => T.OnHeader h
  | .many ps => OnAll T ps
  | .typeName _ | .words _ | .loopVariable .. | .nothing => True

/-- Pieces that have the trait. -/
def OnAll (T : Trait) : List Piece → Prop
  | [] => True
  | p :: ps => On T p ∧ OnAll T ps

end

variable {p : Piece} {ps qs : List Piece}

theorem onAll_iff : T.OnAll ps ↔ ∀ p ∈ ps, T.On p := by
  induction ps with
  | nil => simp [OnAll]
  | cons p ps ih => simp [OnAll, ih]

theorem On.node (h : T.On p) (hn : p.node? = some n) : T.Holds n := by
  cases p <;> first | (cases hn; exact h) | cases hn

namespace OnAll

theorem mono (h : T.OnAll ps) (hsub : qs ⊆ ps) : T.OnAll qs :=
  onAll_iff.mpr (fun p hp => onAll_iff.mp h p (hsub hp))

theorem after (h : T.OnAll ps) (before : Piece → Bool) : T.OnAll ((ps.dropWhile before).drop 1) :=
  h.mono (List.Subset.trans (List.drop_subset _ _) (List.dropWhile_suffix _).subset)

theorem flatten (h : T.OnAll ps) : T.OnAll (flattenPieces ps) := by
  rw [onAll_iff] at h ⊢
  intro q hq
  obtain ⟨p, hp, hq⟩ := List.mem_flatMap.mp hq
  have hon := h p hp
  cases p with
  | many found => exact onAll_iff.mp hon q hq
  | _ =>
    obtain rfl := List.mem_singleton.mp hq
    exact hon

/-- The constructs among pieces that have the trait have it. -/
theorem nodes (h : T.OnAll ps) : AllNodes T.Holds ps := fun p hp _ hn => (onAll_iff.mp h p hp).node hn

end OnAll

/-- What is read of the expressions that are embedded in string tokens. -/
def Reads (T : Trait) (read : String → Except SyntaxError Expr) : Prop :=
  ∀ t code x, T.Covers t → t.terminal = .string → t.Embeds code → read code = .ok x → T.Holds (.part (.code x))

theorem Reads.literal {read : String → Except SyntaxError Expr} (hread : T.Reads read) (hl : T.At l) {ts : List Token}
    (hts : ∀ t ∈ ts, T.Covers t ∧ t.terminal = .string) {x : Expr} (h : Quotation.literal read l ts = .ok x) (hshape : T.Shape (.expr x)) :
    T.Holds (.expr x) := by
  have htext (text : String) : T.Holds (.part (.text text)) := T.leaf hl rfl (T.incidental rfl) rfl
  have hname (t : Token) (ht : t ∈ ts) (name : String) :
      T.Holds (.part (.code (.identifier (some t.position) name))) :=
    T.one hl rfl (T.incidental rfl) rfl (T.leaf ⟨t, (hts t ht).1, rfl⟩ rfl (T.incidental rfl) rfl)
  have hembedded (t : Token) (ht : t ∈ ts) (code : String) (x : Expr) := hread t code x (hts t ht).1 (hts t ht).2
  rcases Quotation.literal_cases (P := fun q => T.Holds (.part q)) htext hembedded hname h with
    ⟨text, rfl⟩ | ⟨ps, rfl, hps⟩
  · exact T.leaf hl rfl hshape rfl
  · exact T.mk' hl rfl hshape (by simpa [Node.children, Expr.children] using hps)

end Trait

/-! ### Constructs -/

variable [Host]

/-- A construct passes a trait on from all pieces that it can take to what it builds, if that has an
allowed form. -/
def Construct.Passes (T : Trait) (read : String → Except SyntaxError Expr) (c : Construct) : Prop :=
  ∀ ⦃l ps p⦄, T.At l → T.OnAll ps → c.Takes ps → assemble read c l ps = .ok p →
    (∀ n, p.node? = some n → T.Shape n) → T.On p

namespace Construct

variable {T : Trait} {read : String → Except SyntaxError Expr}

/-- The constructs that build words, types and loop variables. -/
theorem passes_words : ∀ c ∈ [directive, declarationWord, type, declaredVariable, existingVariable], Passes T read c := by
  simp only [List.forall_mem_cons, List.not_mem_nil, false_implies, implies_true, and_true]
  refine ⟨?_, ?_, ?_, ?_, ?_⟩ <;> rintro l ps p hl hps ⟨-, h⟩ ha -
  · cases ha
    trivial
  · cases ha
    trivial
  · cases ha
    trivial
  · unfold assemble at ha
    dsimp only at ha
    split at ha <;> cases ha <;> trivial
  · obtain ⟨_, _, rfl, ⟨t, rfl, -⟩, rfl⟩ := h rfl
    cases ha
    trivial

/-- The constructs that build parameters. -/
theorem passes_parameters : ∀ c ∈ [normal, defaulted, optionalParameters, namedParameters], Passes T read c := by
  simp only [List.forall_mem_cons, List.not_mem_nil, false_implies, implies_true, and_true]
  refine ⟨?_, ?_, ?_, ?_⟩ <;> rintro l ps p hl hps - ha hs
  · unfold assemble at ha
    dsimp only at ha
    split at ha
    · cases ha
      exact T.leaf hl rfl (hs _ rfl) rfl
    · cases ha
      trivial
  · unfold assemble at ha
    dsimp only at ha
    split at ha
    · rename_i q rest hfound
      cases ha
      exact hps.nodes.parameters _ (by simp [hfound])
    · cases ha
      trivial
  all_goals
    cases ha
    refine Trait.onAll_iff.mpr (fun p hp => ?_)
    obtain ⟨q, hq, rfl⟩ := List.mem_map.mp hp
    exact T.parameter _ (hps.flatten.nodes.parameters _ (List.mem_map_of_mem hq))

/-- The constructs without parts. -/
theorem passes_leaf : ∀ c ∈ [breakStmt, continueStmt, rethrowStmt, emptyStmt, nullLiteral, trueLiteral, falseLiteral],
    Passes T read c := by
  simp only [List.forall_mem_cons, List.not_mem_nil, false_implies, implies_true, and_true]
  refine ⟨?_, ?_, ?_, ?_, ?_, ?_, ?_⟩ <;> rintro l ps p hl hps - ⟨⟩ hs
  all_goals exact T.leaf hl rfl (hs _ rfl) rfl

/-- The constructs that are a token. -/
theorem passes_token : ∀ c ∈ [identifier, intLiteral, doubleLiteral], Passes T read c := by
  simp only [List.forall_mem_cons, List.not_mem_nil, false_implies, implies_true, and_true]
  refine ⟨?name, ?number, ?double⟩
  case number =>
    rintro l ps p hl hps ⟨-, h⟩ ha hs
    obtain ⟨_, _, rfl, ⟨t, rfl, -⟩, rfl⟩ := h rfl
    obtain ⟨-, rfl⟩ := integerLiteral_ok ha
    exact T.leaf hl rfl (hs _ rfl) rfl
  all_goals
    rintro l ps p hl hps ⟨-, h⟩ ha hs
    obtain ⟨_, _, rfl, ⟨t, rfl, -⟩, rfl⟩ := h rfl
    cases ha
    exact T.leaf hl rfl (hs _ rfl) rfl

theorem passes_stringLiteral (hread : T.Reads read) : Passes T read .stringLiteral := by
  rintro l ps p hl hps ⟨-, h⟩ ha hs
  obtain ⟨_, _, rfl, ⟨qs, rfl, hstrings⟩, rfl⟩ := h rfl
  obtain ⟨hqs, -⟩ := hps
  have hcovers : ∀ t ∈ qs.filterMap Piece.token?, T.Covers t ∧ t.terminal = .string := by
    intro t ht
    obtain ⟨q, hq, hqt⟩ := List.mem_filterMap.mp ht
    have hon := Trait.onAll_iff.mp hqs q hq
    obtain ⟨t', rfl, hstring, -⟩ := hstrings q hq
    cases hqt
    exact ⟨hon, by simpa using hstring⟩
  change (Quotation.literal read l (qs.filterMap Piece.token?)).map Piece.expr = .ok p at ha
  cases hliteral : Quotation.literal read l (qs.filterMap Piece.token?) with
  | error e => simp [hliteral, Except.map] at ha
  | ok x =>
    obtain rfl : .expr x = p := by simpa [hliteral, Except.map] using ha
    exact hread.literal hl hcovers hliteral (hs _ rfl)

/-- The constructs that are lists of others. -/
theorem passes_lists : ∀ c ∈ [unit, block, variableDeclarations, listLiteral, setOrMapLiteral, formals, arguments],
    Passes T read c := by
  simp only [List.forall_mem_cons, List.not_mem_nil, false_implies, implies_true, and_true]
  refine ⟨?_, ?_, ?_, ?_, ?_, ?_, ?_⟩ <;> rintro l ps p hl hps - ⟨⟩ hs
  · exact T.mk' hl rfl (hs _ rfl) hps.flatten.nodes.stmts
  · exact T.mk' hl rfl (hs _ rfl) hps.flatten.nodes.stmts
  · exact T.mk' hl rfl (hs _ rfl) hps.flatten.nodes.vars
  · exact T.mk' hl rfl (hs _ rfl) hps.flatten.nodes.elements
  · exact T.mk' hl rfl (hs _ rfl) hps.flatten.nodes.elements
  · exact hps.flatten.mono (List.filter_sublist.subset)
  · exact hps.flatten.mono (List.filter_sublist.subset)

theorem passes_typeArguments : Passes T read .typeArguments := by
  rintro l ps p hl hps ⟨-, h⟩ ha -
  obtain ⟨_, _, rfl, _, _, rfl, ⟨qs, rfl, -⟩, _, _, rfl, rfl⟩ := h rfl
  obtain ⟨-, hqs, -⟩ := hps
  cases ha
  exact hqs

/-- The constructs that are one other. -/
theorem passes_one : ∀ c ∈ [blockBody, startDeclarations, positional, plainElement], Passes T read c := by
  simp only [List.forall_mem_cons, List.not_mem_nil, false_implies, implies_true, and_true]
  refine ⟨?_, ?_, ?_, ?_⟩
  all_goals
    rintro l ps p hl hps ⟨-, h⟩ ha hs
    obtain ⟨_, _, rfl, ⟨x, rfl, -⟩, rfl⟩ := h rfl
    obtain ⟨hx, -⟩ := hps
    cases ha
    exact T.one hl rfl (hs _ rfl) rfl hx

/-- The elements with a mark in front. -/
theorem passes_marked : ∀ c ∈ [spread, nullAwareSpread, nullAwareElement], Passes T read c := by
  simp only [List.forall_mem_cons, List.not_mem_nil, false_implies, implies_true, and_true]
  refine ⟨?_, ?_, ?_⟩
  all_goals
    rintro l ps p hl hps ⟨-, h⟩ ha hs
    obtain ⟨_, _, rfl, _, _, rfl, ⟨x, rfl, -⟩, rfl⟩ := h rfl
    obtain ⟨-, hx, -⟩ := hps
    cases ha
    exact T.one hl rfl (hs _ rfl) rfl hx

/-- The constructs that are one expression among tokens. -/
theorem passes_around : ∀ c ∈ [throwing, expressionBody, parenthesized, named, property, expressionStmt],
    Passes T read c := by
  simp only [List.forall_mem_cons, List.not_mem_nil, false_implies, implies_true, and_true]
  refine ⟨?_, ?_, ?_, ?_, ?_, ?_⟩ <;> rintro l ps p hl hps ⟨-, h⟩ ha hs
  · obtain ⟨_, _, rfl, _, _, rfl, ⟨x, rfl, -⟩, rfl⟩ := h rfl
    obtain ⟨-, hx, -⟩ := hps
    cases ha
    exact T.one hl rfl (hs _ rfl) rfl hx
  · obtain ⟨_, _, rfl, _, _, rfl, ⟨x, rfl, -⟩, _, _, rfl, rfl⟩ := h rfl
    obtain ⟨-, hx, -⟩ := hps
    cases ha
    exact T.one hl rfl (hs _ rfl) rfl hx
  · obtain ⟨_, _, rfl, _, _, rfl, ⟨x, rfl, -⟩, _, _, rfl, rfl⟩ := h rfl
    obtain ⟨-, hx, -⟩ := hps
    cases ha
    exact T.one hl rfl (hs _ rfl) rfl hx
  · obtain ⟨_, _, rfl, ⟨t, rfl, -⟩, _, _, rfl, _, _, rfl, ⟨x, rfl, -⟩, rfl⟩ := h rfl
    obtain ⟨-, -, hx, -⟩ := hps
    cases ha
    exact T.one hl rfl (hs _ rfl) rfl hx
  · obtain ⟨_, _, rfl, ⟨x, rfl, -⟩, _, _, rfl, _, _, rfl, ⟨t, rfl, -⟩, rfl⟩ := h rfl
    obtain ⟨hx, -⟩ := hps
    cases ha
    exact T.one hl rfl (hs _ rfl) rfl hx
  · obtain ⟨_, _, rfl, ⟨x, rfl, -⟩, _, _, rfl, rfl⟩ := h rfl
    obtain ⟨hx, -⟩ := hps
    cases ha
    exact T.one hl rfl (hs _ rfl) rfl hx

theorem passes_operators : ∀ c ∈ [conditional, binary, index], Passes T read c := by
  simp only [List.forall_mem_cons, List.not_mem_nil, false_implies, implies_true, and_true]
  refine ⟨?_, ?_, ?_⟩ <;> rintro l ps p hl hps ⟨-, h⟩ ha hs
  · obtain ⟨_, _, rfl, ⟨x, rfl, -⟩, _, _, rfl, _, _, rfl, ⟨y, rfl, -⟩, _, _, rfl, _, _, rfl, ⟨z, rfl, -⟩, rfl⟩ := h rfl
    obtain ⟨hx, -, hy, -, hz, -⟩ := hps
    cases ha
    exact T.three hl rfl (hs _ rfl) rfl hx hy hz
  · obtain ⟨_, _, rfl, ⟨x, rfl, -⟩, _, _, rfl, ⟨t, rfl, -⟩, _, _, rfl, ⟨y, rfl, -⟩, rfl⟩ := h rfl
    obtain ⟨hx, -, hy, -⟩ := hps
    cases ha
    exact T.two hl rfl (hs _ rfl) rfl hx hy
  · obtain ⟨_, _, rfl, ⟨x, rfl, -⟩, _, _, rfl, _, _, rfl, ⟨y, rfl, -⟩, _, _, rfl, rfl⟩ := h rfl
    obtain ⟨hx, -, hy, -⟩ := hps
    cases ha
    exact T.two hl rfl (hs _ rfl) rfl hx hy

/-- The constructs that need a place to write to. -/
theorem passes_written : ∀ c ∈ [assignment, unary, postfixed], Passes T read c := by
  simp only [List.forall_mem_cons, List.not_mem_nil, false_implies, implies_true, and_true]
  refine ⟨?_, ?_, ?_⟩ <;> rintro l ps p hl hps ⟨-, h⟩ ha hs
  · obtain ⟨_, _, rfl, ⟨x, rfl, -⟩, _, _, rfl, ⟨t, rfl, -⟩, _, _, rfl, ⟨y, rfl, -⟩, rfl⟩ := h rfl
    obtain ⟨hx, -, hy, -⟩ := hps
    obtain ⟨-, rfl⟩ := requirePlace_ok ha
    exact T.two hl rfl (hs _ rfl) rfl hx hy
  · obtain ⟨_, _, rfl, ⟨t, rfl, -⟩, _, _, rfl, ⟨x, rfl, -⟩, rfl⟩ := h rfl
    obtain ⟨-, hx, -⟩ := hps
    obtain ⟨-, rfl⟩ := unary_ok ha
    exact T.one hl rfl (hs _ rfl) rfl hx
  · obtain ⟨_, _, rfl, ⟨x, rfl, -⟩, _, _, rfl, ⟨t, rfl, -⟩, rfl⟩ := h rfl
    obtain ⟨hx, -⟩ := hps
    obtain ⟨-, rfl⟩ := requirePlace_ok ha
    exact T.one hl rfl (hs _ rfl) rfl hx

theorem passes_call : Passes T read .call := by
  rintro l ps p hl hps ⟨-, h⟩ ha hs
  obtain ⟨_, _, rfl, ⟨x, rfl, -⟩, _, _, rfl, ⟨qs, rfl, -⟩, rfl⟩ := h rfl
  obtain ⟨hx, hqs, -⟩ := hps
  cases ha
  have harguments := Trait.OnAll.nodes hqs |>.arguments
  have hshape := hs _ rfl
  change T.Holds (.expr (callOf l x _))
  revert hshape
  unfold callOf
  split
  · exact fun hshape => T.mk' hl rfl hshape (List.forall_mem_cons.mpr ⟨T.receiver hx, harguments⟩)
  · exact fun hshape => T.mk' hl rfl hshape (List.forall_mem_cons.mpr ⟨hx, harguments⟩)

theorem passes_functionLiteral : ∀ c ∈ [arrowFunction, functionLiteral], Passes T read c := by
  simp only [List.forall_mem_cons, List.not_mem_nil, false_implies, implies_true, and_true]
  refine ⟨?_, ?_⟩ <;> rintro l ps p hl hps ⟨-, h⟩ ha hs
  · obtain ⟨_, _, rfl, ⟨qs, rfl, -⟩, _, _, rfl, _, _, rfl, ⟨x, rfl, -⟩, rfl⟩ := h rfl
    obtain ⟨hqs, -, hx, -⟩ := hps
    cases ha
    have hbody : T.Holds (.body (.expression l x)) := T.one hl rfl (T.incidental rfl) rfl hx
    exact T.function hl rfl (hs _ rfl) rfl (Trait.OnAll.nodes hqs).parameters hbody
  · obtain ⟨_, _, rfl, ⟨qs, rfl, -⟩, _, _, rfl, ⟨x, rfl, -⟩, rfl⟩ := h rfl
    obtain ⟨hqs, hx, -⟩ := hps
    cases ha
    have hbody : T.Holds (.body (.block l x)) := T.one hl rfl (T.incidental rfl) rfl hx
    exact T.function hl rfl (hs _ rfl) rfl (Trait.OnAll.nodes hqs).parameters hbody

theorem passes_function : Passes T read .function := by
  rintro l ps p hl hps ⟨-, h⟩ ha hs
  rcases h rfl with
    ⟨_, _, rfl, ⟨type, rfl⟩, _, _, rfl, ⟨t, rfl, -⟩, _, _, rfl, ⟨qs, rfl, -⟩, _, _, rfl, ⟨b, rfl, -⟩, rfl⟩ |
    ⟨_, _, rfl, ⟨t, rfl, -⟩, _, _, rfl, ⟨qs, rfl, -⟩, _, _, rfl, ⟨b, rfl, -⟩, rfl⟩
  · obtain ⟨-, -, hqs, hb, -⟩ := hps
    cases ha
    exact T.function hl rfl (hs _ rfl) rfl (Trait.OnAll.nodes hqs).parameters hb
  · obtain ⟨-, hqs, hb, -⟩ := hps
    cases ha
    exact T.function hl rfl (hs _ rfl) rfl (Trait.OnAll.nodes hqs).parameters hb

theorem passes_variable : Passes T read .variable := by
  rintro l ps p hl hps ⟨-, h⟩ ha hs
  rcases h rfl with ⟨_, _, rfl, ⟨t, rfl, -⟩, rfl⟩ |
    ⟨_, _, rfl, ⟨t, rfl, -⟩, _, _, rfl, _, _, rfl, ⟨x, rfl, -⟩, rfl⟩
  · cases ha
    exact T.leaf hl rfl (hs _ rfl) rfl
  · obtain ⟨-, -, hx, -⟩ := hps
    cases ha
    exact T.one hl rfl (hs _ rfl) rfl hx

theorem passes_variablesStmt : Passes T read .variablesStmt := by
  rintro l ps p hl hps ⟨-, h⟩ ha -
  obtain ⟨_, _, rfl, ⟨x, rfl, -⟩, _, _, rfl, rfl⟩ := h rfl
  obtain ⟨hx, -⟩ := hps
  cases ha
  exact hx

theorem passes_returnStmt : Passes T read .returnStmt := by
  rintro l ps p hl hps ⟨-, h⟩ ha hs
  rcases h rfl with ⟨_, _, rfl, _, _, rfl, rfl⟩ | ⟨_, _, rfl, _, _, rfl, ⟨x, rfl, -⟩, _, _, rfl, rfl⟩
  · cases ha
    exact T.leaf hl rfl (hs _ rfl) rfl
  · obtain ⟨-, hx, -⟩ := hps
    cases ha
    exact T.one hl rfl (hs _ rfl) rfl hx

theorem passes_conditionalStmt : Passes T read .conditionalStmt := by
  rintro l ps p hl hps ⟨-, h⟩ ha hs
  rcases h rfl with
    ⟨_, _, rfl, _, _, rfl, _, _, rfl, ⟨x, rfl, -⟩, _, _, rfl, _, _, rfl, ⟨t, rfl, -⟩, rfl⟩ |
    ⟨_, _, rfl, _, _, rfl, _, _, rfl, ⟨x, rfl, -⟩, _, _, rfl, _, _, rfl, ⟨t, rfl, -⟩, _, _, rfl, _, _, rfl,
      ⟨e, rfl, -⟩, rfl⟩
  · obtain ⟨-, -, hx, -, ht, -⟩ := hps
    cases ha
    exact T.two hl rfl (hs _ rfl) rfl hx ht
  · obtain ⟨-, -, hx, -, ht, -, he, -⟩ := hps
    cases ha
    exact T.three hl rfl (hs _ rfl) rfl hx ht he

theorem passes_elementIf : Passes T read .elementIf := by
  rintro l ps p hl hps ⟨-, h⟩ ha hs
  rcases h rfl with
    ⟨_, _, rfl, _, _, rfl, _, _, rfl, ⟨x, rfl, -⟩, _, _, rfl, _, _, rfl, ⟨t, rfl, -⟩, rfl⟩ |
    ⟨_, _, rfl, _, _, rfl, _, _, rfl, ⟨x, rfl, -⟩, _, _, rfl, _, _, rfl, ⟨t, rfl, -⟩, _, _, rfl, _, _, rfl,
      ⟨e, rfl, -⟩, rfl⟩
  · obtain ⟨-, -, hx, -, ht, -⟩ := hps
    cases ha
    exact T.two hl rfl (hs _ rfl) rfl hx ht
  · obtain ⟨-, -, hx, -, ht, -, he, -⟩ := hps
    cases ha
    exact T.three hl rfl (hs _ rfl) rfl hx ht he

theorem passes_mapEntry : Passes T read .mapEntry := by
  rintro l ps p hl hps ⟨-, h⟩ ha hs
  rcases h rfl with ⟨_, _, rfl, ⟨x, rfl, -⟩, _, _, rfl, ⟨t, rfl, -⟩, _, _, rfl, ⟨y, rfl, -⟩, rfl⟩ |
    ⟨_, _, rfl, ⟨q, rfl, -⟩, _, _, rfl, ⟨x, rfl, -⟩, _, _, rfl, ⟨t, rfl, -⟩, _, _, rfl, ⟨y, rfl, -⟩, rfl⟩ |
    ⟨_, _, rfl, ⟨x, rfl, -⟩, _, _, rfl, ⟨t, rfl, -⟩, _, _, rfl, ⟨q, rfl, -⟩, _, _, rfl, ⟨y, rfl, -⟩, rfl⟩ |
    ⟨_, _, rfl, ⟨q, rfl, -⟩, _, _, rfl, ⟨x, rfl, -⟩, _, _, rfl, ⟨t, rfl, -⟩, _, _, rfl, ⟨q', rfl, -⟩, _, _, rfl,
      ⟨y, rfl, -⟩, rfl⟩
  all_goals
    cases ha
    have hon := Trait.onAll_iff.mp hps
    exact T.two hl rfl (hs _ rfl) rfl (hon (.expr x) (by simp)) (hon (.expr y) (by simp))

/-- The loops, and an element that has the form of one. -/
theorem passes_loop : ∀ c ∈ [whileStmt, doStmt, forStmt, elementFor], Passes T read c := by
  simp only [List.forall_mem_cons, List.not_mem_nil, false_implies, implies_true, and_true]
  refine ⟨?_, ?_, ?_, ?_⟩ <;> rintro l ps p hl hps ⟨-, h⟩ ha hs
  · obtain ⟨_, _, rfl, _, _, rfl, _, _, rfl, ⟨x, rfl, -⟩, _, _, rfl, _, _, rfl, ⟨b, rfl, -⟩, rfl⟩ := h rfl
    obtain ⟨-, -, hx, -, hb, -⟩ := hps
    cases ha
    exact T.two hl rfl (hs _ rfl) rfl hx hb
  · obtain ⟨_, _, rfl, _, _, rfl, ⟨b, rfl, -⟩, _, _, rfl, _, _, rfl, _, _, rfl, ⟨x, rfl, -⟩, _, _, rfl, _, _, rfl,
      rfl⟩ := h rfl
    obtain ⟨-, hb, -, -, hx, -⟩ := hps
    cases ha
    exact T.two hl rfl (hs _ rfl) rfl hb hx
  · obtain ⟨_, _, rfl, _, _, rfl, _, _, rfl, ⟨header, rfl, -⟩, _, _, rfl, _, _, rfl, ⟨b, rfl, -⟩, rfl⟩ := h rfl
    obtain ⟨-, -, hheader, -, hb, -⟩ := hps
    cases ha
    exact hheader l b hl hb
  · obtain ⟨_, _, rfl, _, _, rfl, _, _, rfl, ⟨header, rfl, -⟩, _, _, rfl, _, _, rfl, ⟨x, rfl, -⟩, rfl⟩ := h rfl
    obtain ⟨-, -, hheader, -, hx, -⟩ := hps
    cases ha
    have hempty : T.Holds (.stmt (.empty l)) := T.leaf hl rfl (T.incidental rfl) rfl
    exact T.two hl rfl (hs _ rfl) rfl (hheader l _ hl hempty) hx

theorem passes_forEach : Passes T read .forEach := by
  rintro l ps p hl hps ⟨-, h⟩ ha -
  obtain ⟨_, _, rfl, ⟨name, declares, rfl⟩, _, _, rfl, _, _, rfl, ⟨x, rfl, -⟩, rfl⟩ := h rfl
  obtain ⟨-, -, hx, -⟩ := hps
  cases ha
  exact fun l' body hl' hbody => T.two hl' rfl (T.incidental rfl) rfl hx hbody

theorem passes_startExpressions : Passes T read .startExpressions := by
  rintro l ps p hl hps ⟨-, h⟩ ha -
  obtain ⟨_, _, rfl, ⟨qs, rfl, -⟩, rfl⟩ := h rfl
  obtain ⟨hqs, -⟩ := hps
  cases ha
  exact T.mk' hl rfl (T.incidental rfl) (Trait.OnAll.nodes hqs).exprs

theorem passes_forClassic : Passes T read .forClassic := by
  rintro l ps p hl hps - ⟨⟩ -
  have hafter := hps.after (fun q => !q.isToken .semicolon)
  refine fun l' body hl' hbody => T.mk' hl' rfl (T.incidental rfl) (fun n hn => ?_)
  simp only [classicHeader, LoopHeader.loop, Node.children, Stmt.children, List.cons_append, List.mem_cons,
    List.mem_append, List.not_mem_nil, or_false] at hn
  rcases hn with rfl | (hn | hn) | rfl
  · split
    · exact hps.1
    · exact T.leaf hl rfl (T.incidental rfl) rfl
  · obtain ⟨x, hx, rfl⟩ := List.mem_map.mp hn
    obtain ⟨q, hq, hqx⟩ := Option.bind_eq_some_iff.mp (Option.mem_toList.mp hx)
    exact hafter.nodes.exprs _ (List.mem_map_of_mem (List.mem_filterMap.mpr ⟨q, List.mem_of_head? hq, hqx⟩))
  · exact (hafter.after _).flatten.nodes.exprs n hn
  · exact hbody

theorem passes_tryStmt : Passes T read .tryStmt := by
  rintro l ps p hl hps ⟨-, h⟩ ha hs
  obtain ⟨first, x, rest, rfl⟩ : ∃ first x rest, ps = first :: .stmt x :: rest := by
    rcases h rfl with ⟨_, _, rfl, _, _, rfl, ⟨x, rfl, -⟩, _⟩ | ⟨_, _, rfl, _, _, rfl, ⟨x, rfl, -⟩, _⟩ |
      ⟨_, _, rfl, _, _, rfl, ⟨x, rfl, -⟩, _⟩
    all_goals exact ⟨_, x, _, rfl⟩
  obtain ⟨-, hx, hrest⟩ := hps
  change (if _ then _ else _) = Except.ok p at ha
  split at ha
  · cases ha
  · cases ha
    refine T.mk' hl rfl (hs _ rfl) (fun n hn => ?_)
    simp only [Node.children, Stmt.children, List.cons_append, List.mem_cons, List.mem_append] at hn
    rcases hn with rfl | hn | hn
    · exact hx
    · exact Trait.OnAll.flatten hrest |>.nodes.clauses n hn
    · exact Trait.OnAll.nodes hrest |>.stmts n (head_nodes_subset _ _ hn)

theorem passes_catchClause : Passes T read .catchClause := by
  rintro l ps p hl hps ⟨-, h⟩ ha hs
  rcases h rfl with ⟨_, _, rfl, _, _, rfl, _, _, rfl, ⟨x, rfl, -⟩, rfl⟩ |
    ⟨_, _, rfl, _, _, rfl, _, _, rfl, _, _, rfl, _, _, rfl, ⟨x, rfl, -⟩, rfl⟩ |
    ⟨_, _, rfl, _, _, rfl, _, _, rfl, _, _, rfl, _, _, rfl, _, _, rfl, _, _, rfl, ⟨x, rfl, -⟩, rfl⟩ |
    ⟨_, _, rfl, _, _, rfl, _, _, rfl, _, _, rfl, _, _, rfl, _, _, rfl, _, _, rfl, _, _, rfl, _, _, rfl,
      ⟨x, rfl, -⟩, rfl⟩
  all_goals
    cases ha
    have hon := Trait.onAll_iff.mp hps
    exact T.one hl rfl (hs _ rfl) rfl (hon (.stmt x) (by simp))

/-- Every construct that builds something of its own passes every trait on. -/
theorem passes (hread : T.Reads read) (c : Construct) (hc : c ∉ [same, single, appended]) : Passes T read c := by
  cases c with
  | same | single | appended => simp at hc
  | directive | declarationWord | type | declaredVariable | existingVariable => exact passes_words _ (by decide)
  | normal | defaulted | optionalParameters | namedParameters => exact passes_parameters _ (by decide)
  | breakStmt | continueStmt | rethrowStmt | emptyStmt | nullLiteral | trueLiteral | falseLiteral =>
    exact passes_leaf _ (by decide)
  | identifier | intLiteral | doubleLiteral => exact passes_token _ (by decide)
  | stringLiteral => exact passes_stringLiteral hread
  | unit | block | variableDeclarations | listLiteral | setOrMapLiteral | formals | arguments =>
    exact passes_lists _ (by decide)
  | typeArguments => exact passes_typeArguments
  | blockBody | startDeclarations | positional | plainElement => exact passes_one _ (by decide)
  | spread | nullAwareSpread | nullAwareElement => exact passes_marked _ (by decide)
  | throwing | expressionBody | parenthesized | named | property | expressionStmt =>
    exact passes_around _ (by decide)
  | conditional | binary | index => exact passes_operators _ (by decide)
  | assignment | unary | postfixed => exact passes_written _ (by decide)
  | call => exact passes_call
  | arrowFunction | functionLiteral => exact passes_functionLiteral _ (by decide)
  | function => exact passes_function
  | variablesStmt => exact passes_variablesStmt
  | returnStmt => exact passes_returnStmt
  | conditionalStmt => exact passes_conditionalStmt
  | elementIf => exact passes_elementIf
  | mapEntry => exact passes_mapEntry
  | whileStmt | doStmt | forStmt | elementFor => exact passes_loop _ (by decide)
  | forEach => exact passes_forEach
  | startExpressions => exact passes_startExpressions
  | forClassic => exact passes_forClassic
  | tryStmt => exact passes_tryStmt
  | catchClause => exact passes_catchClause
  | _ => exact passes_variable

end Construct
end Dartlet.Syntax
