import Dartlet.Proofs.Program.BuiltTraits
import Dartlet.Proofs.Program.RoundTrip

/-!
# The shape of programs

Whatever is built from a derivation is as tight and as closed as its category says, by induction on the
derivation. So every construct that a rule builds has the right form, and so has everything in a program
that is read from a text, also inside the expressions that are embedded in its strings.
-/

namespace Dartlet.Syntax

set_option linter.unusedSectionVars false

/-! ### Strings -/

namespace Quotation

/-- Texts are never side by side once neighbours are joined. -/
theorem joinTexts_chain (ps : List Part) :
    (joinTexts ps).IsChain (fun p q => ¬(p.isText = true ∧ q.isText = true)) := by
  fun_induction joinTexts ps with
  | case1 a rest b more hjoin ih =>
    rw [hjoin] at ih
    cases ih with
    | singleton => exact .singleton _
    | cons_cons hhead htail => exact .cons_cons hhead htail
  | case2 a rest hno ih =>
    cases hjoin : joinTexts rest with
    | nil => exact .singleton _
    | cons q more =>
      rw [hjoin] at ih
      cases q with
      | text b => exact absurd hjoin (hno b more)
      | code x => exact .cons_cons (by simp [Part.isText]) ih
  | case3 part rest hno ih =>
    cases part with
    | text a => exact absurd rfl (hno a)
    | code x =>
      cases hjoin : joinTexts rest with
      | nil => exact .singleton _
      | cons q more =>
        rw [hjoin] at ih
        exact .cons_cons (by simp [Part.isText]) ih
  | case4 => exact .nil

theorem exists_code {ps : List Part} (h : plainText? ps = none) : ∃ x, .code x ∈ ps := by
  fun_induction plainText? ps with
  | case1 => cases h
  | case2 a rest ih =>
    obtain ⟨x, hx⟩ := ih (by simpa using h)
    exact ⟨x, List.mem_cons_of_mem _ hx⟩
  | case3 x rest => exact ⟨x, List.mem_cons_self⟩

theorem literal_shaped {read : String → Except SyntaxError Expr} {l : Location} {ts : List Token} {x : Expr}
    (h : literal read l ts = .ok x) : x.level = postfixLevel ∧ (Node.expr x).IsShaped := by
  unfold literal at h
  split at h
  · cases h
  · simp only at h
    split at h
    · cases h
      exact ⟨rfl, trivial⟩
    · cases h
      exact ⟨rfl, exists_code ‹_›, joinTexts_chain _⟩

end Quotation

/-! ### Pieces -/

/-- A piece that is as tight and as closed as a symbol says. -/
def Piece.Binds (s : Symbol) : Piece → Prop
  | .expr x => s.level ≤ x.level
  | .stmt x => s.isClosed = true → x.endsOpen = false
  | _ => True

/-- A piece that is as tight and as closed as a symbol says, and of the right form if it is a construct. -/
structure Piece.Suits (s : Symbol) (p : Piece) : Prop where
  binds : p.Binds s
  shaped : ∀ n, p.node? = some n → n.IsShaped

/-- Pieces that suit symbols, one for each. -/
def SuitsAll (symbols : List Symbol) (ps : List Piece) : Prop := List.Forall₂ Piece.Suits symbols ps

namespace Piece

variable {head : Category}

theorem suits_expr {x : Expr} (hlevel : head.level ≤ x.level) (hx : (Node.expr x).IsShaped) :
    (Piece.expr x).Suits (.cat head) :=
  ⟨hlevel, by rintro n ⟨⟩; exact hx⟩

/-- An expression that is as tight as can be suits every category. -/
theorem suits_postfix {x : Expr} (hlevel : x.level = postfixLevel) (hx : (Node.expr x).IsShaped) :
    (Piece.expr x).Suits (.cat head) :=
  suits_expr (hlevel ▸ head.level_le) hx

theorem suits_stmt {x : Stmt} (hclosed : head.isClosed = true → x.endsOpen = false) (hx : (Node.stmt x).IsShaped) :
    (Piece.stmt x).Suits (.cat head) :=
  ⟨hclosed, by rintro n ⟨⟩; exact hx⟩

theorem suits_declaration {x : Stmt} (hx : x.isDeclaration = true) : (Piece.stmt x).Suits (.cat head) := by
  cases x with
  | function | «variables» => exact suits_stmt (fun _ => rfl) trivial
  | _ => cases hx

/-- What does not run suits every category, and so do declarations and whole programs. -/
theorem Fits.suits {k : Kind} {p : Piece} (h : p.Fits k) (hk : k ∉ [.expr, .stmt]) : p.Suits (.cat head) := by
  cases k with
  | expr | stmt => simp at hk
  | declaration =>
    obtain ⟨x, rfl, -, hx⟩ := h
    exact suits_declaration hx
  | unit =>
    obtain ⟨l, xs, rfl, -⟩ := h
    exact suits_stmt (fun _ => rfl) trivial
  | loopVariable =>
    obtain ⟨name, declares, rfl⟩ := h
    exact ⟨trivial, nofun⟩
  | nothing =>
    cases h
    exact ⟨trivial, nofun⟩
  | typeName | words =>
    obtain ⟨x, rfl⟩ := h
    exact ⟨trivial, nofun⟩
  | token | element | argument | body | parameter | «variable» | clause | start | header | list =>
    obtain ⟨x, rfl, -⟩ := h
    exact ⟨trivial, by rintro n ⟨⟩ <;> trivial⟩

theorem Suits.of_le {s : Symbol} {p : Piece} (h : p.Suits s) (hlevel : head.level ≤ s.level)
    (hclosed : head.isClosed = true → s.isClosed = true) : p.Suits (.cat head) := by
  refine ⟨?_, h.shaped⟩
  cases p with
  | expr x => exact hlevel.trans h.binds
  | stmt x => exact fun hhead => h.binds (hclosed hhead)
  | _ => trivial

end Piece

theorem LoopHeader.endsOpen_loop (h : LoopHeader) (l : Location) (body : Stmt) :
    (h.loop l body).endsOpen = body.endsOpen := by
  cases h <;> simp [loop, Stmt.endsOpen]

theorem LoopHeader.isShaped_loop (h : LoopHeader) (l : Location) (body : Stmt) : (Node.stmt (h.loop l body)).IsShaped := by
  cases h <;> trivial

/-! ### Constructs -/

section

variable [Host]

/-- A construct builds what suits a rule's category from pieces that suit the rule's symbols. -/
def Construct.Forms (read : String → Except SyntaxError Expr) (c : Construct) : Prop :=
  ∀ ⦃head l symbols ps p⦄, c.respectsLevels head symbols = true → SuitsAll symbols ps →
    FitsAll (symbols.map Symbol.kind) ps → c.Takes ps → assemble read c l ps = .ok p → p.Suits (.cat head)

namespace Construct

variable {read : String → Except SyntaxError Expr}

/-! ### Expressions -/

/-- The expressions that are nothing but tokens and elements. -/
theorem forms_literal : ∀ c ∈ [nullLiteral, trueLiteral, falseLiteral, listLiteral, setOrMapLiteral], Forms read c := by
  simp only [List.forall_mem_cons, List.not_mem_nil, false_implies, implies_true, and_true]
  refine ⟨?_, ?_, ?_, ?_, ?_⟩ <;> rintro head l symbols ps p - - - - ⟨⟩
  all_goals exact Piece.suits_postfix rfl trivial

theorem forms_token : ∀ c ∈ [identifier, intLiteral, doubleLiteral], Forms read c := by
  simp only [List.forall_mem_cons, List.not_mem_nil, false_implies, implies_true, and_true]
  refine ⟨?name, ?number, ?double⟩
  case number =>
    rintro head l symbols ps p - - - ⟨-, h⟩ ha
    obtain ⟨_, _, rfl, ⟨t, rfl, -⟩, rfl⟩ := h rfl
    obtain ⟨-, rfl⟩ := integerLiteral_ok ha
    exact Piece.suits_postfix rfl trivial
  all_goals
    rintro head l symbols ps p - - - ⟨-, h⟩ ha
    obtain ⟨_, _, rfl, ⟨t, rfl, -⟩, rfl⟩ := h rfl
    cases ha
    exact Piece.suits_postfix rfl trivial

theorem forms_stringLiteral : Forms read .stringLiteral := by
  rintro head l symbols ps p - - - ⟨-, h⟩ ha
  obtain ⟨_, _, rfl, ⟨qs, rfl, -⟩, rfl⟩ := h rfl
  change (Quotation.literal read l (qs.filterMap Piece.token?)).map Piece.expr = .ok p at ha
  cases hliteral : Quotation.literal read l (qs.filterMap Piece.token?) with
  | error e => simp [hliteral, Except.map] at ha
  | ok x =>
    obtain rfl : .expr x = p := by simpa [hliteral, Except.map] using ha
    obtain ⟨hlevel, hx⟩ := Quotation.literal_shaped hliteral
    exact Piece.suits_postfix hlevel hx

theorem forms_enclosed : ∀ c ∈ [parenthesized, functionLiteral], Forms read c := by
  simp only [List.forall_mem_cons, List.not_mem_nil, false_implies, implies_true, and_true]
  refine ⟨?_, ?_⟩ <;> rintro head l symbols ps p - - - ⟨-, h⟩ ha
  · obtain ⟨_, _, rfl, _, _, rfl, ⟨x, rfl, -⟩, _, _, rfl, rfl⟩ := h rfl
    cases ha
    exact Piece.suits_postfix rfl trivial
  · obtain ⟨_, _, rfl, ⟨qs, rfl, -⟩, _, _, rfl, ⟨x, rfl, -⟩, rfl⟩ := h rfl
    cases ha
    exact Piece.suits_postfix rfl trivial

/-- The expressions that bind most loosely. -/
theorem forms_loosest : ∀ c ∈ [arrowFunction, throwing, conditional, assignment], Forms read c := by
  simp only [List.forall_mem_cons, List.not_mem_nil, false_implies, implies_true, and_true]
  refine ⟨?_, ?_, ?_, ?_⟩ <;> rintro head l symbols ps p hlevels - - ⟨-, h⟩ ha
  all_goals have hhead : head.level = 0 := by simpa [respectsLevels] using hlevels
  · obtain ⟨_, _, rfl, ⟨qs, rfl, -⟩, _, _, rfl, _, _, rfl, ⟨x, rfl, -⟩, rfl⟩ := h rfl
    cases ha
    exact Piece.suits_expr hhead.le trivial
  · obtain ⟨_, _, rfl, _, _, rfl, ⟨x, rfl, -⟩, rfl⟩ := h rfl
    cases ha
    exact Piece.suits_expr hhead.le trivial
  · obtain ⟨_, _, rfl, ⟨x, rfl, -⟩, _, _, rfl, _, _, rfl, ⟨y, rfl, -⟩, _, _, rfl, _, _, rfl, ⟨z, rfl, -⟩, rfl⟩ := h rfl
    cases ha
    exact Piece.suits_expr hhead.le trivial
  · obtain ⟨_, _, rfl, ⟨x, rfl, -⟩, _, _, rfl, ⟨t, rfl, -⟩, _, _, rfl, ⟨y, rfl, -⟩, rfl⟩ := h rfl
    obtain ⟨hplace, rfl⟩ := requirePlace_ok ha
    exact Piece.suits_expr hhead.le hplace

theorem forms_binary : Forms read .binary := by
  rintro head l symbols ps p hlevels hsuits hfits ⟨-, h⟩ ha
  obtain ⟨_, _, rfl, ⟨x, rfl, -⟩, _, _, rfl, ⟨t, rfl, -⟩, _, _, rfl, ⟨y, rfl, -⟩, rfl⟩ := h rfl
  obtain _ | ⟨hx, _ | ⟨-, _ | ⟨hy, ⟨⟩⟩⟩⟩ := hsuits
  obtain _ | ⟨-, _ | ⟨ht, -⟩⟩ := hfits
  obtain ⟨hpos, hhead, hleft, hright⟩ := joins_ok hlevels ht
  cases ha
  exact Piece.suits_expr hhead ⟨hpos, hleft.trans hx.binds, hright.trans_le hy.binds⟩

theorem forms_unary : Forms read .unary := by
  rintro head l symbols ps p hlevels hsuits - ⟨-, h⟩ ha
  obtain ⟨_, _, rfl, ⟨t, rfl, -⟩, _, _, rfl, ⟨x, rfl, -⟩, rfl⟩ := h rfl
  obtain _ | ⟨-, _ | ⟨hx, ⟨⟩⟩⟩ := hsuits
  obtain ⟨hhead, hoperand⟩ := of_decide_eq_true hlevels
  obtain ⟨hplace, rfl⟩ := unary_ok ha
  exact Piece.suits_expr hhead ⟨hoperand.trans hx.binds, hplace⟩

theorem forms_postfixed : Forms read .postfixed := by
  rintro head l symbols ps p - - - ⟨-, h⟩ ha
  obtain ⟨_, _, rfl, ⟨x, rfl, -⟩, _, _, rfl, ⟨t, rfl, -⟩, rfl⟩ := h rfl
  obtain ⟨hplace, rfl⟩ := requirePlace_ok ha
  exact Piece.suits_postfix rfl hplace

/-- What stands after a receiver. -/
theorem forms_received : ∀ c ∈ [property, index], Forms read c := by
  simp only [List.forall_mem_cons, List.not_mem_nil, false_implies, implies_true, and_true]
  refine ⟨?_, ?_⟩ <;> rintro head l symbols ps p hlevels hsuits - ⟨-, h⟩ ha
  · obtain ⟨_, _, rfl, ⟨x, rfl, -⟩, _, _, rfl, _, _, rfl, ⟨t, rfl, -⟩, rfl⟩ := h rfl
    obtain _ | ⟨hx, _ | ⟨-, _ | ⟨-, ⟨⟩⟩⟩⟩ := hsuits
    cases ha
    exact Piece.suits_postfix rfl ((of_decide_eq_true hlevels).trans hx.binds)
  · obtain ⟨_, _, rfl, ⟨x, rfl, -⟩, _, _, rfl, _, _, rfl, ⟨y, rfl, -⟩, _, _, rfl, rfl⟩ := h rfl
    obtain _ | ⟨hx, _ | ⟨-, _ | ⟨-, _ | ⟨-, ⟨⟩⟩⟩⟩⟩ := hsuits
    cases ha
    exact Piece.suits_postfix rfl ((of_decide_eq_true hlevels).trans hx.binds)

theorem forms_call : Forms read .call := by
  rintro head l symbols ps p hlevels hsuits - ⟨-, h⟩ ha
  obtain ⟨_, _, rfl, ⟨x, rfl, -⟩, _, _, rfl, ⟨qs, rfl, -⟩, rfl⟩ := h rfl
  obtain _ | ⟨hx, _ | ⟨-, ⟨⟩⟩⟩ := hsuits
  have hreceiver := (of_decide_eq_true hlevels).trans hx.binds
  cases ha
  unfold callOf
  split
  · have hproperty := hx.shaped _ rfl
    exact Piece.suits_postfix rfl hproperty
  · exact Piece.suits_postfix rfl hreceiver

/-! ### Statements -/

/-- The statements that are nothing but tokens and statements in braces. -/
theorem forms_simple : ∀ c ∈ [breakStmt, continueStmt, rethrowStmt, emptyStmt, block], Forms read c := by
  simp only [List.forall_mem_cons, List.not_mem_nil, false_implies, implies_true, and_true]
  refine ⟨?_, ?_, ?_, ?_, ?_⟩ <;> rintro head l symbols ps p - - - - ⟨⟩
  all_goals exact Piece.suits_stmt (fun _ => rfl) trivial

/-- The statements that end with a semicolon. -/
theorem forms_ended : ∀ c ∈ [expressionStmt, returnStmt, doStmt], Forms read c := by
  simp only [List.forall_mem_cons, List.not_mem_nil, false_implies, implies_true, and_true]
  refine ⟨?_, ?_, ?_⟩ <;> rintro head l symbols ps p - - - ⟨-, h⟩ ha
  · obtain ⟨_, _, rfl, ⟨x, rfl, -⟩, _, _, rfl, rfl⟩ := h rfl
    cases ha
    exact Piece.suits_stmt (fun _ => rfl) trivial
  · rcases h rfl with ⟨_, _, rfl, _, _, rfl, rfl⟩ | ⟨_, _, rfl, _, _, rfl, ⟨x, rfl, -⟩, _, _, rfl, rfl⟩
    all_goals
      cases ha
      exact Piece.suits_stmt (fun _ => rfl) trivial
  · obtain ⟨_, _, rfl, _, _, rfl, ⟨b, rfl, -⟩, _, _, rfl, _, _, rfl, _, _, rfl, ⟨x, rfl, -⟩, _, _, rfl, _, _, rfl,
      rfl⟩ := h rfl
    cases ha
    exact Piece.suits_stmt (fun _ => rfl) trivial

/-- With an `else`, the statement before it is closed, and the one after it decides. -/
theorem forms_conditionalStmt : Forms read .conditionalStmt := by
  rintro head l symbols ps p hlevels hsuits - ⟨-, h⟩ ha
  rcases h rfl with
    ⟨_, _, rfl, _, _, rfl, _, _, rfl, ⟨x, rfl, -⟩, _, _, rfl, _, _, rfl, ⟨t, rfl, -⟩, rfl⟩ |
    ⟨_, _, rfl, _, _, rfl, _, _, rfl, ⟨x, rfl, -⟩, _, _, rfl, _, _, rfl, ⟨t, rfl, -⟩, _, _, rfl, _, _, rfl,
      ⟨e, rfl, -⟩, rfl⟩
  · obtain _ | ⟨-, _ | ⟨-, _ | ⟨-, _ | ⟨-, _ | ⟨-, ⟨⟩⟩⟩⟩⟩⟩ := hsuits
    have hopen : head.isClosed = false := by simpa [respectsLevels] using hlevels
    cases ha
    exact Piece.suits_stmt (fun hclosed => by simp [hopen] at hclosed) trivial
  · obtain _ | ⟨-, _ | ⟨-, _ | ⟨-, _ | ⟨-, _ | ⟨ht, _ | ⟨-, _ | ⟨he, ⟨⟩⟩⟩⟩⟩⟩⟩⟩ := hsuits
    rw [respectsLevels, Bool.and_eq_true, Bool.or_eq_true, Bool.not_eq_true'] at hlevels
    cases ha
    refine Piece.suits_stmt (fun hclosed => ?_) (ht.binds hlevels.1)
    rw [Stmt.endsOpen]
    exact he.binds (hlevels.2.resolve_left (by simp [hclosed]))

/-- A loop ends open if its body does. -/
theorem forms_loop : ∀ c ∈ [whileStmt, forStmt], Forms read c := by
  simp only [List.forall_mem_cons, List.not_mem_nil, false_implies, implies_true, and_true]
  refine ⟨?_, ?_⟩ <;> rintro head l symbols ps p hlevels hsuits - ⟨-, h⟩ ha
  · obtain ⟨_, _, rfl, _, _, rfl, _, _, rfl, ⟨x, rfl, -⟩, _, _, rfl, _, _, rfl, ⟨b, rfl, -⟩, rfl⟩ := h rfl
    obtain _ | ⟨-, _ | ⟨-, _ | ⟨-, _ | ⟨-, _ | ⟨hb, ⟨⟩⟩⟩⟩⟩⟩ := hsuits
    rw [respectsLevels, Bool.or_eq_true, Bool.not_eq_true'] at hlevels
    cases ha
    refine Piece.suits_stmt (fun hclosed => ?_) trivial
    rw [Stmt.endsOpen]
    exact hb.binds (hlevels.resolve_left (by simp [hclosed]))
  · obtain ⟨_, _, rfl, _, _, rfl, _, _, rfl, ⟨header, rfl, -⟩, _, _, rfl, _, _, rfl, ⟨b, rfl, -⟩, rfl⟩ := h rfl
    obtain _ | ⟨-, _ | ⟨-, _ | ⟨-, _ | ⟨-, _ | ⟨hb, ⟨⟩⟩⟩⟩⟩⟩ := hsuits
    rw [respectsLevels, Bool.or_eq_true, Bool.not_eq_true'] at hlevels
    cases ha
    refine Piece.suits_stmt (fun hclosed => ?_) (header.isShaped_loop l b)
    rw [header.endsOpen_loop]
    exact hb.binds (hlevels.resolve_left (by simp [hclosed]))

theorem forms_tryStmt : Forms read .tryStmt := by
  rintro head l symbols ps p - - - ⟨-, h⟩ ha
  obtain ⟨first, x, rest, rfl⟩ : ∃ first x rest, ps = first :: .stmt x :: rest := by
    rcases h rfl with ⟨_, _, rfl, _, _, rfl, ⟨x, rfl, -⟩, _⟩ | ⟨_, _, rfl, _, _, rfl, ⟨x, rfl, -⟩, _⟩ |
      ⟨_, _, rfl, _, _, rfl, ⟨x, rfl, -⟩, _⟩
    all_goals exact ⟨_, x, _, rfl⟩
  change (if _ then _ else _) = Except.ok p at ha
  split at ha
  · cases ha
  · rename_i hsome
    cases ha
    refine Piece.suits_stmt (fun _ => rfl) ?_
    simpa [Node.IsShaped, Bool.and_eq_true, ← Option.isSome_iff_ne_none, imp_iff_not_or] using hsome

/-- Every construct that builds something of its own gives it the right form. -/
theorem forms (hregular : ∀ text x, read text = .ok x → (Node.expr x).Regular) (c : Construct)
    (hc : c ∉ [same, single, appended]) : Forms read c := by
  by_cases hresult : c.result ∈ [.expr, .stmt]
  · cases c with
    | nullLiteral | trueLiteral | falseLiteral | listLiteral | setOrMapLiteral => exact forms_literal _ (by decide)
    | identifier | intLiteral | doubleLiteral => exact forms_token _ (by decide)
    | stringLiteral => exact forms_stringLiteral
    | parenthesized | functionLiteral => exact forms_enclosed _ (by decide)
    | arrowFunction | throwing | conditional | assignment => exact forms_loosest _ (by decide)
    | binary => exact forms_binary
    | unary => exact forms_unary
    | postfixed => exact forms_postfixed
    | property | index => exact forms_received _ (by decide)
    | call => exact forms_call
    | breakStmt | continueStmt | rethrowStmt | emptyStmt | block => exact forms_simple _ (by decide)
    | expressionStmt | returnStmt | doStmt => exact forms_ended _ (by decide)
    | conditionalStmt => exact forms_conditionalStmt
    | whileStmt | forStmt => exact forms_loop _ (by decide)
    | tryStmt => exact forms_tryStmt
    | _ => exact absurd hresult (by decide)
  · exact fun _ _ _ _ _ _ _ _ htakes ha => (c.builds hregular hc htakes ha).suits hresult

end Construct

/-! ### What is read -/

variable {read : String → Except SyntaxError Expr}

/-- What a rule passes on suits its category. -/
private theorem suits_same {head : Category} {symbols : List Symbol} {l : Location} {ps : List Piece} {p : Piece}
    (hlevels : Construct.same.respectsLevels head symbols = true) (hsuits : SuitsAll symbols ps)
    (h : assemble read .same l ps = .ok p) : p.Suits (.cat head) := by
  have hpass {s : Symbol} (hs : (decide (head.level ≤ s.level) && (!head.isClosed || s.isClosed)) = true)
      (hp : p.Suits s) : p.Suits (.cat head) := by
    simp only [Bool.and_eq_true, decide_eq_true_eq, Bool.or_eq_true, Bool.not_eq_true'] at hs
    exact hp.of_le hs.1 (fun hclosed => hs.2.resolve_left (by simp [hclosed]))
  cases hsuits with
  | nil =>
    cases h
    exact ⟨trivial, nofun⟩
  | cons hfirst hrest =>
    cases hrest with
    | nil =>
      cases h
      exact hpass hlevels hfirst
    | cons hsecond hrest =>
      cases hrest with
      | nil =>
        cases h
        exact hpass hlevels hsecond
      | cons _ _ =>
        cases h
        exact ⟨trivial, nofun⟩

/-- A rule of the grammar builds what suits its category from pieces that suit its symbols. -/
theorem Rule.suits (hregular : ∀ text x, read text = .ok x → (Node.expr x).Regular) {r : Rule} (hr : r ∈ Grammar.rules)
    {l : Location} {ps : List Piece} {p : Piece} (hps : FitsAll (r.body.map Symbol.kind) ps)
    (hsuits : SuitsAll r.body ps) (h : assemble read r.construct l ps = .ok p) : p.Suits (.cat r.head) := by
  have hlevels := Grammar.respectsLevels r hr
  have hkinds := Grammar.respectsKinds r hr
  have hfits := Rule.builds hregular hkinds hps h
  have hforms {c : Construct} (hc : c ∉ [.same, .single, .appended]) (h : assemble read c l ps = .ok p)
      (hkinds : (c.result.le r.head.kind &&
        (c.isFree || c.shapes.any (fun shape => matchesShape shape (r.body.map Symbol.kind)))) = true)
      (hlevels : c.respectsLevels r.head r.body = true) : p.Suits (.cat r.head) := by
    rw [Bool.and_eq_true, Bool.or_eq_true] at hkinds
    refine c.forms hregular hc hlevels hsuits hps ⟨hps.sound, fun hfree => ?_⟩ h
    exact hps.oneOf (hkinds.2.resolve_left (by simp [hfree]))
  have hlist {k : Kind} (hk : r.head.kind = .list k) : p.Suits (.cat r.head) := hfits.suits (by simp [hk])
  unfold Rule.respectsKinds at hkinds
  cases hconstruct : r.construct with
  | same =>
    rw [hconstruct] at h hlevels
    exact suits_same hlevels hsuits h
  | single =>
    rw [hconstruct] at hkinds
    dsimp only at hkinds
    split at hkinds
    · exact hlist (eq_of_beq hkinds)
    · cases hkinds
  | appended =>
    rw [hconstruct] at hkinds
    dsimp only at hkinds
    split at hkinds
    · exact hlist (eq_of_beq (Bool.and_eq_true_iff.mp hkinds).1)
    · exact hlist (eq_of_beq (Bool.and_eq_true_iff.mp hkinds).1)
    · cases hkinds
  | _ =>
    rw [hconstruct] at hkinds h hlevels
    exact hforms (by decide) h hkinds hlevels

namespace Derivation

mutual

/-- What is built from a derivation suits the symbol that is derived. -/
theorem build_suits (hregular : ∀ text x, read text = .ok x → (Node.expr x).Regular) {s : Symbol} {d : Derivation}
    (hd : d.Of ruleTable s) (htokens : ∀ t ∈ d.tokens, t.Spelled) {p : Piece} (h : d.build read = .ok p) :
    p.Suits s := by
  cases hd with
  | leaf t =>
    cases h
    exact ⟨trivial, nofun⟩
  | node hr hparts =>
    rename_i r l parts
    simp only [build] at h
    split at h
    · cases h
    · rename_i ps hps
      exact Rule.suits hregular (Grammar.mem_ruleTable.mp hr) (buildAll_fits hregular hparts htokens hps)
        (buildAll_suits hregular hparts htokens hps) h

theorem buildAll_suits (hregular : ∀ text x, read text = .ok x → (Node.expr x).Regular) {symbols : List Symbol}
    {parts : List Derivation} (hparts : AllOf ruleTable symbols parts) (htokens : ∀ t ∈ tokensAll parts, t.Spelled)
    {ps : List Piece} (h : buildAll read parts = .ok ps) : SuitsAll symbols ps := by
  cases hparts with
  | nil =>
    cases h
    exact .nil
  | cons hd hrest =>
    simp only [tokensAll, List.mem_append] at htokens
    simp only [buildAll] at h
    split at h
    · cases h
    · rename_i p hp
      split at h
      · cases h
      · rename_i ps' hps
        cases h
        exact .cons (build_suits hregular hd (fun t ht => htokens t (.inl ht)) hp)
          (buildAll_suits hregular hrest (fun t ht => htokens t (.inr ht)) hps)

end

end Derivation

/-- To be of the right form everywhere is a trait. -/
def shaping : Trait where
  Covers _ := True
  Shape := Node.IsShaped
  Holds n := ∀ m, n.Contains m → m.IsShaped
  make _ hn h m hm := by
    rcases Node.contains_iff.mp hm with rfl | ⟨k, hk, hkm⟩
    · exact hn
    · exact h k hk m hkm
  incidental {n} h := by
    unfold Node.isIncidental at h
    split at h <;> trivial
  receiver h m hm := h m (.of_mem List.mem_cons_self hm)
  parameter _ h m hm := by
    rcases Node.contains_iff.mp hm with rfl | ⟨k, hk, -⟩
    · trivial
    · cases hk

theorem shaping_shapes (depth : Nat) : shaping.Shapes (readExpr depth) := by
  intro r l parts ps p n hr _ hparts htokens hps h hn
  have hregular : ∀ code x, readExpr depth code = .ok x → (Node.expr x).Regular :=
    fun _ _ hx => (readExpr_accepted hx).regular
  have hfits := Derivation.buildAll_fits hregular hparts htokens hps
  exact (Rule.suits hregular hr hfits (Derivation.buildAll_suits hregular hparts htokens hps) h).shaped n hn

theorem shaping_code {x : Expr} (h : shaping.Holds (.expr x)) : shaping.Holds (.part (.code x)) :=
  shaping.make (fun _ hl => nomatch hl) trivial (List.forall_mem_singleton.mpr h)

theorem readExpr_shaped {depth : Nat} {text : String} {x : Expr} (h : readExpr depth text = .ok x) :
    shaping.Holds (.expr x) := by
  induction depth generalizing text x with
  | zero => cases h
  | succ depth ih =>
    exact readExpr_on (fun _ _ _ _ _ _ hx => shaping_code (ih hx)) (shaping_shapes depth) (fun _ _ => trivial) h

theorem shaping_reads (depth : Nat) : shaping.Reads (readExpr depth) :=
  fun _ _ _ _ _ _ hx => shaping_code (readExpr_shaped hx)

/-- Every construct of everything that is read from a text is of the right form, whether the text is a
program, statements or an expression, and also inside the expressions that are embedded in strings. -/
theorem everything_read_is_shaped {text : String} {n m : Node} (h : n.IsReadFrom text) (hm : n.Contains m) :
    m.IsShaped := by
  rcases h.on shaping_reads shaping_shapes (fun _ _ => trivial) with hshaped | rfl
  · exact hshaped m hm
  · -- The empty program has nothing in it.
    rcases Node.contains_iff.mp hm with rfl | ⟨k, hk, -⟩
    · trivial
    · cases hk

end

/-- The empty program, and an expression whose operator chains. -/
theorem everything_read_is_shaped_difference :
    (∃ x, parseUnit "" = .ok x ∧ (Node.stmt x).IsShaped) ∧
    ∃ x, parseExpression "a - b - 1" = .ok x ∧ ∀ m, (Node.expr x).Contains m → m.IsShaped := by
  have hempty : parseUnit "" = .ok (.unit none []) := rfl
  obtain ⟨x, hx⟩ := exists_difference
  exact ⟨⟨_, hempty, everything_read_is_shaped (.program hempty) .self⟩,
    x, hx, fun _ => everything_read_is_shaped (.expression hx)⟩

end Dartlet.Syntax
