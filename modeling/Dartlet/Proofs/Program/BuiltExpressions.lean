import Dartlet.Proofs.Program.BuiltStatements

/-!
# What the constructs of expressions build

Each construct builds a piece of its kind from the pieces that it expects. Assignments and steps check
that they have a place to write to, the spelling of a prefix operator decides which one it is, and the
expressions embedded in strings are read as texts of their own.
-/

namespace Dartlet.Syntax

set_option linter.unusedSectionVars false

/-- The text of an expression that is embedded in a string token. -/
def Token.Embeds (t : Token) (code : String) : Prop := '$' :: '{' :: (code.toList ++ ['}']) <:+: t.text.toList

namespace Quotation

variable {read : String → Except SyntaxError Expr}

theorem regular_text (text : String) : (Node.part (.text text)).Regular :=
  .mk (by rintro f ⟨⟩) (by simp [Node.children])

theorem regular_code {x : Expr} (h : (Node.expr x).Regular) : (Node.part (.code x)).Regular :=
  .mk (by rintro f ⟨⟩) (by simpa [Node.children] using h)

/-- After an embedded expression comes the brace that closes it. -/
theorem isPrefix_of_untilBrace {depth : Nat} {quote : Option Char} {text code : List Char}
    (h : untilBrace depth quote text = some code) : code ++ ['}'] <+: text := by
  fun_induction untilBrace depth quote text generalizing code with
  | case1 | case2 => cases h
  | case7 c rest _ _ hclose =>
    cases h
    simp [eq_of_beq hclose]
  | _ =>
    rename_i ih
    obtain ⟨more, hmore, rfl⟩ := Option.map_eq_some_iff.mp h
    simpa using ih hmore

/-- Without its quotes a literal is a part of its text. -/
theorem isInfix_inside (text : List Char) : inside text <:+: text := by
  unfold inside
  split
  · rename_i a b c rest
    split
    · have hline (xs : List Char) : dropLineEnd xs <:+ xs := by
        unfold dropLineEnd
        split
        · exact List.suffix_append ['\r', '\n'] _
        · exact List.suffix_cons _ _
        · exact List.suffix_rfl
      exact (hline _).isInfix.trans ((List.take_prefix _ _).isInfix.trans (List.suffix_append [a, b, c] rest).isInfix)
    · exact (List.dropLast_prefix _).isInfix.trans (List.suffix_cons _ _).isInfix
  · exact (List.dropLast_prefix _).isInfix.trans (List.suffix_cons _ _).isInfix
  · exact List.infix_rfl

section

-- what all parts have: texts, embedded expressions that are read, and names
variable {P : Part → Prop}

theorem flush_forall (htext : ∀ text, P (.text text)) (pending : Option (List Char)) : ∀ q ∈ flush pending, P q := by
  cases pending <;> simp [flush, htext]

/-- An expression embedded after some text, and what follows it. -/
private theorem embedded_forall (htext : ∀ text, P (.text text)) {x : Expr} {pending : Option (List Char)}
    {rest : Except SyntaxError (List Part)} {found : List Part} (hx : P (.code x))
    (hrest : ∀ {more}, rest = .ok more → ∀ q ∈ more, P q)
    (h : rest.map (fun more => flush pending ++ .code x :: more) = .ok found) : ∀ q ∈ found, P q := by
  cases rest with
  | error e => cases h
  | ok more =>
    cases h
    intro q hq
    rcases List.mem_append.mp hq with hq | hq
    · exact flush_forall htext pending q hq
    · rcases List.mem_cons.mp hq with rfl | hq
      · exact hx
      · exact hrest rfl q hq

/-- What is read of the expressions that are embedded in a text. -/
private def AllEmbedded (read : String → Except SyntaxError Expr) (P : Part → Prop) (text : List Char) : Prop :=
  ∀ code x, '$' :: '{' :: (code ++ ['}']) <:+: text → read (String.ofList code) = .ok x → P (.code x)

private theorem AllEmbedded.mono {text rest : List Char} (h : AllEmbedded read P text) (hrest : rest <:+: text) :
    AllEmbedded read P rest :=
  fun code x hcode => h code x (hcode.trans hrest)

private theorem parts_forall (htext : ∀ text, P (.text text)) {l : Location} (hname : ∀ name, P (.code (.identifier l name)))
    {limit : Nat} {pending : Option (List Char)} {text : List Char} (hread : AllEmbedded read P text)
    {found : List Part} (h : parts read l limit pending text = .ok found) : ∀ q ∈ found, P q := by
  have hdrop (c : Char) (rest : List Char) (n : Nat) : rest.drop n <:+: c :: rest :=
    ((List.drop_suffix _ _).trans (List.suffix_cons _ _)).isInfix
  fun_induction parts read l limit pending text generalizing found with
  | case1 _ pending | case2 pending =>
    cases h
    exact flush_forall htext pending
  | case3 | case5 | case6 | case8 | case10 => cases h
  | case4 _ _ _ _ _ _ ih => exact ih (hread.mono (hdrop _ _ _)) h
  | case7 _ _ rest code hcode x hx ih =>
    have hembedded : '$' :: '{' :: (code ++ ['}']) <:+: '$' :: '{' :: rest := by
      simpa using (List.prefix_cons_inj '$').mpr ((List.prefix_cons_inj '{').mpr (isPrefix_of_untilBrace hcode)) |>.isInfix
    have hrest := (hdrop '{' rest (code.length + 1)).trans (List.suffix_cons '$' _).isInfix
    exact embedded_forall htext (hread code x hembedded hx) (ih (hread.mono hrest)) h
  | case9 =>
    rename_i ih
    exact embedded_forall htext (hname _) (ih (hread.mono (hdrop _ _ _))) h
  | case11 _ _ _ _ _ _ _ ih => exact ih (hread.mono (List.suffix_cons _ _).isInfix) h

theorem ofToken_forall (htext : ∀ text, P (.text text)) {t : Token}
    (hread : ∀ code x, t.Embeds code → read code = .ok x → P (.code x))
    (hname : ∀ name, P (.code (.identifier (some t.position) name))) {found : List Part}
    (h : ofToken read t = .ok found) : ∀ q ∈ found, P q := by
  unfold ofToken at h
  split at h
  · cases h
    simp [htext]
  · refine parts_forall htext hname (fun code x hcode hx => hread _ x ?_ hx) h
    simpa [Token.Embeds] using hcode.trans (isInfix_inside _)

theorem joinTexts_forall (htext : ∀ text, P (.text text)) {ps : List Part} (h : ∀ q ∈ ps, P q) :
    ∀ q ∈ joinTexts ps, P q := by
  fun_induction joinTexts ps with
  | case1 a rest b more hjoin ih =>
    have hrest := ih (fun q hq => h q (List.mem_cons_of_mem _ hq))
    rw [hjoin] at hrest
    exact List.forall_mem_cons.mpr ⟨htext _, fun q hq => hrest q (List.mem_cons_of_mem _ hq)⟩
  | case2 a rest _ ih =>
    exact List.forall_mem_cons.mpr ⟨htext _, ih (fun q hq => h q (List.mem_cons_of_mem _ hq))⟩
  | case3 part rest _ ih =>
    exact List.forall_mem_cons.mpr ⟨h part List.mem_cons_self, ih (fun q hq => h q (List.mem_cons_of_mem _ hq))⟩
  | case4 => exact h

theorem mapM_forall (htext : ∀ text, P (.text text)) {ts : List Token}
    (hread : ∀ t ∈ ts, ∀ code x, t.Embeds code → read code = .ok x → P (.code x))
    (hname : ∀ t ∈ ts, ∀ name, P (.code (.identifier (some t.position) name)))
    {found : List (List Part)} (h : ts.mapM (ofToken read) = .ok found) : ∀ q ∈ found.flatten, P q := by
  induction ts generalizing found with
  | nil =>
    cases h
    simp
  | cons t ts ih =>
    obtain ⟨hread, hreads⟩ := List.forall_mem_cons.mp hread
    obtain ⟨hname, hnames⟩ := List.forall_mem_cons.mp hname
    rw [List.mapM_cons] at h
    cases ht : ofToken read t with
    | error e => simp [ht, bind, Except.bind] at h
    | ok first =>
      cases hts : ts.mapM (ofToken read) with
      | error e => simp [ht, hts, bind, Except.bind] at h
      | ok rest =>
        obtain rfl : first :: rest = found := by simpa [ht, hts, bind, Except.bind, pure, Except.pure] using h
        rw [List.flatten_cons]
        exact fun q hq => (List.mem_append.mp hq).elim (ofToken_forall htext hread hname ht q) (ih hreads hnames hts q)

/-- A string literal is a text or consists of parts. -/
theorem literal_cases (htext : ∀ text, P (.text text)) {ts : List Token}
    (hread : ∀ t ∈ ts, ∀ code x, t.Embeds code → read code = .ok x → P (.code x))
    (hname : ∀ t ∈ ts, ∀ name, P (.code (.identifier (some t.position) name))) {l : Location} {x : Expr}
    (h : literal read l ts = .ok x) :
    (∃ text, x = .stringLiteral l text) ∨ ∃ ps, x = .interpolation l ps ∧ ∀ q ∈ ps, P q := by
  unfold literal at h
  split at h
  · cases h
  · rename_i found hfound
    simp only at h
    split at h
    · cases h
      exact .inl ⟨_, rfl⟩
    · cases h
      exact .inr ⟨_, rfl, joinTexts_forall htext (mapM_forall htext hread hname hfound)⟩

end

theorem literal_regular (hread : ∀ text x, read text = .ok x → (Node.expr x).Regular) {l : Location} {ts : List Token}
    {x : Expr} (h : literal read l ts = .ok x) : (Node.expr x).Regular := by
  have hname (t : Token) (_ : t ∈ ts) (name : String) : (Node.part (.code (.identifier (some t.position) name))).Regular :=
    regular_code (.mk (by rintro f ⟨⟩) (by simp [Node.children, Expr.children]))
  have hembedded (t : Token) (_ : t ∈ ts) (text : String) (x : Expr) (_ : t.Embeds text) (hx : read text = .ok x) :
      (Node.part (.code x)).Regular :=
    regular_code (hread text x hx)
  rcases literal_cases (P := fun q => (Node.part q).Regular) regular_text hembedded hname h with
    ⟨text, rfl⟩ | ⟨ps, rfl, hps⟩
  · exact .mk (by rintro f ⟨⟩) (by simp [Node.children, Expr.children])
  · exact .mk (by rintro f ⟨⟩) (by simpa [Node.children, Expr.children] using hps)

end Quotation

theorem requirePlace_ok {target result : Expr} {l : Location} {flaw : Flaw} {p : Piece}
    (h : requirePlace target l flaw result = .ok p) : target.isPlace = true ∧ p = .expr result := by
  unfold requirePlace at h
  split at h
  · rename_i hplace
    cases h
    exact ⟨hplace, rfl⟩
  · cases h

variable [Host]

theorem integerLiteral_ok {text : String} {l : Location} {p : Piece} (h : integerLiteral text l = .ok p) :
    Host.refusesNumeral text.toList = false ∧ p = .expr (.intLiteral l (integerValue text)) := by
  unfold integerLiteral at h
  split at h
  · cases h
  · rename_i hread
    cases h
    exact ⟨by simpa using hread, rfl⟩

/-- A prefix operator that writes to its operand has a place there. -/
theorem unary_ok {read : String → Except SyntaxError Expr} {l : Location} {t : Token} {x : Expr} {p : Piece}
    (h : assemble read .unary l [.token t, .expr x] = .ok p) :
    ((UnaryOp.ofSpelling t.text).isStep = true → x.isPlace = true) ∧ p = .expr (.unary l (.ofSpelling t.text) x) := by
  change (if (UnaryOp.ofSpelling t.text).isStep then _ else _) = Except.ok p at h
  split at h
  · obtain ⟨hplace, rfl⟩ := requirePlace_ok h
    exact ⟨fun _ => hplace, rfl⟩
  · rename_i hstep
    cases h
    exact ⟨fun h => absurd h hstep, rfl⟩

/-- The tokens of prefix operators spell operators of the language. -/
theorem Token.Spelled.unary {t : Token} (h : t.Spelled) (ht : t.terminal ∈ [.minus, .bang, .inc, .dec])
    (spelling : String) : UnaryOp.ofSpelling t.text ≠ .other spelling := by
  obtain ⟨terminal, text, position⟩ := t
  simp only [List.mem_cons, List.not_mem_nil, or_false] at ht
  rcases ht with rfl | rfl | rfl | rfl
  all_goals
    have hmem := h (by simp [Terminal.symbols])
    simp only [Terminal.symbols, List.mem_cons, Prod.mk.injEq, reduceCtorEq, and_false, and_true, false_or,
      List.not_mem_nil, or_false] at hmem
    subst hmem
    simp [UnaryOp.ofSpelling]

namespace Construct

variable {read : String → Except SyntaxError Expr}

theorem builds_arrowFunction : Builds read .arrowFunction := by
  rintro l ps p ⟨-, h⟩ ha
  obtain ⟨_, _, rfl, ⟨qs, rfl, hqs⟩, _, _, rfl, _, _, rfl, ⟨x, rfl, hx⟩, rfl⟩ := h rfl
  cases ha
  have hknown := AllSound.parameters (fun q hq => (hqs q hq).sound)
  exact ⟨_, rfl, Expr.regular_functionLiteral hknown (FunctionBody.regular_expression hx)⟩

theorem builds_functionLiteral : Builds read .functionLiteral := by
  rintro l ps p ⟨-, h⟩ ha
  obtain ⟨_, _, rfl, ⟨qs, rfl, hqs⟩, _, _, rfl, ⟨x, rfl, hx⟩, rfl⟩ := h rfl
  cases ha
  have hknown := AllSound.parameters (fun q hq => (hqs q hq).sound)
  exact ⟨_, rfl, Expr.regular_functionLiteral hknown (FunctionBody.regular_block hx)⟩

theorem builds_throwing : Builds read .throwing := by
  rintro l ps p ⟨-, h⟩ ha
  obtain ⟨_, _, rfl, _, _, rfl, ⟨x, rfl, hx⟩, rfl⟩ := h rfl
  cases ha
  exact ⟨_, rfl, .mk (by rintro f ⟨⟩) (by simpa [Node.children, Expr.children] using hx)⟩

theorem builds_assignment : Builds read .assignment := by
  rintro l ps p ⟨-, h⟩ ha
  obtain ⟨_, _, rfl, ⟨x, rfl, hx⟩, _, _, rfl, ⟨t, rfl, -⟩, _, _, rfl, ⟨y, rfl, hy⟩, rfl⟩ := h rfl
  obtain ⟨hplace, rfl⟩ := requirePlace_ok ha
  refine ⟨_, rfl, .mk ?_ (by simpa [Node.children, Expr.children] using ⟨hx, hy⟩)⟩
  rintro f ⟨⟩
  simp_all

theorem builds_conditional : Builds read .conditional := by
  rintro l ps p ⟨-, h⟩ ha
  obtain ⟨_, _, rfl, ⟨x, rfl, hx⟩, _, _, rfl, _, _, rfl, ⟨y, rfl, hy⟩, _, _, rfl, _, _, rfl, ⟨z, rfl, hz⟩, rfl⟩ := h rfl
  cases ha
  exact ⟨_, rfl, .mk (by rintro f ⟨⟩) (by simpa [Node.children, Expr.children] using ⟨hx, hy, hz⟩)⟩

theorem builds_binary : Builds read .binary := by
  rintro l ps p ⟨-, h⟩ ha
  obtain ⟨_, _, rfl, ⟨x, rfl, hx⟩, _, _, rfl, ⟨t, rfl, -⟩, _, _, rfl, ⟨y, rfl, hy⟩, rfl⟩ := h rfl
  cases ha
  exact ⟨_, rfl, .mk (by rintro f ⟨⟩) (by simpa [Node.children, Expr.children] using ⟨hx, hy⟩)⟩

theorem builds_unary : Builds read .unary := by
  rintro l ps p ⟨-, h⟩ ha
  obtain ⟨_, _, rfl, ⟨t, rfl, ht, hspelled⟩, _, _, rfl, ⟨x, rfl, hx⟩, rfl⟩ := h rfl
  have hknown := hspelled.unary ht
  obtain ⟨hplace, rfl⟩ := unary_ok ha
  refine ⟨_, rfl, .mk ?_ (by simpa [Node.children, Expr.children] using hx)⟩
  generalize UnaryOp.ofSpelling t.text = op at hknown hplace
  intro f hf
  cases hf with
  | operator _ spelling _ => exact absurd rfl (hknown spelling)
  | stepped _ _ _ hstep hno => simp [hplace hstep] at hno

theorem builds_postfixed : Builds read .postfixed := by
  rintro l ps p ⟨-, h⟩ ha
  obtain ⟨_, _, rfl, ⟨x, rfl, hx⟩, _, _, rfl, ⟨t, rfl, -⟩, rfl⟩ := h rfl
  obtain ⟨hplace, rfl⟩ := requirePlace_ok ha
  refine ⟨_, rfl, .mk ?_ (by simpa [Node.children, Expr.children] using hx)⟩
  rintro f ⟨⟩
  simp_all

theorem builds_property : Builds read .property := by
  rintro l ps p ⟨-, h⟩ ha
  obtain ⟨_, _, rfl, ⟨x, rfl, hx⟩, _, _, rfl, _, _, rfl, ⟨t, rfl, -⟩, rfl⟩ := h rfl
  cases ha
  exact ⟨_, rfl, .mk (by rintro f ⟨⟩) (by simpa [Node.children, Expr.children] using hx)⟩

theorem builds_call : Builds read .call := by
  rintro l ps p ⟨-, h⟩ ha
  obtain ⟨_, _, rfl, ⟨x, rfl, hx⟩, _, _, rfl, ⟨qs, rfl, hqs⟩, rfl⟩ := h rfl
  cases ha
  have harguments := (AllSound.nodes (fun q hq => (hqs q hq).sound)).arguments
  refine ⟨_, rfl, ?_⟩
  unfold callOf
  split
  · exact .mk (by rintro f ⟨⟩)
      (List.forall_mem_cons.mpr ⟨hx.part (by simp [Node.children, Expr.children]), harguments⟩)
  · exact .mk (by rintro f ⟨⟩) (List.forall_mem_cons.mpr ⟨hx, harguments⟩)

theorem builds_index : Builds read .index := by
  rintro l ps p ⟨-, h⟩ ha
  obtain ⟨_, _, rfl, ⟨x, rfl, hx⟩, _, _, rfl, _, _, rfl, ⟨y, rfl, hy⟩, _, _, rfl, rfl⟩ := h rfl
  cases ha
  exact ⟨_, rfl, .mk (by rintro f ⟨⟩) (by simpa [Node.children, Expr.children] using ⟨hx, hy⟩)⟩

theorem builds_positional : Builds read .positional := by
  rintro l ps p ⟨-, h⟩ ha
  obtain ⟨_, _, rfl, ⟨x, rfl, hx⟩, rfl⟩ := h rfl
  cases ha
  exact ⟨_, rfl, .mk (by rintro f ⟨⟩) (by simpa [Node.children] using hx)⟩

theorem builds_named : Builds read .named := by
  rintro l ps p ⟨-, h⟩ ha
  obtain ⟨_, _, rfl, ⟨t, rfl, -⟩, _, _, rfl, _, _, rfl, ⟨x, rfl, hx⟩, rfl⟩ := h rfl
  cases ha
  exact ⟨_, rfl, .mk (by rintro f ⟨⟩; rfl) (by simpa [Node.children] using hx)⟩

theorem builds_identifier : Builds read .identifier := by
  rintro l ps p ⟨-, h⟩ ha
  obtain ⟨_, _, rfl, ⟨t, rfl, -⟩, rfl⟩ := h rfl
  cases ha
  exact ⟨_, rfl, .mk (by rintro f ⟨⟩) (by simp [Node.children, Expr.children])⟩

theorem builds_parenthesized : Builds read .parenthesized := by
  rintro l ps p ⟨-, h⟩ ha
  obtain ⟨_, _, rfl, _, _, rfl, ⟨x, rfl, hx⟩, _, _, rfl, rfl⟩ := h rfl
  cases ha
  exact ⟨_, rfl, .mk (by rintro f ⟨⟩) (by simpa [Node.children, Expr.children] using hx)⟩

theorem builds_intLiteral : Builds read .intLiteral := by
  rintro l ps p ⟨-, h⟩ ha
  obtain ⟨_, _, rfl, ⟨t, rfl, -⟩, rfl⟩ := h rfl
  obtain ⟨-, rfl⟩ := integerLiteral_ok ha
  exact ⟨_, rfl, .mk (by rintro f ⟨⟩) (by simp [Node.children, Expr.children])⟩

theorem builds_doubleLiteral : Builds read .doubleLiteral := by
  rintro l ps p ⟨-, h⟩ ha
  obtain ⟨_, _, rfl, ⟨t, rfl, -⟩, rfl⟩ := h rfl
  cases ha
  exact ⟨_, rfl, .mk (by rintro f ⟨⟩) (by simp [Node.children, Expr.children])⟩

theorem builds_stringLiteral (hread : ∀ text x, read text = .ok x → (Node.expr x).Regular) :
    Builds read .stringLiteral := by
  rintro l ps p ⟨-, h⟩ ha
  obtain ⟨_, _, rfl, ⟨qs, rfl, -⟩, rfl⟩ := h rfl
  change (Quotation.literal read l (qs.filterMap Piece.token?)).map Piece.expr = .ok p at ha
  cases hliteral : Quotation.literal read l (qs.filterMap Piece.token?) with
  | error e => simp [hliteral, Except.map] at ha
  | ok x =>
    obtain rfl : .expr x = p := by simpa [hliteral, Except.map] using ha
    exact ⟨x, rfl, Quotation.literal_regular hread hliteral⟩

/-- The constructs of expressions, which take what they are given. -/
theorem builds_literal : ∀ c ∈ [arguments, nullLiteral, trueLiteral, falseLiteral, listLiteral, setOrMapLiteral],
    Builds read c := by
  simp only [List.forall_mem_cons, List.not_mem_nil, false_implies, implies_true, and_true]
  refine ⟨?_, ?_, ?_, ?_, ?_, ?_⟩ <;> rintro l ps p ⟨hsound, -⟩ ⟨⟩
  · exact ⟨_, rfl, hsound.flatten.argument_pieces⟩
  · exact ⟨_, rfl, .mk (by rintro f ⟨⟩) (by simp [Node.children, Expr.children])⟩
  · exact ⟨_, rfl, .mk (by rintro f ⟨⟩) (by simp [Node.children, Expr.children])⟩
  · exact ⟨_, rfl, .mk (by rintro f ⟨⟩) (by simp [Node.children, Expr.children])⟩
  · exact ⟨_, rfl, .mk (by rintro f ⟨⟩) hsound.flatten.nodes.elements⟩
  · exact ⟨_, rfl, .mk (by rintro f ⟨⟩) hsound.flatten.nodes.elements⟩

theorem builds_plainElement : Builds read .plainElement := by
  rintro l ps p ⟨-, h⟩ ha
  obtain ⟨_, _, rfl, ⟨x, rfl, hx⟩, rfl⟩ := h rfl
  cases ha
  exact ⟨_, rfl, .mk (by rintro f ⟨⟩) (by simpa [Node.children, Element.children] using hx)⟩

theorem builds_mapEntry : Builds read .mapEntry := by
  rintro l ps p ⟨-, h⟩ ha
  rcases h rfl with ⟨_, _, rfl, ⟨x, rfl, hx⟩, _, _, rfl, ⟨t, rfl, -⟩, _, _, rfl, ⟨y, rfl, hy⟩, rfl⟩ |
    ⟨_, _, rfl, ⟨q, rfl, -⟩, _, _, rfl, ⟨x, rfl, hx⟩, _, _, rfl, ⟨t, rfl, -⟩, _, _, rfl, ⟨y, rfl, hy⟩, rfl⟩ |
    ⟨_, _, rfl, ⟨x, rfl, hx⟩, _, _, rfl, ⟨t, rfl, -⟩, _, _, rfl, ⟨q, rfl, -⟩, _, _, rfl, ⟨y, rfl, hy⟩, rfl⟩ |
    ⟨_, _, rfl, ⟨q, rfl, -⟩, _, _, rfl, ⟨x, rfl, hx⟩, _, _, rfl, ⟨t, rfl, -⟩, _, _, rfl, ⟨q', rfl, -⟩, _, _, rfl,
      ⟨y, rfl, hy⟩, rfl⟩
  all_goals
    cases ha
    exact ⟨_, rfl, .mk (by rintro f ⟨⟩) (by simpa [Node.children, Element.children] using ⟨hx, hy⟩)⟩

/-- The elements with a mark in front. -/
theorem builds_marked : ∀ c ∈ [spread, nullAwareSpread, nullAwareElement], Builds read c := by
  simp only [List.forall_mem_cons, List.not_mem_nil, false_implies, implies_true, and_true]
  refine ⟨?_, ?_, ?_⟩
  all_goals
    rintro l ps p ⟨-, h⟩ ha
    obtain ⟨_, _, rfl, _, _, rfl, ⟨x, rfl, hx⟩, rfl⟩ := h rfl
    cases ha
    exact ⟨_, rfl, .mk (by rintro f ⟨⟩) (by simpa [Node.children, Element.children] using hx)⟩

theorem builds_elementIf : Builds read .elementIf := by
  rintro l ps p ⟨-, h⟩ ha
  rcases h rfl with
    ⟨_, _, rfl, _, _, rfl, _, _, rfl, ⟨x, rfl, hx⟩, _, _, rfl, _, _, rfl, ⟨t, rfl, ht⟩, rfl⟩ |
    ⟨_, _, rfl, _, _, rfl, _, _, rfl, ⟨x, rfl, hx⟩, _, _, rfl, _, _, rfl, ⟨t, rfl, ht⟩, _, _, rfl, _, _, rfl,
      ⟨e, rfl, he⟩, rfl⟩
  · cases ha
    exact ⟨_, rfl, .mk (by rintro f ⟨⟩) (by simpa [Node.children, Element.children] using ⟨hx, ht⟩)⟩
  · cases ha
    exact ⟨_, rfl, .mk (by rintro f ⟨⟩) (by simpa [Node.children, Element.children] using ⟨hx, ht, he⟩)⟩

theorem builds_elementFor : Builds read .elementFor := by
  rintro l ps p ⟨-, h⟩ ha
  obtain ⟨_, _, rfl, _, _, rfl, _, _, rfl, ⟨header, rfl, hheader⟩, _, _, rfl, _, _, rfl, ⟨x, rfl, hx⟩, rfl⟩ := h rfl
  cases ha
  have hempty : (Node.stmt (.empty l)).Regular := .mk (by rintro f ⟨⟩) (by simp [Node.children, Stmt.children])
  refine ⟨_, rfl, .mk (by rintro f ⟨⟩; rfl) ?_⟩
  simpa [Node.children, Element.children] using ⟨hheader l _ hempty, hx⟩

end Construct
end Dartlet.Syntax
