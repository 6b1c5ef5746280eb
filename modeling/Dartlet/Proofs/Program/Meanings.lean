import Dartlet.Proofs.Grammar.Table
import Dartlet.Proofs.Program.Jumps
import Dartlet.Proofs.Program.Printing
import Dartlet.Proofs.Program.Readings

/-!
# What derivations of operator words build

In a derivation whose tokens all occur in operator expressions, most rules of the grammar have no place. The
others build what the words form: an expression where they form one, and a list of arguments from a row.
-/

namespace Dartlet.Syntax

open Grammar (mem_ruleTable)

set_option linter.unusedSectionVars false
set_option maxRecDepth 1000

/-! ### Rules without a place -/

/-- Categories of which every sentence has a terminal that is in no operator expression. -/
def foreignCategories : List Category := [.assignOp, .stepOp, .block, .strings, .setOrMapLiteral]

/-- Whether a symbol brings a terminal that is in no operator expression. -/
def Symbol.isForeign : Symbol → Bool
  | .tok t => !t.isOperand
  | .cat c => foreignCategories.contains c

/-- Whether a rule brings a terminal that is in no operator expression. -/
def Rule.isForeign (r : Rule) : Bool := r.body.any Symbol.isForeign

theorem isForeign_of_head : ∀ r ∈ Grammar.rules, foreignCategories.contains r.head = true → r.isForeign = true := by
  decide

namespace Derivation

/-- The words that a derivation covers. -/
def words (d : Derivation) : List Word := d.tokens.map Token.word

/-- Whether all tokens of a derivation are in operator expressions. -/
def IsOperand [Host] (tokens : List Token) : Prop := ∀ t ∈ tokens, t.Spelled ∧ t.word.IsOperand

theorem not_isForeign_all [Host] {symbols : List Symbol} {parts : List Derivation} (hparts : AllOf ruleTable symbols parts)
    (htokens : IsOperand (tokensAll parts)) : ∀ s ∈ symbols, s.isForeign = false := by
  have hforeign : ruleTable.Marks Symbol.isForeign := fun r hr => isForeign_of_head r (mem_ruleTable.mp hr)
  refine hparts.not_marked hforeign (fun t ht => ?_)
  have hoperand : t.terminal.isOperand = true := (htokens t ht).2.terminal
  simp [Symbol.isForeign, hoperand]

end Derivation

/-! ### What symbols stand for -/

/-- An expression that was built agrees with one without positions, and has no jumps without a target. -/
structure Expr.Agrees (e x : Expr) : Prop where
  bare : x.bare = e
  jumps : ∀ c, x.jumpError c = none

/-- Arguments that were built agree with positional ones without positions. -/
structure ArgumentsAgree (es : List Expr) (as : List Argument) : Prop where
  bare : bareArguments as = es.map .positional
  jumps : ∀ c, jumpErrorArguments c as = none

theorem ArgumentsAgree.append {es fs : List Expr} {as bs : List Argument} (h : ArgumentsAgree es as)
    (h' : ArgumentsAgree fs bs) : ArgumentsAgree (es ++ fs) (as ++ bs) := by
  have hbare (as bs : List Argument) : bareArguments (as ++ bs) = bareArguments as ++ bareArguments bs := by
    induction as with
    | nil => rfl
    | cons a as ih => cases a <;> exact congrArg (List.cons _) ih
  refine ⟨by rw [hbare, h.bare, h'.bare, List.map_append], fun c => ?_⟩
  rw [jumpErrorArguments_eq_none, List.map_append, List.forall_mem_append]
  exact ⟨(jumpErrorArguments_eq_none c as).mp (h.jumps c), (jumpErrorArguments_eq_none c bs).mp (h'.jumps c)⟩

/-! What is made of expressions that agree agrees. -/

namespace Expr.Agrees

variable {e f g x y z : Expr} {es : List Expr} {as : List Argument} (l : Location)

theorem parenthesized (hx : e.Agrees x) : (Expr.parenthesized none e).Agrees (.parenthesized l x) :=
  ⟨congrArg (Expr.parenthesized none) hx.bare, hx.jumps⟩

theorem unary (op : UnaryOp) (hx : e.Agrees x) : (Expr.unary none op e).Agrees (.unary l op x) :=
  ⟨congrArg (Expr.unary none op) hx.bare, hx.jumps⟩

theorem property (hx : e.Agrees x) (name : String) : (Expr.property none e name).Agrees (.property l x name) :=
  ⟨congrArg (Expr.property none · name) hx.bare, hx.jumps⟩

theorem binary (op : BinaryOp) (hx : e.Agrees x) (hy : f.Agrees y) : (Expr.binary none op e f).Agrees (.binary l op x y) :=
  ⟨congrArg₂ (Expr.binary none op) hx.bare hy.bare, fun c => firstError_eq_none.mpr ⟨hx.jumps c, hy.jumps c⟩⟩

theorem index (hx : e.Agrees x) (hy : f.Agrees y) : (Expr.index none e f).Agrees (.index l x y) :=
  ⟨congrArg₂ (Expr.index none) hx.bare hy.bare, fun c => firstError_eq_none.mpr ⟨hx.jumps c, hy.jumps c⟩⟩

theorem conditional (hx : e.Agrees x) (hy : f.Agrees y) (hz : g.Agrees z) :
    (Expr.conditional none e f g).Agrees (.conditional l x y z) := by
  refine ⟨?_, fun c => firstError_eq_none.mpr ⟨hx.jumps c, firstError_eq_none.mpr ⟨hy.jumps c, hz.jumps c⟩⟩⟩
  rw [← hx.bare, ← hy.bare, ← hz.bare]
  rfl

theorem call (hx : e.Agrees x) (has : ArgumentsAgree es as) :
    (Expr.call none e (es.map .positional)).Agrees (.call l x as) :=
  ⟨congrArg₂ (Expr.call none) hx.bare has.bare, fun c => firstError_eq_none.mpr ⟨hx.jumps c, has.jumps c⟩⟩

theorem methodCall (hx : e.Agrees x) (name : String) (has : ArgumentsAgree es as) :
    (Expr.methodCall none e name (es.map .positional)).Agrees (.methodCall l x name as) :=
  ⟨congrArg₂ (Expr.methodCall none · name) hx.bare has.bare, fun c => firstError_eq_none.mpr ⟨hx.jumps c, has.jumps c⟩⟩

end Expr.Agrees

/-- A slot in which an expression is formed by its words. -/
def Slot.IsFormed : Slot → Prop
  | .filled ws x => Forms 0 ws x
  | .named .. => True

/-- Words that are a row of slots, also with further slots after a comma. -/
structure IsRow (slots : List Slot) (ws : List Word) : Prop where
  row : Row slots ws
  more : ∀ {others : List Slot} {vs : List Word} (comma : String), Row others vs →
    Row (slots ++ others) (ws ++ ⟨.comma, comma⟩ :: vs)

theorem Slot.mapM_value_appended {slots : List Slot} {slot : Slot} {es : List Expr}
    (h : (slots ++ [slot]).mapM value = some es) :
    ∃ fs e, slots.mapM value = some fs ∧ slot.value = some e ∧ es = fs ++ [e] := by
  simp only [List.mapM_append, List.mapM_cons, List.mapM_nil, Option.bind_eq_bind, Option.bind_eq_some_iff] at h
  obtain ⟨fs, hfs, _, ⟨e, he, _, ⟨⟩, ⟨⟩⟩, ⟨⟩⟩ := h
  exact ⟨fs, e, hfs, he, rfl⟩

theorem IsRow.single (slot : Slot) : IsRow [slot] slot.words :=
  ⟨.last slot, fun comma h => .more slot comma h⟩

theorem IsRow.appended {slots : List Slot} {ws : List Word} (h : IsRow slots ws) (comma : String) (slot : Slot) :
    IsRow (slots ++ [slot]) (ws ++ ⟨.comma, comma⟩ :: slot.words) where
  row := h.more comma (.last slot)
  more comma' hrow := by simpa using h.more comma (.more slot comma' hrow)

/-- Words that form an expression of some level, and that expression was built. -/
def Yielded (level : Nat) (ws : List Word) (built : Except SyntaxError Piece) : Prop :=
  ∃ x, Forms level ws x ∧ ∀ e, x = some e → ∃ y, built = .ok (.expr y) ∧ e.Agrees y

theorem Yielded.lower_le {level m : Nat} {ws : List Word} {built : Except SyntaxError Piece}
    (h : Yielded m ws built) (hm : m ≤ postfixLevel) (hle : level ≤ m) : Yielded level ws built := by
  obtain ⟨x, hx, hbuilt⟩ := h
  exact ⟨x, hx.lower_le hm hle, hbuilt⟩

variable [Host]

/-- What a symbol stands for in a derivation of operator words. -/
structure Symbol.Yields (s : Symbol) (ws : List Word) (built : Except SyntaxError Piece) : Prop where
  token : ∀ ts, s.kind = .token ts →
    ∃ t, ws = [t.word] ∧ built = .ok (.token t) ∧ t.terminal ∈ ts ∧ t.Spelled ∧ t.word.IsOperand
  expr : s.kind = .expr → Yielded s.level ws built
  argument : s = .cat .argument → ∃ slot : Slot, slot.IsFormed ∧ slot.words = ws ∧
    ∀ e, slot.value = some e → ∃ a, built = .ok (.argument a) ∧ ArgumentsAgree [e] [a]
  list : s = .cat .argumentList → ∃ slots : List Slot, (∀ slot ∈ slots, slot.IsFormed) ∧ IsRow slots ws ∧
    ∀ es, slots.mapM Slot.value = some es → ∃ as, built = .ok (.many (as.map .argument)) ∧ ArgumentsAgree es as
  arguments : s = .cat .arguments → ∃ (slots : List Slot) (vs : List Word) (a b : String),
    (∀ slot ∈ slots, slot.IsFormed) ∧ Row slots vs ∧ ws = ⟨.leftParen, a⟩ :: (vs ++ [⟨.rightParen, b⟩]) ∧
    ∀ es, slots.mapM Slot.value = some es → ∃ as, built = .ok (.many (as.map .argument)) ∧ ArgumentsAgree es as
  types : s = .cat .typeArguments → ∃ w rest, ws = w :: rest ∧ w.terminal = .lt

variable {read : String → Except SyntaxError Expr}

/-- Parts of a derivation that yield what their symbols stand for. -/
abbrev PartsYield (read : String → Except SyntaxError Expr) : List Symbol → List Derivation → Prop :=
  List.Forall₂ (fun s d => s.Yields d.words (d.build read))

namespace Derivation

theorem words_node (r : Rule) (l : Location) (parts : List Derivation) :
    (node r l parts).words = parts.flatMap words := by
  have h (parts : List Derivation) : (tokensAll parts).map Token.word = parts.flatMap words := by
    induction parts with
    | nil => rfl
    | cons d parts ih => rw [tokensAll, List.map_append, ih, List.flatMap_cons, words]
  rw [words, tokens, h]

theorem build_node {r : Rule} {l : Location} {parts : List Derivation} {ps : List Piece}
    (h : List.Forall₂ (fun d p => d.build read = .ok p) parts ps) :
    (node r l parts).build read = assemble read r.construct l ps := by
  have hall : buildAll read parts = .ok ps := by
    induction h with
    | nil => rfl
    | cons hd _ ih => simp only [buildAll, hd, ih]
  simp only [build, hall]

end Derivation

namespace Symbol.Yields

variable {ws : List Word} {built : Except SyntaxError Piece}

theorem of_tok {t : Terminal} (h : (Symbol.tok t).Yields ws built) :
    ∃ text position, ws = [⟨t, text⟩] ∧ built = .ok (.token ⟨t, text, position⟩) := by
  obtain ⟨⟨_, text, position⟩, rfl, rfl, hterminal, -⟩ := h.token [t] rfl
  obtain rfl := List.mem_singleton.mp hterminal
  exact ⟨text, position, rfl, rfl⟩

theorem leaf {t : Token} (hspelled : t.Spelled) (hoperand : t.word.IsOperand) :
    (Symbol.tok t.terminal).Yields [t.word] (.ok (.token t)) where
  token ts hts := by
    cases hts
    exact ⟨t, rfl, rfl, List.mem_singleton_self _, hspelled, hoperand⟩
  expr h := nomatch h
  argument h := nomatch h
  list h := nomatch h
  arguments h := nomatch h
  types h := nomatch h

end Symbol.Yields

/-! ### What rules build -/

/-- The rules of expressions that have a place among operator words. -/
def Rule.isPlain (r : Rule) : Bool :=
  match r.construct, r.body with
  | .same, [.cat x] => x.kind == .expr
  | .conditional, [.cat x, .tok .question, .cat y, .tok .colon, .cat z] =>
    [x, y, z].all (fun c => c.kind == .expr) && decide (BinaryOp.or.level ≤ x.level)
  | .binary, [.cat x, s, .cat y] =>
    x.kind == .expr && y.kind == .expr && s.kind.le (.token Construct.binaryTerminals)
  | .unary, [.cat .unaryOp, .cat x] => x.kind == .expr
  | .property, [.cat x, .tok .dot, .tok .identifier] => x.kind == .expr
  | .index, [.cat x, .tok .leftBracket, .cat key, .tok .rightBracket] => x.kind == .expr && key.kind == .expr
  | .call, [.cat x, .cat .arguments] => x.kind == .expr
  | .identifier, [.tok .identifier] => true
  | .intLiteral, [.tok .integer] => true
  | .parenthesized, [.tok .leftParen, .cat x, .tok .rightParen] => x.kind == .expr
  | .listLiteral, .tok .leftBracket :: _ => true
  | .listLiteral, .cat .typeArguments :: _ => true
  | _, _ => false

theorem isPlain_of_head : ∀ r ∈ Grammar.rules, r.head.kind = .expr → r.isForeign = false → r.isPlain = true := by
  decide

section Rules

variable {r : Rule} {l : Location} {parts : List Derivation} {x y z : Category}

theorem yields_conditional (hr : r.construct = .conditional) (hx : x.kind = .expr) (hy : y.kind = .expr)
    (hz : z.kind = .expr) (hlevel : BinaryOp.or.level ≤ x.level)
    (h : PartsYield read [.cat x, .tok .question, .cat y, .tok .colon, .cat z] parts) :
    Yielded 0 ((Derivation.node r l parts).words) ((Derivation.node r l parts).build read) := by
  obtain _ | ⟨hx', _ | ⟨ha, _ | ⟨hy', _ | ⟨hb, _ | ⟨hz', ⟨⟩⟩⟩⟩⟩⟩ := h
  obtain ⟨a, p, hwa, hba⟩ := ha.of_tok
  obtain ⟨b, q, hwb, hbb⟩ := hb.of_tok
  obtain ⟨x, hfx, hbx⟩ := (hx'.expr hx).lower_le x.level_le hlevel
  obtain ⟨y, hfy, hby⟩ := (hy'.expr hy).lower_le y.level_le (Nat.zero_le _)
  obtain ⟨z, hfz, hbz⟩ := (hz'.expr hz).lower_le z.level_le (Nat.zero_le _)
  have hforms := Forms.conditional a b hfx hfy hfz
  refine ⟨_, by simpa [Derivation.words_node, hwa, hwb] using hforms, fun e he => ?_⟩
  simp only [Option.bind_eq_some_iff, Option.map_eq_some_iff] at he
  obtain ⟨x, rfl, y, rfl, z, rfl, rfl⟩ := he
  obtain ⟨x', hx, hax⟩ := hbx x rfl
  obtain ⟨y', hy, hay⟩ := hby y rfl
  obtain ⟨z', hz, haz⟩ := hbz z rfl
  refine ⟨.conditional l x' y' z', ?_, .conditional l hax hay haz⟩
  rw [Derivation.build_node (.cons hx (.cons hba (.cons hy (.cons hbb (.cons hz .nil))))), hr]
  rfl

/-- The operators between the operands of a binary rule. -/
theorem yields_operator {head left right : Category} {s : Symbol} {ws : List Word} {built : Except SyntaxError Piece}
    (hjoins : joins head (.cat left) s (.cat right) = true) (hkind : s.kind.le (.token Construct.binaryTerminals) = true)
    (h : s.Yields ws built) :
    ∃ t op, ws = [t.word] ∧ built = .ok (.token t) ∧ BinaryOp.ofSpelling t.text = op ∧
      t.word.terminal.joint? = some (.operator op) ∧ head.level ≤ op.level ∧ op.leftLevel ≤ left.level ∧
      op.level < right.level := by
  have hsymbols : ∀ t ∈ Construct.binaryTerminals, t ∈ Terminal.symbols.map Prod.snd := by decide
  have hjoint : ∀ entry ∈ Terminal.symbols, entry.2 ∈ Construct.binaryTerminals →
      entry.2.joint? = some (.operator (BinaryOp.ofSpelling entry.1)) := by decide
  cases hs : s.kind with
  | token ts =>
    obtain ⟨t, rfl, rfl, hterminal, hspelled, -⟩ := h.token ts hs
    have hmem : t.terminal ∈ Construct.binaryTerminals := by
      rw [hs, Kind.le, List.all_eq_true] at hkind
      exact List.contains_iff_mem.mp (hkind _ hterminal)
    have hlevels := joins_ok hjoins (t := t) (by rw [hs]; exact ⟨t, rfl, hterminal, hspelled⟩)
    exact ⟨t, _, rfl, rfl, rfl, hjoint _ (hspelled (hsymbols _ hmem)) hmem, hlevels.2.1, hlevels.2.2.1, hlevels.2.2.2⟩
  | _ =>
    rw [hs] at hkind
    cases hkind

theorem yields_binary {s : Symbol} (hr : r.construct = .binary) (hx : x.kind = .expr) (hy : y.kind = .expr)
    (hkind : s.kind.le (.token Construct.binaryTerminals) = true) (hjoins : joins r.head (.cat x) s (.cat y) = true)
    (h : PartsYield read [.cat x, s, .cat y] parts) :
    Yielded r.head.level ((Derivation.node r l parts).words) ((Derivation.node r l parts).build read) := by
  obtain _ | ⟨hx', _ | ⟨hs, _ | ⟨hy', ⟨⟩⟩⟩⟩ := h
  obtain ⟨t, op, hwt, hbt, hop, hjoint, hhead, hleft, hright⟩ := yields_operator hjoins hkind hs
  obtain ⟨x, hfx, hbx⟩ := (hx'.expr hx).lower_le x.level_le hleft
  obtain ⟨y, hfy, hby⟩ := (hy'.expr hy).lower_le y.level_le hright
  have hforms := (Forms.binary hjoint hfx hfy).lower_le
    ((Terminal.level_of_joint? hjoint).2.le.trans (by decide)) hhead
  refine ⟨_, by simpa [Derivation.words_node, hwt] using hforms, fun e he => ?_⟩
  simp only [Option.bind_eq_some_iff, Option.map_eq_some_iff] at he
  obtain ⟨x, rfl, y, rfl, rfl⟩ := he
  obtain ⟨x', hx, hax⟩ := hbx x rfl
  obtain ⟨y', hy, hay⟩ := hby y rfl
  refine ⟨.binary l op x' y', ?_, .binary l op hax hay⟩
  rw [Derivation.build_node (.cons hx (.cons hbt (.cons hy .nil))), hr, ← hop]
  rfl

/-- Of the operators in front of an operand those that write to it are in no operator expression. -/
theorem sign?_of_spelled {t : Token} (hterminal : t.terminal ∈ [Terminal.minus, .bang, .inc, .dec])
    (hspelled : t.Spelled) (hoperand : t.terminal.isOperand = true) :
    t.terminal.sign? = some (.ofSpelling t.text) ∧ (UnaryOp.ofSpelling t.text).isStep = false := by
  have hsymbols : ∀ t ∈ [Terminal.minus, .bang, .inc, .dec], t ∈ Terminal.symbols.map Prod.snd := by decide
  have htable : ∀ entry ∈ Terminal.symbols, entry.2 ∈ [Terminal.minus, .bang, .inc, .dec] → entry.2.isOperand = true →
      entry.2.sign? = some (.ofSpelling entry.1) ∧ (UnaryOp.ofSpelling entry.1).isStep = false := by decide
  exact htable (t.text, t.terminal) (hspelled (hsymbols _ hterminal)) hterminal hoperand

theorem assemble_unary {t : Token} {op : UnaryOp} (hop : UnaryOp.ofSpelling t.text = op) (hstep : op.isStep = false)
    (x : Expr) : assemble read .unary l [.token t, .expr x] = .ok (.expr (.unary l op x)) := by
  subst hop
  change (if _ then _ else _) = _
  rw [if_neg (by simp [hstep])]

theorem yields_unary (hr : r.construct = .unary) (hx : x.kind = .expr) (hhead : r.head.level ≤ prefixLevel)
    (hlevel : prefixLevel ≤ x.level) (h : PartsYield read [.cat .unaryOp, .cat x] parts) :
    Yielded r.head.level ((Derivation.node r l parts).words) ((Derivation.node r l parts).build read) := by
  obtain _ | ⟨hs, _ | ⟨hx', ⟨⟩⟩⟩ := h
  obtain ⟨t, hwt, hbt, hterminal, hspelled, hoperand⟩ := hs.token _ rfl
  obtain ⟨hsign, hstep⟩ := sign?_of_spelled hterminal hspelled hoperand.terminal
  generalize hop : UnaryOp.ofSpelling t.text = op at hsign hstep
  obtain ⟨x, hfx, hbx⟩ := (hx'.expr hx).lower_le x.level_le hlevel
  have hforms := (Forms.unary (w := t.word) hsign hfx).lower_le (by decide) hhead
  refine ⟨_, by simpa [Derivation.words_node, hwt] using hforms, fun e he => ?_⟩
  obtain ⟨x, rfl, rfl⟩ := Option.map_eq_some_iff.mp he
  obtain ⟨x', hx, hax⟩ := hbx x rfl
  have hbuilt := Derivation.build_node (r := r) (l := l) (.cons hbt (.cons hx .nil))
  rw [hr, assemble_unary hop hstep] at hbuilt
  exact ⟨.unary l op x', hbuilt, .unary l op hax⟩

theorem yields_property (hr : r.construct = .property) (hx : x.kind = .expr) (hlevel : postfixLevel ≤ x.level)
    (h : PartsYield read [.cat x, .tok .dot, .tok .identifier] parts) :
    Yielded postfixLevel ((Derivation.node r l parts).words) ((Derivation.node r l parts).build read) := by
  obtain _ | ⟨hx', _ | ⟨ha, _ | ⟨hb, ⟨⟩⟩⟩⟩ := h
  obtain ⟨a, p, hwa, hba⟩ := ha.of_tok
  obtain ⟨b, q, hwb, hbb⟩ := hb.of_tok
  obtain ⟨x, hfx, hbx⟩ := (hx'.expr hx).lower_le x.level_le hlevel
  refine ⟨_, by simpa [Derivation.words_node, hwa, hwb] using Forms.property a b hfx, fun e he => ?_⟩
  obtain ⟨x, rfl, rfl⟩ := Option.map_eq_some_iff.mp he
  obtain ⟨x', hx, hax⟩ := hbx x rfl
  refine ⟨.property l x' b, ?_, .property l hax b⟩
  rw [Derivation.build_node (.cons hx (.cons hba (.cons hbb .nil))), hr]
  rfl

theorem yields_index (hr : r.construct = .index) (hx : x.kind = .expr) (hy : y.kind = .expr)
    (hlevel : postfixLevel ≤ x.level)
    (h : PartsYield read [.cat x, .tok .leftBracket, .cat y, .tok .rightBracket] parts) :
    Yielded postfixLevel ((Derivation.node r l parts).words) ((Derivation.node r l parts).build read) := by
  obtain _ | ⟨hx', _ | ⟨ha, _ | ⟨hy', _ | ⟨hb, ⟨⟩⟩⟩⟩⟩ := h
  obtain ⟨a, p, hwa, hba⟩ := ha.of_tok
  obtain ⟨b, q, hwb, hbb⟩ := hb.of_tok
  obtain ⟨x, hfx, hbx⟩ := (hx'.expr hx).lower_le x.level_le hlevel
  obtain ⟨y, hfy, hby⟩ := (hy'.expr hy).lower_le y.level_le (Nat.zero_le _)
  refine ⟨_, by simpa [Derivation.words_node, hwa, hwb] using Forms.index a b hfx hfy, fun e he => ?_⟩
  simp only [Option.bind_eq_some_iff, Option.map_eq_some_iff] at he
  obtain ⟨x, rfl, y, rfl, rfl⟩ := he
  obtain ⟨x', hx, hax⟩ := hbx x rfl
  obtain ⟨y', hy, hay⟩ := hby y rfl
  refine ⟨.index l x' y', ?_, .index l hax hay⟩
  rw [Derivation.build_node (.cons hx (.cons hba (.cons hy (.cons hbb .nil)))), hr]
  rfl

theorem yields_parenthesized (hr : r.construct = .parenthesized) (hx : x.kind = .expr)
    (h : PartsYield read [.tok .leftParen, .cat x, .tok .rightParen] parts) :
    Yielded postfixLevel ((Derivation.node r l parts).words) ((Derivation.node r l parts).build read) := by
  obtain _ | ⟨ha, _ | ⟨hx', _ | ⟨hb, ⟨⟩⟩⟩⟩ := h
  obtain ⟨a, p, hwa, hba⟩ := ha.of_tok
  obtain ⟨b, q, hwb, hbb⟩ := hb.of_tok
  obtain ⟨x, hfx, hbx⟩ := (hx'.expr hx).lower_le x.level_le (Nat.zero_le _)
  refine ⟨_, by simpa [Derivation.words_node, hwa, hwb] using Forms.parenthesized a b hfx, fun e he => ?_⟩
  obtain ⟨x, rfl, rfl⟩ := Option.map_eq_some_iff.mp he
  obtain ⟨x', hx, hax⟩ := hbx x rfl
  refine ⟨.parenthesized l x', ?_, .parenthesized l hax⟩
  rw [Derivation.build_node (.cons hba (.cons hx (.cons hbb .nil))), hr]
  rfl

theorem yields_identifier (hr : r.construct = .identifier) (h : PartsYield read [.tok .identifier] parts) :
    Yielded postfixLevel ((Derivation.node r l parts).words) ((Derivation.node r l parts).build read) := by
  obtain _ | ⟨ha, ⟨⟩⟩ := h
  obtain ⟨a, p, hwa, hba⟩ := ha.of_tok
  refine ⟨_, by simpa [Derivation.words_node, hwa] using Forms.identifier a, fun e he => ?_⟩
  cases he
  exact ⟨.identifier l a, by rw [Derivation.build_node (.cons hba .nil), hr]; rfl, rfl, fun c => rfl⟩

theorem integerLiteral_of_read {text : String} (h : Host.refusesNumeral text.toList = false) :
    integerLiteral text l = .ok (.expr (.intLiteral l (integerValue text))) := by
  rw [integerLiteral, if_neg (by simp [h])]

theorem yields_intLiteral (hr : r.construct = .intLiteral) (h : PartsYield read [.tok .integer] parts) :
    Yielded postfixLevel ((Derivation.node r l parts).words) ((Derivation.node r l parts).build read) := by
  obtain _ | ⟨ha, ⟨⟩⟩ := h
  obtain ⟨⟨_, a, p⟩, hwa, hba, hterminal, -, hoperand⟩ := ha.token [.integer] rfl
  obtain rfl := List.mem_singleton.mp hterminal
  refine ⟨_, by simpa [Derivation.words_node, hwa, Token.word] using Forms.number a, fun e he => ?_⟩
  cases he
  have hbuilt := Derivation.build_node (r := r) (l := l) (.cons hba .nil)
  rw [hr] at hbuilt
  exact ⟨.intLiteral l (integerValue a), hbuilt.trans (integerLiteral_of_read (hoperand.digits rfl)), rfl, fun c => rfl⟩

theorem yields_same (hr : r.construct = .same) (hx : x.kind = .expr) (hlevel : r.head.level ≤ x.level)
    (h : PartsYield read [.cat x] parts) :
    Yielded r.head.level ((Derivation.node r l parts).words) ((Derivation.node r l parts).build read) := by
  obtain _ | ⟨hx', ⟨⟩⟩ := h
  obtain ⟨x, hfx, hbx⟩ := (hx'.expr hx).lower_le x.level_le hlevel
  refine ⟨x, by simpa [Derivation.words_node] using hfx, fun e he => ?_⟩
  obtain ⟨y, hy, hay⟩ := hbx e he
  exact ⟨y, by rw [Derivation.build_node (.cons hy .nil), hr]; rfl, hay⟩

/-- A list literal begins with a bracket, or with the mark that its type arguments begin with. -/
theorem yields_listLiteral {s : Symbol} {symbols : List Symbol} (hs : s = .tok .leftBracket ∨ s = .cat .typeArguments)
    (h : PartsYield read (s :: symbols) parts) :
    Yielded postfixLevel ((Derivation.node r l parts).words) ((Derivation.node r l parts).build read) := by
  obtain _ | ⟨hfirst, hrest⟩ := h
  rename_i d ds
  obtain ⟨w, rest, hwords, hw⟩ : ∃ w rest, d.words = w :: rest ∧ (w.terminal = .leftBracket ∨ w.terminal = .lt) := by
    rcases hs with rfl | rfl
    · obtain ⟨a, p, hwa, -⟩ := hfirst.of_tok
      exact ⟨_, [], hwa, .inl rfl⟩
    · obtain ⟨w, rest, hwords, hw⟩ := hfirst.types rfl
      exact ⟨w, rest, hwords, .inr hw⟩
  refine ⟨none, ?_, fun e he => nomatch he⟩
  rw [Derivation.words_node, List.flatMap_cons, hwords]
  exact .collection _ hw

theorem callOf_agrees {f g : Expr} {es : List Expr} {as : List Argument} (hf : f.Agrees g) (has : ArgumentsAgree es as) :
    (callOf none f (es.map .positional)).Agrees (callOf l g as) := by
  obtain ⟨rfl, hjumps⟩ := hf
  by_cases hproperty : ∃ l' x name, g = .property l' x name
  · obtain ⟨l', x, name, rfl⟩ := hproperty
    exact .methodCall l (x := x) ⟨rfl, hjumps⟩ name has
  · simp only [not_exists] at hproperty
    rw [callOf_bare hproperty, callOf_of_ne hproperty]
    exact .call l ⟨rfl, hjumps⟩ has

theorem yields_call (hr : r.construct = .call) (hx : x.kind = .expr) (hlevel : postfixLevel ≤ x.level)
    (h : PartsYield read [.cat x, .cat .arguments] parts) :
    Yielded postfixLevel ((Derivation.node r l parts).words) ((Derivation.node r l parts).build read) := by
  obtain _ | ⟨hx', _ | ⟨has, ⟨⟩⟩⟩ := h
  obtain ⟨x, hfx, hbx⟩ := (hx'.expr hx).lower_le x.level_le hlevel
  obtain ⟨slots, vs, a, b, hformed, hrow, hwords, hbuilt⟩ := has.arguments rfl
  have hforms := Forms.call a b hfx hrow (fun ws y hslot => hformed _ hslot)
  refine ⟨_, by simpa [Derivation.words_node, hwords] using hforms, fun e he => ?_⟩
  simp only [Option.bind_eq_some_iff, Option.map_eq_some_iff] at he
  obtain ⟨x, rfl, es, hes, rfl⟩ := he
  obtain ⟨x', hx, hax⟩ := hbx x rfl
  obtain ⟨as, has, haas⟩ := hbuilt es hes
  have hpieces : (as.map Piece.argument).filterMap Piece.argument? = as := by
    rw [List.filterMap_map]
    exact List.filterMap_some
  refine ⟨callOf l x' as, ?_, callOf_agrees hax haas⟩
  rw [Derivation.build_node (.cons hx (.cons has .nil)), hr]
  change Except.ok (Piece.expr (callOf l x' ((as.map Piece.argument).filterMap Piece.argument?))) = _
  rw [hpieces]

/-- What the rules of expressions build from operator words. -/
theorem Rule.yields_expr (hr : r ∈ Grammar.rules) (hhead : r.head.kind = .expr) (hforeign : r.isForeign = false)
    (h : PartsYield read r.body parts) :
    Yielded r.head.level ((Derivation.node r l parts).words) ((Derivation.node r l parts).build read) := by
  have hplain := isPlain_of_head r hr hhead hforeign
  have hlevels := Grammar.respectsLevels r hr
  have htight (h : Yielded postfixLevel ((Derivation.node r l parts).words) ((Derivation.node r l parts).build read)) :
      Yielded r.head.level ((Derivation.node r l parts).words) ((Derivation.node r l parts).build read) :=
    h.lower_le le_rfl r.head.level_le
  unfold Rule.isPlain at hplain
  split at hplain
  case h_13 => cases hplain
  all_goals
    rename_i hconstruct hbody
    rw [hbody] at h
    rw [hconstruct, hbody] at hlevels
    unfold Construct.respectsLevels at hlevels
    simp only [Bool.and_eq_true, beq_iff_eq, decide_eq_true_eq, List.all_cons, List.all_nil, Symbol.level] at hplain hlevels
  case h_1 => exact yields_same hconstruct hplain (of_decide_eq_true hlevels.1) h
  case h_2 =>
    rw [hlevels]
    exact yields_conditional hconstruct hplain.1.1 hplain.1.2.1 hplain.1.2.2.1 hplain.2 h
  case h_3 => exact yields_binary hconstruct hplain.1.1 hplain.1.2 hplain.2 hlevels h
  case h_4 =>
    have hlevels := of_decide_eq_true hlevels
    exact yields_unary hconstruct hplain hlevels.1 hlevels.2 h
  case h_5 => exact htight (yields_property hconstruct hplain (of_decide_eq_true hlevels) h)
  case h_6 => exact htight (yields_index hconstruct hplain.1 hplain.2 (of_decide_eq_true hlevels) h)
  case h_7 => exact htight (yields_call hconstruct hplain (of_decide_eq_true hlevels) h)
  case h_8 => exact htight (yields_identifier hconstruct h)
  case h_9 => exact htight (yields_intLiteral hconstruct h)
  case h_10 => exact htight (yields_parenthesized hconstruct hplain h)
  case h_11 => exact htight (yields_listLiteral (.inl rfl) h)
  case h_12 => exact htight (yields_listLiteral (.inr rfl) h)

theorem rules_argument : ∀ r ∈ Grammar.rules, r.head = .argument →
    r.construct = .positional ∧ r.body = [.cat .expr] ∨
      r.construct = .named ∧ r.body = [.tok .identifier, .tok .colon, .cat .expr] := by
  decide

theorem Rule.yields_argument (hr : r ∈ Grammar.rules) (hhead : r.head = .argument) (h : PartsYield read r.body parts) :
    ∃ slot : Slot, slot.IsFormed ∧ slot.words = (Derivation.node r l parts).words ∧
      ∀ e, slot.value = some e →
        ∃ a, (Derivation.node r l parts).build read = .ok (.argument a) ∧ ArgumentsAgree [e] [a] := by
  rcases rules_argument r hr hhead with ⟨hconstruct, hbody⟩ | ⟨hconstruct, hbody⟩ <;> rw [hbody] at h
  · obtain _ | ⟨hx', ⟨⟩⟩ := h
    obtain ⟨x, hfx, hbx⟩ := hx'.expr rfl
    refine ⟨.filled _ x, hfx, by simp [Slot.words, Derivation.words_node], fun e he => ?_⟩
    obtain ⟨y, hy, hay⟩ := hbx e he
    refine ⟨.positional y, by rw [Derivation.build_node (.cons hy .nil), hconstruct]; rfl, ?_, fun c => ?_⟩
    · simp [bareArguments, hay.bare]
    · simp [jumpErrorArguments, firstError, hay.jumps]
  · obtain _ | ⟨ha, _ | ⟨hb, _ | ⟨-, ⟨⟩⟩⟩⟩ := h
    obtain ⟨a, p, hwa, -⟩ := ha.of_tok
    obtain ⟨b, q, hwb, -⟩ := hb.of_tok
    rename_i d
    exact ⟨.named a b d.words, trivial, by simp [Slot.words, Derivation.words_node, hwa, hwb], fun e he => by cases he⟩

theorem rules_argumentList : ∀ r ∈ Grammar.rules, r.head = .argumentList →
    r.construct = .single ∧ r.body = [.cat .argument] ∨
      r.construct = .appended ∧ r.body = [.cat .argumentList, .tok .comma, .cat .argument] := by
  decide

theorem Rule.yields_argumentList (hr : r ∈ Grammar.rules) (hhead : r.head = .argumentList)
    (h : PartsYield read r.body parts) :
    ∃ slots : List Slot, (∀ slot ∈ slots, slot.IsFormed) ∧ IsRow slots (Derivation.node r l parts).words ∧
      ∀ es, slots.mapM Slot.value = some es →
        ∃ as, (Derivation.node r l parts).build read = .ok (.many (as.map .argument)) ∧ ArgumentsAgree es as := by
  rcases rules_argumentList r hr hhead with ⟨hconstruct, hbody⟩ | ⟨hconstruct, hbody⟩ <;> rw [hbody] at h
  · obtain _ | ⟨hslot, ⟨⟩⟩ := h
    obtain ⟨slot, hformed, hwords, hbuilt⟩ := hslot.argument rfl
    refine ⟨[slot], by simpa using hformed, ?_, fun es hes => ?_⟩
    · rw [Derivation.words_node, List.flatMap_cons, List.flatMap_nil, List.append_nil, ← hwords]
      exact .single slot
    · have hes : ([] ++ [slot]).mapM Slot.value = some es := hes
      obtain ⟨_, e, ⟨⟩, he, rfl⟩ := Slot.mapM_value_appended hes
      obtain ⟨a, ha, haa⟩ := hbuilt e he
      exact ⟨[a], by rw [Derivation.build_node (.cons ha .nil), hconstruct]; rfl, haa⟩
  · obtain _ | ⟨hslots, _ | ⟨ha, _ | ⟨hslot, ⟨⟩⟩⟩⟩ := h
    obtain ⟨a, p, hwa, hba⟩ := ha.of_tok
    obtain ⟨slots, hformeds, hrow, hbuilts⟩ := hslots.list rfl
    obtain ⟨slot, hformed, hwords, hbuilt⟩ := hslot.argument rfl
    refine ⟨slots ++ [slot], by simpa [or_imp, forall_and] using ⟨hformeds, hformed⟩, ?_, fun es hes => ?_⟩
    · simpa [Derivation.words_node, hwa, ← hwords] using hrow.appended a slot
    · obtain ⟨fs, e, hfs, he, rfl⟩ := Slot.mapM_value_appended hes
      obtain ⟨as, has, haas⟩ := hbuilts fs hfs
      obtain ⟨b, hb, hab⟩ := hbuilt e he
      refine ⟨as ++ [b], ?_, haas.append hab⟩
      rw [Derivation.build_node (.cons has (.cons hba (.cons hb .nil))), hconstruct, List.map_append]
      rfl

theorem rules_arguments : ∀ r ∈ Grammar.rules, r.head = .arguments → r.construct = .arguments ∧
    (r.body = [.tok .leftParen, .tok .rightParen] ∨ r.body = [.tok .leftParen, .cat .argumentList, .tok .rightParen] ∨
      r.body = [.tok .leftParen, .cat .argumentList, .tok .comma, .tok .rightParen]) := by
  decide

/-- Between parentheses only the arguments count. -/
theorem assemble_arguments (as : List Argument) (before after : List Token) :
    assemble read .arguments l (before.map .token ++ .many (as.map .argument) :: after.map .token) =
      .ok (.many (as.map .argument)) := by
  have htokens (ts : List Token) : (flattenPieces (ts.map .token)).filter (fun p => p.argument?.isSome) = [] := by
    induction ts with
    | nil => rfl
    | cons t ts ih => simpa [flattenPieces, Piece.flatten, Piece.argument?] using ih
  have harguments : (as.map Piece.argument).filter (fun p => p.argument?.isSome) = as.map .argument := by
    simp [List.filter_eq_self, Piece.argument?]
  have hsplit : flattenPieces (before.map .token ++ .many (as.map .argument) :: after.map .token) =
      flattenPieces (before.map .token) ++ (as.map .argument ++ flattenPieces (after.map .token)) := by
    simp [flattenPieces, Piece.flatten]
  change Except.ok (Piece.many (List.filter _ (flattenPieces _))) = _
  rw [hsplit, List.filter_append, List.filter_append, htokens, htokens, harguments, List.nil_append, List.append_nil]

theorem Rule.yields_arguments (hr : r ∈ Grammar.rules) (hhead : r.head = .arguments)
    (h : PartsYield read r.body parts) :
    ∃ (slots : List Slot) (vs : List Word) (a b : String), (∀ slot ∈ slots, slot.IsFormed) ∧ Row slots vs ∧
      (Derivation.node r l parts).words = ⟨.leftParen, a⟩ :: (vs ++ [⟨.rightParen, b⟩]) ∧
      ∀ es, slots.mapM Slot.value = some es →
        ∃ as, (Derivation.node r l parts).build read = .ok (.many (as.map .argument)) ∧ ArgumentsAgree es as := by
  obtain ⟨hconstruct, hbody | hbody | hbody⟩ := rules_arguments r hr hhead <;> rw [hbody] at h
  · obtain _ | ⟨ha, _ | ⟨hb, ⟨⟩⟩⟩ := h
    obtain ⟨a, p, hwa, hba⟩ := ha.of_tok
    obtain ⟨b, q, hwb, hbb⟩ := hb.of_tok
    refine ⟨[], [], a, b, nofun, .nil, by simp [Derivation.words_node, hwa, hwb], fun es hes => ⟨[], ?_, ?_⟩⟩
    · rw [Derivation.build_node (.cons hba (.cons hbb .nil)), hconstruct]
      rfl
    · cases hes
      exact ⟨rfl, fun c => rfl⟩
  · obtain _ | ⟨ha, _ | ⟨hslots, _ | ⟨hb, ⟨⟩⟩⟩⟩ := h
    obtain ⟨a, p, hwa, hba⟩ := ha.of_tok
    obtain ⟨b, q, hwb, hbb⟩ := hb.of_tok
    obtain ⟨slots, hformed, hrow, hbuilt⟩ := hslots.list rfl
    refine ⟨slots, _, a, b, hformed, hrow.row, by simp [Derivation.words_node, hwa, hwb], fun es hes => ?_⟩
    obtain ⟨as, has, haas⟩ := hbuilt es hes
    refine ⟨as, ?_, haas⟩
    rw [Derivation.build_node (.cons hba (.cons has (.cons hbb .nil))), hconstruct]
    exact assemble_arguments as [_] [_]
  · obtain _ | ⟨ha, _ | ⟨hslots, _ | ⟨hcomma, _ | ⟨hb, ⟨⟩⟩⟩⟩⟩ := h
    obtain ⟨a, p, hwa, hba⟩ := ha.of_tok
    obtain ⟨b, q, hwb, hbb⟩ := hb.of_tok
    obtain ⟨comma, o, hwcomma, hbcomma⟩ := hcomma.of_tok
    obtain ⟨slots, hformed, hrow, hbuilt⟩ := hslots.list rfl
    have htrailing := hrow.more comma .nil
    rw [List.append_nil] at htrailing
    refine ⟨slots, _, a, b, hformed, htrailing, by simp [Derivation.words_node, hwa, hwb, hwcomma], fun es hes => ?_⟩
    obtain ⟨as, has, haas⟩ := hbuilt es hes
    refine ⟨as, ?_, haas⟩
    rw [Derivation.build_node (.cons hba (.cons has (.cons hbcomma (.cons hbb .nil)))), hconstruct]
    exact assemble_arguments as [_] [_, _]

/-- The categories that are one of several terminals. -/
def Rule.isTerminal (r : Rule) : Bool :=
  match r.head.kind with
  | .token ts => r.construct == .same && ts.any (fun t => r.body == [.tok t])
  | _ => true

theorem rules_terminal : ∀ r ∈ Grammar.rules, r.isTerminal = true := by
  decide

theorem Rule.yields_token (hr : r ∈ Grammar.rules) {ts : List Terminal} (hhead : r.head.kind = .token ts)
    (h : PartsYield read r.body parts) :
    ∃ t, (Derivation.node r l parts).words = [t.word] ∧ (Derivation.node r l parts).build read = .ok (.token t) ∧
      t.terminal ∈ ts ∧ t.Spelled ∧ t.word.IsOperand := by
  have hterminal := rules_terminal r hr
  simp only [isTerminal, hhead, Bool.and_eq_true, beq_iff_eq, List.any_eq_true] at hterminal
  obtain ⟨hconstruct, t, ht, hbody⟩ := hterminal
  rw [hbody] at h
  obtain _ | ⟨ht', ⟨⟩⟩ := h
  obtain ⟨u, hwords, hbuilt, hu, hspelled, hoperand⟩ := ht'.token [t] rfl
  obtain rfl := List.mem_singleton.mp hu
  refine ⟨u, by simp [Derivation.words_node, hwords], ?_, ht, hspelled, hoperand⟩
  rw [Derivation.build_node (.cons hbuilt .nil), hconstruct]
  rfl

theorem rules_typeArguments : ∀ r ∈ Grammar.rules, r.head = .typeArguments → r.body.head? = some (.tok .lt) := by
  decide

theorem Rule.yields_typeArguments (hr : r ∈ Grammar.rules) (hhead : r.head = .typeArguments)
    (h : PartsYield read r.body parts) :
    ∃ w rest, (Derivation.node r l parts).words = w :: rest ∧ w.terminal = .lt := by
  obtain ⟨symbols, hbody⟩ := List.head?_eq_some_iff.mp (rules_typeArguments r hr hhead)
  rw [hbody] at h
  obtain _ | ⟨ha, hrest⟩ := h
  obtain ⟨a, p, hwa, -⟩ := ha.of_tok
  exact ⟨⟨.lt, a⟩, _, by rw [Derivation.words_node, List.flatMap_cons, hwa]; rfl, rfl⟩

/-- What the rules of the grammar build from operator words. -/
theorem Rule.yields (hr : r ∈ Grammar.rules) (hforeign : r.isForeign = false) (h : PartsYield read r.body parts) :
    (Symbol.cat r.head).Yields (Derivation.node r l parts).words ((Derivation.node r l parts).build read) where
  token _ hhead := yields_token hr hhead h
  expr hhead := yields_expr hr hhead hforeign h
  argument hhead := yields_argument hr (Symbol.cat.inj hhead) h
  list hhead := yields_argumentList hr (Symbol.cat.inj hhead) h
  arguments hhead := yields_arguments hr (Symbol.cat.inj hhead) h
  types hhead := yields_typeArguments hr (Symbol.cat.inj hhead) h

end Rules

namespace Derivation

mutual

/-- A derivation of operator words yields what its symbol stands for. -/
theorem yields {s : Symbol} {d : Derivation} (hd : Of ruleTable s d) (htokens : IsOperand d.tokens) :
    s.Yields d.words (d.build read) := by
  cases hd with
  | leaf t => exact .leaf (htokens t List.mem_cons_self).1 (htokens t List.mem_cons_self).2
  | @node r l parts hr hparts =>
    have hforeign : r.isForeign = false := by
      simpa [Rule.isForeign] using not_isForeign_all hparts htokens
    exact Rule.yields (mem_ruleTable.mp hr) hforeign (yields_all hparts htokens)

theorem yields_all {symbols : List Symbol} {parts : List Derivation} (hparts : AllOf ruleTable symbols parts)
    (htokens : IsOperand (tokensAll parts)) : PartsYield read symbols parts := by
  cases hparts with
  | nil => exact .nil
  | cons hd hrest =>
    exact .cons (yields hd (fun t ht => htokens t (List.mem_append_left _ ht)))
      (yields_all hrest (fun t ht => htokens t (List.mem_append_right _ ht)))

end

end Derivation

end Dartlet.Syntax
