import Dartlet.Proofs.Grammar.Table
import Dartlet.Proofs.Program.Printing
import Dartlet.Proofs.Program.Readings

/-!
# Operator expressions are sentences

The words of an operator expression form it, and whatever words form an operator expression are a sentence
of the grammar.
-/

namespace Dartlet.Syntax

open RuleTable
open Grammar (mem_ruleTable passes rule)

theorem Terminal.ofSymbol_of_mem : ∀ entry ∈ symbols, ofSymbol entry.1 = entry.2 := by
  decide

theorem Word.symbol_eq {s : String} {t : Terminal} (h : (s, t) ∈ Terminal.symbols) : symbol s = ⟨t, s⟩ := by
  rw [symbol, Terminal.ofSymbol_of_mem _ h]

theorem BinaryOp.joint?_spelling {op : BinaryOp} (h : 0 < op.level) :
    (Word.symbol op.spelling).terminal.joint? = some (.operator op) := by
  cases op with
  | other s => exact absurd h (by simp [level])
  | _ => decide

theorem Expr.level_le (x : Expr) : x.level ≤ postfixLevel := by
  cases x with
  | binary l op y z =>
    cases op with
    | other s => exact Nat.zero_le _
    | _ => simp [level, BinaryOp.level, postfixLevel]
  | functionLiteral l ps body => cases body <;> simp [level, postfixLevel]
  | _ => simp [level, prefixLevel, postfixLevel]

/-- The slots of arguments with given expressions. -/
def printedSlots (xs : List Expr) : List Slot := xs.map (fun x => .filled x.words (some x.bare))

theorem row_printedSlots (xs : List Expr) :
    Row (printedSlots xs) ([Word.symbol ","].intercalate (argumentWords (xs.map .positional))) := by
  rw [argumentWords_positional, Word.symbol_eq (t := .comma) (by decide)]
  induction xs with
  | nil => exact .nil
  | cons x xs ih =>
    cases xs with
    | nil => simpa [printedSlots, Slot.words] using Row.last (.filled x.words (some x.bare))
    | cons y xs =>
      have h := Row.more (.filled x.words (some x.bare)) "," ih
      simpa [printedSlots, Slot.words, List.intercalate_cons_cons] using h

theorem value_printedSlots (xs : List Expr) : (printedSlots xs).mapM Slot.value = some (xs.map Expr.bare) := by
  induction xs with
  | nil => rfl
  | cons x xs ih =>
    rw [printedSlots] at ih
    simp [printedSlots, Slot.value, ih]

theorem Expr.Printable.forms {e : Expr} (h : e.Printable) : Forms e.level e.words (some e.bare) := by
  have hlow {x : Expr} {level : Nat} (h : Forms x.level x.words (some x.bare)) (hlevel : level ≤ x.level) :
      Forms level x.words (some x.bare) := h.lower_le x.level_le hlevel
  have hopen : Word.symbol "(" = ⟨.leftParen, "("⟩ := Word.symbol_eq (by decide)
  have hclose : Word.symbol ")" = ⟨.rightParen, ")"⟩ := Word.symbol_eq (by decide)
  have hslots {xs : List Expr} (h : ∀ x ∈ xs, Forms x.level x.words (some x.bare)) (ws : List Word) (y : Option Expr)
      (hslot : .filled ws y ∈ printedSlots xs) : Forms 0 ws y := by
    obtain ⟨x, hx, heq⟩ := List.mem_map.mp hslot
    cases heq
    exact hlow (h x hx) (Nat.zero_le _)
  induction h with
  | identifier _ => exact .identifier _
  | intLiteral n =>
    have h := Forms.number n.repr
    rw [integerValue_repr] at h
    exact h
  | parenthesized _ ih =>
    have h := (hlow ih (Nat.zero_le _)).parenthesized "(" ")"
    rw [Expr.words, hopen, hclose]
    exact h
  | binary _ _ hop hx hy ihx ihy => exact .binary (BinaryOp.joint?_spelling hop) (hlow ihx hx) (hlow ihy hy)
  | unary _ hop hx ih =>
    rcases hop with rfl | rfl <;> exact .unary (by decide) (hlow ih hx)
  | conditional _ _ _ hc ihc iht ihe =>
    have h := Forms.conditional "?" ":" (hlow ihc hc) (hlow iht (Nat.zero_le _)) (hlow ihe (Nat.zero_le _))
    rw [Expr.words, Word.symbol_eq (t := .question) (by decide), Word.symbol_eq (t := .colon) (by decide)]
    exact h
  | property _ hx _ ih =>
    rw [Expr.words, Word.symbol_eq (t := .dot) (by decide)]
    exact .property "." _ (hlow ih hx)
  | index _ hx _ ih ihkey =>
    have h := Forms.index "[" "]" (hlow ih hx) (hlow ihkey (Nat.zero_le _))
    rw [Expr.words, Word.symbol_eq (t := .leftBracket) (by decide), Word.symbol_eq (t := .rightBracket) (by decide)]
    exact h
  | call _ hf hproperty _ ih ihxs =>
    have h := Forms.call "(" ")" (hlow ih hf) (row_printedSlots _) (hslots ihxs)
    simp only [value_printedSlots, Option.bind_some, Option.map_some, callOf_bare hproperty,
      ← bareArguments_positional] at h
    rw [Expr.words, hopen, hclose]
    exact h
  | @methodCall l x name xs _ hx _ _ ih ihxs =>
    have h := Forms.call "(" ")" ((hlow ih hx).property "." name) (row_printedSlots _) (hslots ihxs)
    simp only [value_printedSlots, Option.bind_some, Option.map_some, callOf, ← bareArguments_positional] at h
    rw [Expr.words, hopen, hclose, Word.symbol_eq (t := .dot) (by decide)]
    exact h

/-! ### What forms an expression is a sentence -/

/-- The loosest category whose expressions bind as tightly as a level. -/
def categoryAt : Nat → Category
  | 0 => .expr
  | 1 => .orExpr
  | 2 => .andExpr
  | 3 => .equalityExpr
  | 4 => .relationalExpr
  | 5 => .additiveExpr
  | 6 => .multiplicativeExpr
  | 7 => .unaryExpr
  | _ => .postfixExpr

/-- The terminals of some words. -/
def wordTerminals (ws : List Word) : List Terminal := ws.map Word.terminal

variable {c d : Category} {u v w : List Terminal}

/-- The rules of expressions and literals. -/
def valueRules : List Rule := Grammar.expressionRules ++ Grammar.literalRules

theorem derives_rule (construct : Construct) {body : List Symbol} (h : rule c construct body ∈ valueRules)
    (hbody : ruleTable.Derives body w) : ruleTable.Derives [.cat c] w := by
  have hmem : rule c construct body ∈ Grammar.rules := by
    rw [Grammar.rules, List.append_assoc]
    exact List.mem_append_right _ h
  exact Derives.single (r := rule c construct body) (mem_ruleTable.mpr hmem) hbody

theorem derives_passes (h : passes c d ∈ valueRules) (hw : ruleTable.Derives [.cat d] w) :
    ruleTable.Derives [.cat c] w :=
  derives_rule .same h hw

/-- An expression of some level is one of every looser level. -/
theorem derives_lower {level : Nat} (hlevel : level < postfixLevel)
    (hw : ruleTable.Derives [.cat (categoryAt (level + 1))] w) : ruleTable.Derives [.cat (categoryAt level)] w := by
  match level, hlevel with
  | 0, _ =>
    have hconditional : ruleTable.Derives [.cat .conditionalExpr] w := derives_passes (by decide) hw
    have hassignment : ruleTable.Derives [.cat .assignmentExpr] w := derives_passes (by decide) hconditional
    exact derives_passes (by decide) hassignment
  | 1, _ | 2, _ | 3, _ | 4, _ | 5, _ | 6, _ | 7, _ => exact derives_passes (by decide) hw

/-- What the grammar has between the operands of an operator. -/
def operatorSymbol : BinaryOp → Symbol
  | .or => .tok .or
  | .and => .tok .and
  | .eq | .ne => .cat .equalityOp
  | .lt | .le | .gt | .ge => .cat .relationalOp
  | .add | .sub => .cat .additiveOp
  | _ => .cat .multiplicativeOp

theorem derives_operatorSymbol {t : Terminal} {op : BinaryOp} (h : t.joint? = some (.operator op)) :
    ruleTable.Derives [operatorSymbol op] [t] := by
  have htoken : ruleTable.Derives [.tok t] [t] := .tok t .nil
  cases t <;> simp only [Terminal.joint?, reduceCtorEq, Option.some.injEq, Joint.operator.injEq] at h <;> subst h <;>
    first | exact htoken | exact derives_rule .same (by decide) htoken

theorem derives_binary {t : Terminal} {op : BinaryOp} (h : t.joint? = some (.operator op))
    (hu : ruleTable.Derives [.cat (categoryAt op.leftLevel)] u)
    (hv : ruleTable.Derives [.cat (categoryAt (op.level + 1))] v) :
    ruleTable.Derives [.cat (categoryAt op.level)] (u ++ t :: v) := by
  have hrule : ∀ op : BinaryOp, 0 < op.level → rule (categoryAt op.level) .binary
      [.cat (categoryAt op.leftLevel), operatorSymbol op, .cat (categoryAt (op.level + 1))] ∈ valueRules := by
    intro op hop
    cases op with
    | other s => exact absurd hop (by simp [BinaryOp.level])
    | _ => decide
  exact derives_rule .binary (hrule op (Terminal.level_of_joint? h).1) (hu.append ((derives_operatorSymbol h).append hv))

theorem derives_sign {t : Terminal} {op : UnaryOp} (h : t.sign? = some op) : ruleTable.Derives [.cat .unaryOp] [t] := by
  have htoken : ruleTable.Derives [.tok t] [t] := .tok t .nil
  cases t <;> simp only [Terminal.sign?, reduceCtorEq] at h <;> exact derives_rule .same (by decide) htoken

theorem derives_primary (h : ruleTable.Derives [.cat .primary] w) :
    ruleTable.Derives [.cat (categoryAt postfixLevel)] w :=
  derives_passes (by decide) h

/-- Further arguments after some of them, up to the closing parenthesis. -/
theorem Row.derives_after {slots : List Slot} {ws : List Word} (h : Row slots ws)
    (hslots : ∀ s ∈ slots, ruleTable.Derives [.cat .argument] (wordTerminals s.words)) {u : List Terminal}
    (hu : ruleTable.Derives [.cat .argumentList] u) :
    ruleTable.Derives [.cat .arguments] (.leftParen :: (u ++ .comma :: (wordTerminals ws ++ [.rightParen]))) := by
  have hmore {s : Slot} {u : List Terminal} (hu : ruleTable.Derives [.cat .argumentList] u)
      (hs : ruleTable.Derives [.cat .argument] (wordTerminals s.words)) :
      ruleTable.Derives [.cat .argumentList] (u ++ .comma :: wordTerminals s.words) :=
    derives_rule .appended (by decide) (hu.append (.tok .comma hs))
  induction h generalizing u with
  | nil =>
    exact derives_rule .arguments (by decide)
      (.tok .leftParen (hu.append (.tok .comma (.tok .rightParen .nil))))
  | last s =>
    have h := (hmore hu (hslots s List.mem_cons_self)).append (.tok .rightParen .nil)
    rw [List.append_assoc] at h
    exact derives_rule .arguments (by decide) (.tok .leftParen h)
  | more s comma _ ih =>
    rw [List.forall_mem_cons] at hslots
    have h := ih hslots.2 (hmore hu hslots.1)
    simpa [wordTerminals] using h

theorem Row.derives {slots : List Slot} {ws : List Word} (h : Row slots ws)
    (hslots : ∀ s ∈ slots, ruleTable.Derives [.cat .argument] (wordTerminals s.words)) :
    ruleTable.Derives [.cat .arguments] (.leftParen :: (wordTerminals ws ++ [.rightParen])) := by
  have hone {s : Slot} (hs : ruleTable.Derives [.cat .argument] (wordTerminals s.words)) :
      ruleTable.Derives [.cat .argumentList] (wordTerminals s.words) :=
    derives_rule .single (by decide) hs
  cases h with
  | nil =>
    exact derives_rule .arguments (by decide) (.tok .leftParen (.tok .rightParen .nil))
  | last s =>
    exact derives_rule .arguments (by decide)
      (.tok .leftParen ((hone (hslots s List.mem_cons_self)).append (.tok .rightParen .nil)))
  | more s comma hrow =>
    rw [List.forall_mem_cons] at hslots
    have h := hrow.derives_after hslots.2 (hone hslots.1)
    simpa [wordTerminals] using h

theorem Slot.value_ne_none {slots : List Slot} {xs : List Expr} (h : slots.mapM value = some xs) :
    ∀ s ∈ slots, ∃ x, s.value = some x := by
  induction slots generalizing xs with
  | nil => simp
  | cons s slots ih =>
    simp only [List.mapM_cons, Option.bind_eq_bind, Option.bind_eq_some_iff] at h
    obtain ⟨x, hx, ys, hys, -⟩ := h
    exact List.forall_mem_cons.mpr ⟨⟨x, hx⟩, ih hys⟩

/-- What forms an operator expression is derived from the category of its level. -/
theorem Forms.derives {level : Nat} {ws : List Word} {x : Option Expr} {e : Expr} (h : Forms level ws x)
    (hx : x = some e) : ruleTable.Derives [.cat (categoryAt level)] (wordTerminals ws) := by
  induction h generalizing e with
  | lower hlevel _ ih => exact derives_lower hlevel (ih hx)
  | conditional a b _ _ _ ihx ihy ihz =>
    simp only [Option.bind_eq_some_iff, Option.map_eq_some_iff] at hx
    obtain ⟨x, hx, y, hy, z, hz, -⟩ := hx
    have h : ruleTable.Derives [.cat .conditionalExpr] _ :=
      derives_rule .conditional (by decide)
        ((ihx hx).append (.tok .question ((ihy hy).append (.tok .colon (ihz hz)))))
    have hassignment : ruleTable.Derives [.cat .assignmentExpr] _ := derives_passes (by decide) h
    have hexpr : ruleTable.Derives [.cat (categoryAt 0)] _ := derives_passes (by decide) hassignment
    simpa [wordTerminals] using hexpr
  | binary hop _ _ ihx ihy =>
    simp only [Option.bind_eq_some_iff, Option.map_eq_some_iff] at hx
    obtain ⟨x, hx, y, hy, -⟩ := hx
    simpa [wordTerminals] using derives_binary hop (ihx hx) (ihy hy)
  | unary hop _ ih =>
    obtain ⟨x, hx, -⟩ := Option.map_eq_some_iff.mp hx
    exact derives_rule (c := .unaryExpr) .unary (by decide) ((derives_sign hop).append (ih hx))
  | property dot name _ ih =>
    obtain ⟨x, hx, -⟩ := Option.map_eq_some_iff.mp hx
    have h : ruleTable.Derives [.cat (categoryAt postfixLevel)] _ :=
      derives_rule .property (by decide)
        ((ih hx).append (.tok .dot (.tok .identifier .nil)))
    simpa [wordTerminals] using h
  | index a b _ _ ihx ihkey =>
    simp only [Option.bind_eq_some_iff, Option.map_eq_some_iff] at hx
    obtain ⟨x, hx, key, hkey, -⟩ := hx
    have h : ruleTable.Derives [.cat (categoryAt postfixLevel)] _ :=
      derives_rule .index (by decide)
        ((ihx hx).append (.tok .leftBracket ((ihkey hkey).append (.tok .rightBracket .nil))))
    simpa [wordTerminals] using h
  | @call a b us vs x slots _ hrow _ ihx ihslots =>
    simp only [Option.bind_eq_some_iff, Option.map_eq_some_iff] at hx
    obtain ⟨x, hx, xs, hxs, -⟩ := hx
    have harguments := hrow.derives (fun s hs => ?_)
    · have h : ruleTable.Derives [.cat (categoryAt postfixLevel)] _ :=
        derives_rule .call (by decide) ((ihx hx).append harguments)
      simpa [wordTerminals] using h
    · obtain ⟨y, hy⟩ := Slot.value_ne_none hxs s hs
      cases s with
      | filled ws z => exact derives_rule .positional (by decide) (ihslots ws z hs hy)
      | named => cases hy
  | identifier name =>
    exact derives_primary (derives_rule .identifier (by decide) (.tok .identifier .nil))
  | number s =>
    have h : ruleTable.Derives [.cat .literal] [.integer] :=
      derives_rule .intLiteral (by decide) (.tok .integer .nil)
    exact derives_primary (derives_passes (by decide) h)
  | parenthesized a b _ ih =>
    obtain ⟨x, hx, -⟩ := Option.map_eq_some_iff.mp hx
    have h : ruleTable.Derives [.cat .primary] _ :=
      derives_rule .parenthesized (by decide)
        (.tok .leftParen ((ih hx).append (.tok .rightParen .nil)))
    simpa [wordTerminals] using derives_primary h
  | collection => cases hx

end Dartlet.Syntax
