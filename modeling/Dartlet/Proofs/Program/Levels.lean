import Mathlib.Data.List.Chain
import Dartlet.Proofs.Program.Kinds

/-!
# How tightly expressions bind

Operators have levels: an operand binds tighter than the operator that it belongs to, or as tightly if it
is the left one of an operator that chains. The categories of expressions have levels of the same kind,
and those of statements tell whether a statement may end in an `if` without `else`. The rules of the
grammar respect both.
-/

namespace Dartlet.Syntax

set_option maxRecDepth 1000

/-- How tightly a binary operator binds. -/
def BinaryOp.level : BinaryOp → Nat
  | .or => 1
  | .and => 2
  | .eq | .ne => 3
  | .lt | .le | .gt | .ge => 4
  | .add | .sub => 5
  | .mul | .div | .truncDiv | .rem => 6
  | .other _ => 0

/-- Whether the left operand of a binary operator may be one of the same level. -/
def BinaryOp.chains : BinaryOp → Bool
  | .eq | .ne | .lt | .le | .gt | .ge => false
  | _ => true

/-- How tightly the left operand of a binary operator binds at least. -/
def BinaryOp.leftLevel (op : BinaryOp) : Nat := if op.chains then op.level else op.level + 1

/-- The level of prefix operators. -/
def prefixLevel : Nat := 7

/-- The level of postfix expressions, the tightest one. -/
def postfixLevel : Nat := 8

/-- How tightly an expression binds. Assignments, conditionals, `throw` and functions with an arrow bind
most loosely. -/
def Expr.level : Expr → Nat
  | .assignment .. | .conditional .. | .throwing .. | .misplaced .. => 0
  | .functionLiteral _ _ (.expression ..) | .functionLiteral _ _ (.misplaced ..) => 0
  | .binary _ op _ _ => op.level
  | .unary .. => prefixLevel
  | _ => postfixLevel

/-- Whether a statement ends in an `if` without `else`, to which an `else` after it would belong. -/
def Stmt.endsOpen : Stmt → Bool
  | .conditional _ _ _ none => true
  | .conditional _ _ _ (some e) => e.endsOpen
  | .whileLoop _ _ body => body.endsOpen
  | .forLoop _ _ _ _ body => body.endsOpen
  | .forIn _ _ _ body _ => body.endsOpen
  | _ => false

/-- Whether a part of a string is plain text. -/
def Part.isText : Part → Bool
  | .text _ => true
  | .code _ => false

/-- The form of a construct: operands bind tightly enough, receivers are postfix expressions, what is
written to is a place, an `else` belongs to the nearest `if`, a `try` has a clause or a `finally`, and a
string with parts has an expression among them and no two texts side by side. -/
def Node.IsShaped : Node → Prop
  | .expr (.binary _ op x y) => 0 < op.level ∧ op.leftLevel ≤ x.level ∧ op.level < y.level
  | .expr (.unary _ op x) => prefixLevel ≤ x.level ∧ (op.isStep = true → x.isPlace = true)
  | .expr (.postfixed _ _ x) => x.isPlace = true
  | .expr (.assignment _ _ target _) => target.isPlace = true
  | .expr (.property _ x _) | .expr (.index _ x _) | .expr (.call _ x _) | .expr (.methodCall _ x _ _) =>
    postfixLevel ≤ x.level
  | .expr (.interpolation _ parts) =>
    (∃ x, .code x ∈ parts) ∧ parts.IsChain (fun p q => ¬(p.isText = true ∧ q.isText = true))
  | .stmt (.conditional _ _ t (some _)) => t.endsOpen = false
  | .stmt (.trying _ _ clauses finallyBlock) => clauses ≠ [] ∨ finallyBlock.isSome = true
  | _ => True

/-! ### Categories -/

/-- How tightly the expressions of a category bind at least. -/
def Category.level : Category → Nat
  | .orExpr => 1
  | .andExpr => 2
  | .equalityExpr => 3
  | .relationalExpr => 4
  | .additiveExpr => 5
  | .multiplicativeExpr => 6
  | .unaryExpr => prefixLevel
  | .postfixExpr | .primary | .literal | .listLiteral | .setOrMapLiteral => postfixLevel
  | _ => 0

theorem Category.level_le (c : Category) : c.level ≤ postfixLevel := by
  cases c <;> decide

/-- Whether no statement of a category ends in an `if` without `else`. -/
def Category.isClosed : Category → Bool
  | .statement | .openStatement => false
  | _ => true

/-- How tightly the expressions that a symbol stands for bind at least. -/
def Symbol.level : Symbol → Nat
  | .cat c => c.level
  | .tok _ => 0

/-- Whether no statement that a symbol stands for ends in an `if` without `else`. -/
def Symbol.isClosed : Symbol → Bool
  | .cat c => c.isClosed
  | .tok _ => true

/-- Whether the operators that a symbol stands for go with operands of some symbols. -/
def joins (head : Category) (left operator right : Symbol) : Bool :=
  match operator.kind with
  | .token terminals =>
    terminals.all (Terminal.symbols.map Prod.snd).contains &&
      Terminal.symbols.all (fun entry => !terminals.contains entry.2 ||
        let op := BinaryOp.ofSpelling entry.1
        decide (0 < op.level ∧ head.level ≤ op.level ∧ op.leftLevel ≤ left.level ∧ op.level < right.level))
  | _ => false

/-- Whether the parts of a rule are as tight and as closed as what it builds for its category needs. -/
def Construct.respectsLevels (head : Category) : Construct → List Symbol → Bool
  | .same, [s] | .same, [_, s] => decide (head.level ≤ s.level) && (!head.isClosed || s.isClosed)
  | .arrowFunction, _ | .throwing, _ | .assignment, _ | .conditional, _ => head.level == 0
  | .binary, [x, op, y] => joins head x op y
  | .unary, [_, x] => decide (head.level ≤ prefixLevel ∧ prefixLevel ≤ x.level)
  | .property, [x, _, _] | .call, [x, _] | .index, [x, _, _, _] => decide (postfixLevel ≤ x.level)
  | .conditionalStmt, [_, _, _, _, _] => !head.isClosed
  | .conditionalStmt, [_, _, _, _, t, _, e] => t.isClosed && (!head.isClosed || e.isClosed)
  | .whileStmt, [_, _, _, _, body] | .forStmt, [_, _, _, _, body] => !head.isClosed || body.isClosed
  | _, _ => true

theorem Grammar.respectsLevels : ∀ r ∈ rules, r.construct.respectsLevels r.head r.body = true := by
  decide

/-- The operators that go with operands of some symbols bind as these say. -/
theorem joins_ok {head : Category} {left operator right : Symbol} {t : Token} (h : joins head left operator right = true)
    (ht : (Piece.token t).Fits operator.kind) :
    0 < (BinaryOp.ofSpelling t.text).level ∧ head.level ≤ (BinaryOp.ofSpelling t.text).level ∧
      (BinaryOp.ofSpelling t.text).leftLevel ≤ left.level ∧ (BinaryOp.ofSpelling t.text).level < right.level := by
  unfold joins at h
  split at h
  · rename_i terminals hkind
    rw [hkind] at ht
    obtain ⟨_, ⟨⟩, hterminal, hspelled⟩ := ht
    rw [Bool.and_eq_true, List.all_eq_true, List.all_eq_true] at h
    have hsymbol := hspelled (by simpa using h.1 _ hterminal)
    simpa [hterminal] using h.2 _ hsymbol
  · cases h

end Dartlet.Syntax
