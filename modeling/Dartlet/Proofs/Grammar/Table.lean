import Dartlet.Proofs.Grammar.Trees

/-!
# The table of the grammar

The rules of the grammar are fit for charts: no body is empty, every category stands for something,
and rules with a single category lead down a ranking of the categories.
-/

namespace Dartlet.Syntax.Grammar

open RuleTable

set_option maxRecDepth 1000

theorem mem_ruleTable {r : Rule} : r ∈ ruleTable.rules ↔ r ∈ rules := by
  simp [ruleTable]

theorem body_ne_nil : ∀ r ∈ rules, r.body ≠ [] := by
  decide

/-- The categories in an order in which each, but for two, has a rule whose categories come before
it, and single categories of rules come before the rules' own. -/
def ordered : List Category :=
  [.directiveWord, .directivePart, .formals, .normal, .modifier, .defaulted, .declarationWord, .variable, .type,
    .types, .block, .tryStatement, .catchPart, .finallyPart, .forParts, .loopVariable, .assignOp, .equalityOp,
    .relationalOp, .additiveOp, .multiplicativeOp, .unaryOp, .stepOp, .arguments, .strings, .listLiteral,
    .setOrMapLiteral, .directive, .directiveParts, .functionBody, .normals, .modifiers, .defaults, .variables,
    .typeArguments, .catches, .literal, .directives, .functionDeclaration, .optionals, .variableDeclarations,
    .simpleStatement, .primary, .declaration, .closedStatement, .postfixExpr, .declarations, .unaryExpr, .unit,
    .multiplicativeExpr, .additiveExpr, .relationalExpr, .equalityExpr, .andExpr, .orExpr, .conditionalExpr,
    .assignmentExpr, .expr, .argument, .mapEntry, .expression, .expressionList, .argumentList, .element,
    .forStart, .elements]

/-- The categories in the order of single categories. -/
def ranking : List Category := ordered ++ [.openStatement, .statement, .statements, .script]

/-- The categories in an order in which each has a rule whose categories come before it. -/
def foundation : List Category := ordered ++ [.statement, .openStatement, .statements, .script]

/-- Whether a category has a rule whose categories are all among some. -/
def buildsOn (known : List Category) (c : Category) : Bool :=
  rules.any (fun r => r.head == c && r.body.all (fun s => match s with
    | .tok _ => true
    | .cat d => known.contains d))

/-- Whether each of some categories has a rule whose categories are known or come before it. -/
def founded : List Category → List Category → Bool
  | _, [] => true
  | known, c :: rest => buildsOn known c && founded (c :: known) rest

theorem derives_of_buildsOn {known : List Category} {c : Category} (h : buildsOn known c = true)
    (hknown : ∀ d ∈ known, ∃ w, ruleTable.Derives [.cat d] w) : ∃ w, ruleTable.Derives [.cat c] w := by
  simp only [buildsOn, List.any_eq_true, Bool.and_eq_true, beq_iff_eq, List.all_eq_true] at h
  obtain ⟨r, hr, rfl, hbody⟩ := h
  have hsymbols (symbols : List Symbol) (hs : ∀ s ∈ symbols, s ∈ r.body) : ∃ w, ruleTable.Derives symbols w := by
    induction symbols with
    | nil => exact ⟨[], .nil⟩
    | cons s rest ih =>
      obtain ⟨w, hw⟩ := ih (fun s' hs' => hs s' (List.mem_cons_of_mem s hs'))
      have hs := hbody s (hs s List.mem_cons_self)
      cases s with
      | tok t => exact ⟨t :: w, .tok t hw⟩
      | cat d =>
        obtain ⟨v, hv⟩ := hknown d (by simpa using hs)
        exact ⟨v ++ w, by simpa using hv.append hw⟩
  obtain ⟨w, hw⟩ := hsymbols r.body (fun _ hs => hs)
  exact ⟨w, .single (mem_ruleTable.mpr hr) hw⟩

theorem derives_of_founded {known order : List Category} (h : founded known order = true)
    (hknown : ∀ d ∈ known, ∃ w, ruleTable.Derives [.cat d] w) :
    ∀ c ∈ order, ∃ w, ruleTable.Derives [.cat c] w := by
  induction order generalizing known with
  | nil => simp
  | cons c rest ih =>
    simp only [founded, Bool.and_eq_true] at h
    have hc := derives_of_buildsOn h.1 hknown
    have hrest := ih h.2 (by simpa using ⟨hc, hknown⟩)
    simpa using ⟨hc, hrest⟩

theorem mem_foundation (c : Category) : c ∈ foundation := by
  cases c <;> decide

theorem proper_ruleTable : ruleTable.Proper where
  nonempty r hr := body_ne_nil r (mem_ruleTable.mp hr)
  productive c := by
    have h : founded [] foundation = true := by decide
    exact derives_of_founded h (by simp) c (mem_foundation c)

/-- The rank of a category. -/
def rank (c : Category) : Nat := ranking.idxOf c

/-- Whether a rule leads down, if its body is a single category. -/
def descends (r : Rule) : Bool :=
  match r.body with
  | [.cat c] => rank c < rank r.head
  | _ => true

theorem ranked_ruleTable : ruleTable.Ranked rank where
  descends r hr c hc := by
    have h : rules.all descends = true := by decide
    have hdown := List.all_eq_true.mp h r (mem_ruleTable.mp hr)
    rw [descends, hc] at hdown
    exact of_decide_eq_true hdown
  bounded c := by
    have h : ranking.length ≤ ruleTable.rules.size := by decide
    exact List.idxOf_le_length.trans h

end Dartlet.Syntax.Grammar
