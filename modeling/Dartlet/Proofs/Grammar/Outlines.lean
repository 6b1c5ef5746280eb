import Dartlet.Proofs.Grammar.Brackets

/-!
# Expressions and statements told apart

What is inside brackets tells nothing about which category terminals belong to. A machine that only
looks at the terminals outside of brackets, with a few modes and one counter, reads every expression
to its end. Where a text begins that could be a statement without an expression, the machine gets
stuck, or it ends somewhere else. So no expression is a list of statements, unless it begins with a
brace, and with a semicolon after it an expression is no statement but an expression statement.
-/

namespace Dartlet.Syntax

/-- What may come next outside of brackets. Whether an operand belongs to a comparison is recorded,
since comparisons do not chain. -/
inductive Mode where
  /-- An operand at the beginning of a statement, where a brace begins a block. -/
  | first
  /-- An operand. -/
  | operand (compared : Bool)
  /-- The brackets of a collection, or types before them. -/
  | collection (compared : Bool)
  /-- Types, and then the brackets of a collection. -/
  | typing (compared : Bool)
  /-- The name of a member. -/
  | member (compared : Bool)
  /-- An operator after an operand. -/
  | complete (compared : Bool)
  /-- An operator after parentheses, or the body of a function whose parameters they are. -/
  | closed (compared : Bool)
  /-- Nothing. -/
  | done
  deriving DecidableEq, Repr

namespace Mode

/-- All modes. -/
def all : List Mode :=
  [first, done] ++ [operand, collection, typing, member, complete, closed].flatMap (fun m => [m false, m true])

theorem mem_all (m : Mode) : m ∈ all := by
  cases m with
  | first => decide
  | done => decide
  | _ b => cases b <;> decide

/-- What a terminal does outside of brackets: the bracket that it opens, if any, by what closes it, the
mode after it (and after the bracket), and how it changes the number of question marks without a colon. -/
abbrev Effect := Option Terminal × Mode × Int

/-- A terminal that goes on in another mode. -/
def go (m : Mode) : Option Effect := some (none, m, 0)

/-- A terminal that opens a bracket. -/
def enter (closer : Terminal) (m : Mode) : Option Effect := some (some closer, m, 0)

/-- The brackets of a collection, or types before them. -/
def collectionNext (compared : Bool) : Terminal → Option Effect
  | .leftBracket => enter .rightBracket (complete compared)
  | .leftBrace => enter .rightBrace (complete compared)
  | .lt => go (typing compared)
  | _ => none

/-- What an operand may begin with. -/
def operandNext (compared : Bool) : Terminal → Option Effect
  | .identifier | .integer | .double | .string | .kwNull | .kwTrue | .kwFalse => go (complete compared)
  | .minus | .bang | .inc | .dec => go (operand compared)
  | .kwThrow => go (operand false)
  | .kwConst => go (collection compared)
  | .leftParen => enter .rightParen (closed compared)
  | t => collectionNext compared t

/-- What may follow an operand. -/
def completeNext (compared : Bool) : Terminal → Option Effect
  | .assign | .plusAssign | .minusAssign | .starAssign | .slashAssign | .truncAssign | .percentAssign
  | .or | .and | .eq | .ne => go (operand false)
  | .lt | .le | .gt | .ge => if compared then none else go (operand true)
  | .plus | .minus | .star | .slash | .tildeSlash | .percent => go (operand compared)
  | .question => some (none, operand false, 1)
  | .colon => some (none, operand false, -1)
  | .inc | .dec | .string => go (complete compared)
  | .dot => go (member compared)
  | .leftParen => enter .rightParen (complete compared)
  | .leftBracket => enter .rightBracket (complete compared)
  | .semicolon => go done
  | _ => none

/-- What a terminal does outside of brackets, unless it does not fit. -/
def next (t : Terminal) : Mode → Option Effect
  | first => if t = .leftBrace then none else operandNext false t
  | operand compared => operandNext compared t
  | collection compared => collectionNext compared t
  | typing compared =>
    if t ∈ [.identifier, .kwVoid, .question, .comma, .lt, .gt] then go (typing compared) else collectionNext compared t
  | member compared => if t = .identifier then go (complete compared) else none
  | complete compared => completeNext compared t
  | closed compared =>
    match t with
    | .leftBrace => enter .rightBrace (complete compared)
    | .arrow => go (operand false)
    | t => completeNext compared t
  | done => none

end Mode

/-- How far terminals have been read: what closes the brackets that are open, the mode outside of them,
and the number of question marks without a colon there. -/
structure Outline where
  opened : List Terminal
  mode : Mode
  balance : Int
  deriving DecidableEq, Repr

namespace Outline

/-- One more terminal is read, unless it does not fit. -/
def next (o : Outline) (t : Terminal) : Option Outline :=
  match o.opened with
  | [] => (o.mode.next t).map (fun (closer?, mode, change) => ⟨closer?.toList, mode, o.balance + change⟩)
  | closer :: outer => (Terminal.track (closer :: outer) t).map (fun opened => { o with opened })

/-- All terminals are read, unless one does not fit. -/
def read (o : Outline) (w : List Terminal) : Option Outline := w.foldlM next o

/-- More question marks without a colon. -/
def shift (o : Outline) (n : Int) : Outline := { o with balance := n + o.balance }

variable {o : Outline} {v w : List Terminal}

theorem read_append (o : Outline) (v w : List Terminal) : o.read (v ++ w) = (o.read v).bind (read · w) :=
  List.foldlM_append

theorem read_shift (o : Outline) (n : Int) (w : List Terminal) : (o.shift n).read w = (o.read w).map (shift · n) := by
  have hnext (o : Outline) (t : Terminal) : (o.shift n).next t = (o.next t).map (shift · n) := by
    obtain ⟨opened, mode, balance⟩ := o
    cases opened with
    | nil => simp [next, shift, Function.comp_def, Int.add_assoc]
    | cons closer outer => simp [next, shift, Function.comp_def]
  induction w generalizing o with
  | nil => rfl
  | cons t w ih =>
    simp only [read, List.foldlM_cons, hnext] at ih ⊢
    cases o.next t with
    | none => rfl
    | some o' => exact ih o'

/-- What is inside brackets only opens and closes brackets there. -/
theorem read_inside (h : Nested w) (hinside : o.opened ≠ []) : o.read w = some o := by
  have hread {opened opened' : List Terminal} (h : openAfter opened w = some opened') :
      ({ o with opened := opened ++ o.opened } : Outline).read w = some { o with opened := opened' ++ o.opened } := by
    clear * - h hinside
    induction w generalizing opened with
    | nil =>
      cases h
      rfl
    | cons t w ih =>
      obtain ⟨now, ht, hw⟩ := openAfter_cons_eq_some.mp h
      have hstep : next { o with opened := opened ++ o.opened } t = some { o with opened := now ++ o.opened } := by
        obtain ⟨closer, outer, heq⟩ := List.exists_cons_of_ne_nil (List.append_ne_nil_of_right_ne_nil opened hinside)
        have htrack := Terminal.track_append o.opened ht
        rw [heq] at htrack
        simp only [next, heq, htrack, Option.map_some]
      rw [read, List.foldlM_cons, hstep]
      exact ih hw
  exact hread h

end Outline

namespace Mode

/-- Where terminals may lead outside of brackets: to a mode with some more question marks without a colon, or
nowhere, if one of them does not fit. -/
abbrev Ends := List (Option (Mode × Int))

/-- The modes after an expression. -/
def operands : List Mode := [complete false, complete true, closed false, closed true]

/-- Where an expression, or a part of one, leads to, and what could be the beginning of a declaration. -/
def operandEnds? (compared : Bool) : Category → Option Ends
  | .expr | .assignmentExpr | .conditionalExpr | .orExpr | .andExpr | .equalityExpr | .relationalExpr =>
    if compared then none else some (operands.map (fun m => some (m, 0)))
  | .additiveExpr | .multiplicativeExpr | .unaryExpr | .postfixExpr | .primary | .literal | .strings | .listLiteral
  | .setOrMapLiteral => some [some (complete compared, 0), some (closed compared, 0)]
  | .formals => some [some (closed compared, 0)]
  | .unaryOp => some [some (operand compared, 0)]
  | .typeArguments => some [some (typing compared, 0)]
  | .type | .types => some [none, some (complete compared, 0), some (operand false, 1)]
  | .variable | .variables => if compared then none else some (none :: operands.map (fun m => some (m, 0)))
  | _ => none

/-- Where what comes after an operand leads to. -/
def completeEnds? (compared : Bool) : Category → Option Ends
  | .arguments | .formals | .stepOp => some [some (complete compared, 0)]
  | .assignOp | .equalityOp => some [some (operand false, 0)]
  | .relationalOp => if compared then none else some [some (operand true, 0)]
  | .additiveOp | .multiplicativeOp => some [some (operand compared, 0)]
  | .typeArguments | .variable | .variables | .block | .functionBody => some [none]
  | _ => none

/-- Where what a category stands for leads to from a mode; nothing is said where the machine does not come
across the category. -/
def ends? (c : Category) : Mode → Option Ends
  | first =>
    match c with
    | .block | .openStatement | .tryStatement | .functionDeclaration => some [none]
    | .declarationWord => some [none, some (collection false, 0)]
    | .variableDeclarations => some (none :: operands.map (fun m => some (m, 1)))
    | .simpleStatement | .closedStatement | .statement | .statements | .script =>
      some [none, some (done, 0), some (done, 1)]
    | _ => (operandEnds? false c).map (none :: ·)
  | operand compared => operandEnds? compared c
  | collection compared =>
    match c with
    | .listLiteral | .setOrMapLiteral => some [some (complete compared, 0)]
    | .typeArguments => some [some (typing compared, 0)]
    | .variable | .variables | .type => some [none]
    | _ => none
  | typing compared => if c ∈ [.type, .types, .typeArguments] then some [some (typing compared, 0)] else none
  | member _ => none
  | complete compared => completeEnds? compared c
  | closed compared =>
    match c with
    | .block => some [some (complete compared, 0)]
    | .functionBody => none
    | _ => completeEnds? compared c
  | done => some [none]

end Mode

namespace Outline

/-- The outlines outside of brackets that ends are. -/
def ofEnd (balance : Int) : Option (Mode × Int) → Option Outline :=
  Option.map (fun (mode, change) => ⟨[], mode, balance + change⟩)

/-- Whether reading what symbols stand for always leads to an outline with a property, as far as the ends of
categories tell. -/
def leads (property : Option Outline → Bool) : Option Outline → List Symbol → Bool
  | none, _ => property none
  | some o, [] => property (some o)
  | some o, .tok t :: rest => leads property (o.next t) rest
  | some o, .cat c :: rest =>
    match o.opened with
    | _ :: _ => leads property (some o) rest
    | [] =>
      match o.mode.ends? c with
      | none => false
      | some ends => ends.all (fun e => leads property (ofEnd o.balance e) rest)

theorem leads_none (property : Option Outline → Bool) (symbols : List Symbol) :
    leads property none symbols = property none := by
  cases symbols <;> rfl

/-- What is said of the ends of a category is so for each of its rules. -/
def Kept (r : Rule) (m : Mode) : Prop :=
  ∀ ends ∈ m.ends? r.head, leads (fun o => o ∈ ends.map (ofEnd 0)) (some ⟨[], m, 0⟩) r.body = true

instance (r : Rule) (m : Mode) : Decidable (Kept r m) := by
  unfold Kept
  infer_instance

end Outline

open Grammar Outline

theorem kept_rules : ∀ r ∈ rules, ∀ m ∈ Mode.all, Kept r m := by
  decide +kernel

/-- Reading what symbols stand for leads where the ends of their categories tell. -/
theorem property_of_derives {symbols : List Symbol} {w : List Terminal} (h : ruleTable.Derives symbols w)
    {property : Option Outline → Bool} {o : Option Outline} (ho : leads property o symbols = true) :
    property (o.bind (Outline.read · w)) = true := by
  induction h generalizing property o with
  | nil =>
    cases o with
    | none => rwa [leads_none] at ho
    | some o => exact ho
  | @tok rest w t _ ih =>
    cases o with
    | none => rwa [leads_none] at ho
    | some o =>
      rw [Option.bind_some, Outline.read, List.foldlM_cons]
      exact ih ho
  | @cat r rest v w hr hbody _ ihbody ihrest =>
    cases o with
    | none => rwa [leads_none] at ho
    | some o =>
      rw [Option.bind_some, Outline.read_append]
      rw [leads] at ho
      split at ho
      · -- inside brackets nothing changes
        rename_i closer outer hopened
        have hnested := openAfter_of_derives hbody (nested_body r (mem_ruleTable.mp hr))
        rw [Outline.read_inside hnested (by simp [hopened])]
        exact ihrest ho
      · rename_i hopened
        split at ho
        · cases ho
        · rename_i ends hends
          have hkept := kept_rules r (mem_ruleTable.mp hr) o.mode (Mode.mem_all _) ends hends
          have hmem := of_decide_eq_true (ihbody hkept)
          obtain ⟨e, he, heq⟩ := List.mem_map.mp hmem
          rw [Option.bind_some] at heq
          have hread : o.read v = ofEnd o.balance e := by
            obtain ⟨opened, mode, balance⟩ := o
            cases hopened
            have hshift := read_shift ⟨[], mode, 0⟩ balance v
            rw [← heq] at hshift
            cases e <;> simpa [shift, ofEnd] using hshift
          rw [hread]
          exact ihrest (List.all_eq_true.mp ho e he)

/-! ### Expressions at the beginning of a statement -/

/-- Where a statement begins. -/
def Outline.start : Outline := ⟨[], .first, 0⟩

variable {w : List Terminal}

/-- An expression that does not begin with a brace is read to its end where a statement begins, and an operator, or
a semicolon, may follow it. -/
theorem read_expr (h : ruleTable.Derives [.cat .expr] w) (hbrace : w.head? ≠ some .leftBrace) :
    ∃ m ∈ Mode.operands, Outline.start.read w = some ⟨[], m, 0⟩ := by
  have hread : (⟨[], .operand false, 0⟩ : Outline).read w ∈ Mode.operands.map (fun m => some ⟨[], m, 0⟩) := by
    have hleads : leads (fun o => o ∈ Mode.operands.map (fun m => some ⟨[], m, 0⟩)) (some ⟨[], .operand false, 0⟩)
        [.cat .expr] = true := by
      decide
    exact of_decide_eq_true (property_of_derives h hleads)
  have hstart : Outline.start.read w = (⟨[], .operand false, 0⟩ : Outline).read w := by
    cases w with
    | nil => cases h.eq_nil proper_ruleTable rfl
    | cons t w =>
      have ht : t ≠ .leftBrace := fun heq => hbrace (congrArg some heq)
      simp [Outline.read, Outline.start, Outline.next, Mode.next, ht]
  obtain ⟨m, hm, heq⟩ := List.mem_map.mp hread
  exact ⟨m, hm, hstart.trans heq.symm⟩

/-- An expression is no list of statements, unless it begins with a brace. -/
theorem not_script_of_expr (h : ruleTable.Derives [.cat .expr] w) (hbrace : w.head? ≠ some .leftBrace) :
    ¬ Sentence .script w := by
  intro hscript
  obtain ⟨m, hm, hread⟩ := read_expr h hbrace
  rcases sentence_iff.mp hscript with hw | ⟨rfl, -⟩
  · have hleads : leads (fun o => o ∉ Mode.operands.map (fun m => some ⟨[], m, 0⟩)) (some Outline.start)
        [.cat .script] = true := by
      decide
    have hnot := of_decide_eq_true (property_of_derives hw hleads)
    rw [Option.bind_some, hread] at hnot
    exact hnot (List.mem_map_of_mem hm)
  · cases h.eq_nil proper_ruleTable rfl

/-- An expression with a semicolon after it ends a statement, so it is not what symbols stand for that never do. -/
theorem not_derives_of_expr (h : ruleTable.Derives [.cat .expr] w) (hbrace : w.head? ≠ some .leftBrace)
    {symbols : List Symbol} (hleads : leads (fun o => o ≠ some ⟨[], .done, 0⟩) (some Outline.start) symbols = true) :
    ¬ ruleTable.Derives symbols (w ++ [.semicolon]) := by
  intro hsymbols
  obtain ⟨m, hm, hread⟩ := read_expr h hbrace
  have hsemicolon : ∀ m ∈ Mode.operands, (⟨[], m, 0⟩ : Outline).read [.semicolon] = some ⟨[], .done, 0⟩ := by
    decide
  have hend : Outline.start.read (w ++ [.semicolon]) = some ⟨[], .done, 0⟩ := by
    rw [Outline.read_append, hread, Option.bind_some, hsemicolon m hm]
  exact of_decide_eq_true (property_of_derives hsymbols hleads) hend

end Dartlet.Syntax
