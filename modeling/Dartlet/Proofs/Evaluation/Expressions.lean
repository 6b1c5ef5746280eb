import Dartlet.Proofs.Evaluation.Discipline

/-!
# Expressions keep a discipline

Every kind of expression keeps the invariant of a discipline, provided that the engine that does the
work of its parts does. The constructs in the expression are good because the expression is.
-/

namespace Dartlet.Discipline

open Dartlet.Action
open Dartlet.Syntax (Argument AssignOp BinaryOp Element Expr Node Part UnaryOp)

set_option linter.unusedSectionVars false

variable [Host]

variable {d : Discipline} {e : Engine}

/-! ### Places -/

/-- A place that is a name keeps the expression it came from, which is evaluated again to read it. -/
def GoodPlace (d : Discipline) : Place → Prop
  | .named target _ => d.Good (.expr target)
  | .member .. | .element .. => True

theorem resolve_ensures (h : d.Obeyed e) (c : Context) {n : Node} {x : Expr} (hn : d.Good n)
    (hx : d.Good (.expr x)) (hraises : x.isPlace = false → n.Raises (.unsupported (.assignment x.kind))) :
    Ensures d.Inv d.GoodPlace (Place.resolve e c x) := by
  cases x with
  | identifier l name => exact ensures_pure hx
  | property l receiver name =>
    refine (h.eval c receiver (d.good_part hx (by simp [Node.children, Expr.children]))).bind (fun v => ?_)
    exact ensures_pure trivial
  | index l receiver key =>
    refine (h.eval c receiver (d.good_part hx (by simp [Node.children, Expr.children]))).bind (fun v => ?_)
    refine (h.eval c key (d.good_part hx (by simp [Node.children, Expr.children]))).bind (fun k => ?_)
    exact ensures_pure trivial
  | _ => exact fail_keeps hn (hraises rfl)

theorem read_keeps (h : d.Obeyed e) (c : Context) {place : Place} (hplace : d.GoodPlace place) :
    Keeps d.Inv (place.read e c) := by
  cases place with
  | named target name => exact h.eval c target hplace
  | member receiver name => exact d.getMember_keeps receiver name
  | element receiver key => exact invokeMember_keeps h c.depth receiver "[]" [key]

theorem write_keeps (h : d.Obeyed e) (c : Context) (v : Value) (place : Place) :
    Keeps d.Inv (place.write e c v) := by
  cases place with
  | named target name => exact d.assign_keeps c.scope name v
  | member receiver name => exact d.setMember_keeps receiver name v
  | element receiver key => exact (invokeMember_keeps h c.depth receiver "[]=" [key, v]).bind (fun _ => keeps_pure v)

theorem evalAssignment_keeps (h : d.Obeyed e) (c : Context) {l : Syntax.Location} {op : AssignOp}
    {target value : Expr} (hx : d.Good (.expr (.assignment l op target value))) :
    Keeps d.Inv (evalAssignment e c op target value) := by
  have htarget : d.Good (.expr target) := d.good_part hx (by simp [Node.children, Expr.children])
  have hvalue : d.Good (.expr value) := d.good_part hx (by simp [Node.children, Expr.children])
  refine (resolve_ensures h c hx htarget (Node.Raises.target l op target value)).bind (fun place hplace => ?_)
  cases op with
  | plain => exact (h.eval c value hvalue).bind (fun v => write_keeps h c v place)
  | compound op =>
    refine (read_keeps h c hplace).bind (fun current => ?_)
    refine (h.eval c value hvalue).bind (fun operand => ?_)
    exact (d.stable.applyBinary op current operand).bind (fun v => write_keeps h c v place)

theorem stepped_keeps (d : Discipline) (op : UnaryOp) (current : Value) : Keeps d.Inv (stepped op current) :=
  (d.stable.requireNumber _ _).bind (fun _ => d.stable.applyBinary _ _ _)

theorem evalUnary_keeps (h : d.Obeyed e) (c : Context) {l : Syntax.Location} {op : UnaryOp} {operand : Expr}
    (hx : d.Good (.expr (.unary l op operand))) : Keeps d.Inv (evalUnary e c op operand) := by
  have hoperand : d.Good (.expr operand) := d.good_part hx (by simp [Node.children, Expr.children])
  refine ensures_ite (fun hstep => ?_) (fun hstep => ?_)
  · refine (resolve_ensures h c hx hoperand (.stepped l op operand hstep)).bind (fun place hplace => ?_)
    refine (read_keeps h c hplace).bind (fun current => ?_)
    exact (d.stepped_keeps op current).bind (fun v => write_keeps h c v place)
  · refine (h.eval c operand hoperand).bind (fun v => ?_)
    cases op with
    | negate => exact fun s hs => d.stable.ofExcept (ordinarily_unaryResult s v (.inl rfl)) s hs
    | not => exact fun s hs => d.stable.ofExcept (ordinarily_unaryResult s v (.inr rfl)) s hs
    | increment => exact absurd rfl hstep
    | decrement => exact absurd rfl hstep
    | other spelling => exact fail_keeps hx (.operator l spelling operand)

theorem evalPostfixed_keeps (h : d.Obeyed e) (c : Context) {l : Syntax.Location} {op : UnaryOp} {operand : Expr}
    (hx : d.Good (.expr (.postfixed l op operand))) : Keeps d.Inv (evalPostfixed e c op operand) := by
  have hoperand : d.Good (.expr operand) := d.good_part hx (by simp [Node.children, Expr.children])
  refine (resolve_ensures h c hx hoperand (.postfixed l op operand)).bind (fun place hplace => ?_)
  refine (read_keeps h c hplace).bind (fun current => ?_)
  refine (d.stepped_keeps op current).bind (fun v => ?_)
  exact (write_keeps h c v place).bind (fun _ => keeps_pure current)

/-! ### Collections -/

theorem elementsOf?_keeps (d : Discipline) (v : Value) : Keeps d.Inv (elementsOf? v) := by
  intro s hs
  cases v with
  | object a =>
    simp only [elementsOf?]
    split
    · exact (d.stable.fromHostAll _).bind (fun _ => keeps_pure _) s hs
    · exact ⟨trivial, hs⟩
  | _ => exact ⟨trivial, hs⟩

theorem spreadOut_keeps (d : Discipline) (source : Value) (nullAware : Bool) :
    Keeps d.Inv (spreadOut source nullAware) := by
  cases source with
  | null => exact ensures_ite (fun _ => keeps_pure []) (fun _ => d.stable.mismatch rfl)
  | map a => exact fun _ hs => ⟨trivial, hs⟩
  | _ =>
    refine (d.elementsOf?_keeps _).bind (fun items => ?_)
    cases items with
    | some items => exact keeps_pure _
    | none => exact d.stable.complaint (fun _ => rfl)

theorem stage_keeps (h : d.Obeyed e) (c : Context) :
    ∀ x : Element, d.Good (.element x) → Keeps d.Inv (stage e c x)
  | .plain value, hx => by
    exact (h.eval c value (d.good_part hx (by simp [Node.children, Element.children]))).bind
      (fun _ => keeps_pure _)
  | .entry _ key value _ _, hx => by
    refine (h.eval c key (d.good_part hx (by simp [Node.children, Element.children]))).bind (fun k => ?_)
    split
    · exact keeps_pure []
    · refine (h.eval c value (d.good_part hx (by simp [Node.children, Element.children]))).bind (fun v => ?_)
      split
      · exact keeps_pure []
      · exact keeps_pure _
  | .spread _ source nullAware, hx => by
    refine (h.eval c source (d.good_part hx (by simp [Node.children, Element.children]))).bind (fun v => ?_)
    exact d.spreadOut_keeps v nullAware
  | .nullAware _ value, hx => by
    refine (h.eval c value (d.good_part hx (by simp [Node.children, Element.children]))).bind (fun v => ?_)
    split
    · exact keeps_pure []
    · exact keeps_pure _
  | .conditional _ condition t none, hx => by
    have ht : d.Good (.element t) := d.good_part hx (by simp [Node.children, Element.children])
    refine (h.eval c condition (d.good_part hx (by simp [Node.children, Element.children]))).bind (fun v => ?_)
    refine (d.stable.requireBool v _).bind (fun b => ?_)
    exact ensures_ite (fun _ => stage_keeps h c t ht) (fun _ => keeps_pure [])
  | .conditional _ condition t (some x), hx => by
    have ht : d.Good (.element t) := d.good_part hx (by simp [Node.children, Element.children])
    have he : d.Good (.element x) := d.good_part hx (by simp [Node.children, Element.children])
    refine (h.eval c condition (d.good_part hx (by simp [Node.children, Element.children]))).bind (fun v => ?_)
    refine (d.stable.requireBool v _).bind (fun b => ?_)
    exact ensures_ite (fun _ => stage_keeps h c t ht) (fun _ => stage_keeps h c x he)
  | .loop l header body, hx => fail_keeps hx (.loop l header body)

theorem stageAll_keeps (h : d.Obeyed e) (c : Context) (elements : List Element)
    (hx : ∀ x ∈ elements, d.Good (.element x)) : Keeps d.Inv (stageAll e c elements) := by
  induction elements with
  | nil => exact keeps_pure []
  | cons x rest ih =>
    refine (stage_keeps h c x (hx x List.mem_cons_self)).bind (fun first => ?_)
    exact (ih (fun y hy => hx y (List.mem_cons_of_mem x hy))).bind (fun more => keeps_pure _)

/-- Elements of the wrong kind for a literal are an ordinary error. -/
theorem orMismatch_ensures {α : Type} (d : Discipline) {r : Except Mismatch α}
    (hr : ∀ m, r = .error m → (Fault.mismatch m).isOrdinary = true) :
    Ensures d.Inv (fun a => r = .ok a) (orMismatch r) := by
  cases r with
  | ok a => exact ensures_pure rfl
  | error m => exact d.stable.mismatch (hr m rfl)

private theorem listItems_error {staged : List Staged} {m : Mismatch} (h : listItems staged = .error m) :
    m = .entryInList := by
  induction staged generalizing m with
  | nil => cases h
  | cons x rest ih =>
    cases x with
    | entry k v => cases h; rfl
    | item v =>
      cases hrest : listItems rest with
      | ok items => simp [listItems, hrest, Except.map] at h
      | error m' =>
        simp only [listItems, hrest, Except.map, Except.error.injEq] at h
        exact h ▸ ih hrest

private theorem setMembers_error {staged : List Staged} {members : List Value} {m : Mismatch}
    (h : setMembers members staged = .error m) : m = .entryInSet := by
  induction staged generalizing members with
  | nil => cases h
  | cons x rest ih =>
    cases x with
    | entry k v => cases h; rfl
    | item v => exact ih h

private theorem mapEntries_error {staged : List Staged} {entries : List (Value × Value)} {m : Mismatch}
    (h : mapEntries entries staged = .error m) : m = .elementInMap := by
  induction staged generalizing entries with
  | nil => cases h
  | cons x rest ih =>
    cases x with
    | entry k v => exact ih h
    | item v => cases h; rfl

/-- However a set literal is laid out, it has no equal members. -/
private theorem setMembers_distinct {staged : List Staged} {members found : List Value}
    (hmembers : Members.Distinct members) (h : setMembers members staged = .ok found) : Members.Distinct found := by
  induction staged generalizing members with
  | nil =>
    cases h
    exact hmembers
  | cons x rest ih =>
    cases x with
    | entry k v => cases h
    | item v => exact ih (hmembers.add v) h

/-- However a map literal is laid out, it has no equal keys. -/
private theorem mapEntries_distinct {staged : List Staged} {entries found : List (Value × Value)}
    (hentries : Entries.Distinct entries) (h : mapEntries entries staged = .ok found) : Entries.Distinct found := by
  induction staged generalizing entries with
  | nil =>
    cases h
    exact hentries
  | cons x rest ih =>
    cases x with
    | entry k v => exact ih (hentries.put k v) h
    | item v => cases h

theorem evalList_keeps (h : d.Obeyed e) (c : Context) (elements : List Element)
    (hx : ∀ x ∈ elements, d.Good (.element x)) : Keeps d.Inv (evalList e c elements) := by
  refine (stageAll_keeps h c elements hx).bind (fun staged => ?_)
  refine (d.orMismatch_ensures (fun m hm => ?_)).bind (fun items _ => d.stable.newList _)
  rw [listItems_error hm]
  rfl

theorem evalSetOrMap_keeps (h : d.Obeyed e) (c : Context) (elements : List Element)
    (typeArguments : List String) (hx : ∀ x ∈ elements, d.Good (.element x)) :
    Keeps d.Inv (evalSetOrMap e c elements typeArguments) := by
  refine (stageAll_keeps h c elements hx).bind (fun staged => ?_)
  split
  · exact ensures_ite (fun _ => d.stable.newSet Members.distinct_nil) (fun _ => d.stable.newMap Entries.distinct_nil)
  · refine (d.orMismatch_ensures (fun m hm => ?_)).bind
      (fun entries hentries => d.stable.newMap (mapEntries_distinct Entries.distinct_nil hentries))
    rw [mapEntries_error hm]
    rfl
  · refine (d.orMismatch_ensures (fun m hm => ?_)).bind
      (fun members hmembers => d.stable.newSet (setMembers_distinct Members.distinct_nil hmembers))
    rw [setMembers_error hm]
    rfl

theorem evalParts_keeps (h : d.Obeyed e) (c : Context) (parts : List Part)
    (hx : ∀ p ∈ parts, d.Good (.part p)) : Keeps d.Inv (evalParts e c parts) := by
  induction parts with
  | nil => exact keeps_pure ""
  | cons p rest ih =>
    have hrest := ih (fun q hq => hx q (List.mem_cons_of_mem p hq))
    cases p with
    | text t => exact hrest.bind (fun more => keeps_pure _)
    | code x =>
      refine (h.eval c x (d.good_part (hx _ List.mem_cons_self) (by simp [Node.children]))).bind (fun v => ?_)
      exact (keeps_textOf v).bind (fun shown => hrest.bind (fun more => keeps_pure _))

/-! ### The other expressions -/

theorem evalIdentifier_keeps (d : Discipline) (c : Context) (name : String) :
    Keeps d.Inv (evalIdentifier c name) := by
  intro s hs
  unfold evalIdentifier
  split
  · exact ⟨trivial, hs⟩
  · split
    · exact ⟨trivial, hs⟩
    · exact d.stable.fail rfl s hs

theorem evalBinary_keeps (h : d.Obeyed e) (c : Context) (op : BinaryOp) {left right : Expr}
    (hl : d.Good (.expr left)) (hr : d.Good (.expr right)) : Keeps d.Inv (evalBinary e c op left right) := by
  have hright (context : String) : Keeps d.Inv (do
      let r ← e.eval c right
      let b ← requireBool r context
      pure (Value.bool b)) :=
    (h.eval c right hr).bind (fun r => (d.stable.requireBool r context).bind (fun _ => keeps_pure _))
  refine (h.eval c left hl).bind (fun l => ?_)
  split
  · refine (d.stable.requireBool l _).bind (fun b => ?_)
    exact ensures_ite (fun _ => hright _) (fun _ => keeps_pure _)
  · refine (d.stable.requireBool l _).bind (fun b => ?_)
    exact ensures_ite (fun _ => keeps_pure _) (fun _ => hright _)
  · exact (h.eval c right hr).bind (fun r => d.stable.applyBinary _ l r)

theorem evalConditional_keeps (h : d.Obeyed e) (c : Context) {x t f : Expr} (hx : d.Good (.expr x))
    (ht : d.Good (.expr t)) (hf : d.Good (.expr f)) : Keeps d.Inv (evalConditional e c x t f) := by
  refine (h.eval c x hx).bind (fun v => ?_)
  refine (d.stable.requireBool v _).bind (fun b => ?_)
  exact ensures_ite (fun _ => h.eval c t ht) (fun _ => h.eval c f hf)

theorem evalArguments_keeps (h : d.Obeyed e) (c : Context) (arguments : List Argument)
    (hx : ∀ a ∈ arguments, d.Good (.argument a)) : Keeps d.Inv (evalArguments e c arguments) := by
  induction arguments with
  | nil => exact keeps_pure []
  | cons a rest ih =>
    have ha := hx a List.mem_cons_self
    cases a with
    | named l name x => exact fail_keeps ha (.named l name x)
    | positional x =>
      refine (h.eval c x (d.good_part ha (by simp [Node.children]))).bind (fun v => ?_)
      exact (ih (fun b hb => hx b (List.mem_cons_of_mem _ hb))).bind (fun vs => keeps_pure _)

theorem throwValue_keeps {α : Type} {Q : α → Prop} (d : Discipline) (v : Value) :
    Ensures d.Inv Q (throwValue v : Action α) := by
  cases v with
  | error a => exact ensures_raise a
  | null => exact d.stable.mismatch rfl
  | _ => exact (keeps_textOf _).bind (fun _ => d.stable.fail rfl)

/-- Evaluating an expression keeps the invariant if the engine for its parts does. -/
theorem evalForm_keeps (h : d.Obeyed e) (c : Context) {x : Expr} (hx : d.Good (.expr x)) :
    Keeps d.Inv (evalForm e c x) := by
  have hpart {y : Expr} (hy : Node.expr y ∈ x.children) : Keeps d.Inv (e.eval c y) :=
    h.eval c y (d.good_part hx hy)
  cases x with
  | identifier l name => exact d.evalIdentifier_keeps c name
  | nullLiteral l => exact keeps_pure _
  | boolLiteral l b => exact keeps_pure _
  | intLiteral l n => exact keeps_pure _
  | doubleLiteral l x => exact keeps_pure _
  | stringLiteral l t => exact keeps_pure _
  | interpolation l parts =>
    refine (evalParts_keeps h c parts (fun p hp => d.good_part hx ?_)).bind (fun text => keeps_pure _)
    exact List.mem_map_of_mem hp
  | binary l op left right =>
    exact evalBinary_keeps h c op (d.good_part hx (by simp [Node.children, Expr.children]))
      (d.good_part hx (by simp [Node.children, Expr.children]))
  | unary l op operand => exact evalUnary_keeps h c hx
  | postfixed l op operand => exact evalPostfixed_keeps h c hx
  | conditional l x t f =>
    exact evalConditional_keeps h c (d.good_part hx (by simp [Node.children, Expr.children]))
      (d.good_part hx (by simp [Node.children, Expr.children]))
      (d.good_part hx (by simp [Node.children, Expr.children]))
  | assignment l op target value => exact evalAssignment_keeps h c hx
  | parenthesized l inner => exact hpart (by simp [Expr.children])
  | functionLiteral l parameters body =>
    exact makeClosure_keeps hx none parameters (d.good_part hx (by simp [Node.children, Expr.children])) c.scope
      (Node.Raises.literal l parameters body)
  | call l function arguments =>
    refine (hpart (by simp [Expr.children])).bind (fun f => ?_)
    refine (evalArguments_keeps h c arguments (fun a ha => d.good_part hx ?_)).bind (fun values => ?_)
    · exact List.mem_cons_of_mem _ (List.mem_map_of_mem ha)
    · exact h.call c.depth f values
  | methodCall l target name arguments =>
    refine (hpart (by simp [Expr.children])).bind (fun receiver => ?_)
    refine (evalArguments_keeps h c arguments (fun a ha => d.good_part hx ?_)).bind (fun values => ?_)
    · exact List.mem_cons_of_mem _ (List.mem_map_of_mem ha)
    · exact invokeMember_keeps h c.depth receiver name values
  | property l target name =>
    exact (hpart (by simp [Expr.children])).bind (fun receiver => d.getMember_keeps receiver name)
  | index l target key =>
    refine (hpart (by simp [Expr.children])).bind (fun receiver => ?_)
    refine (hpart (by simp [Expr.children])).bind (fun k => ?_)
    exact invokeMember_keeps h c.depth receiver "[]" [k]
  | throwing l value => exact (hpart (by simp [Expr.children])).bind (fun v => d.throwValue_keeps v)
  | listLiteral l elements typeArguments =>
    exact evalList_keeps h c elements (fun x hmem => d.good_part hx (List.mem_map_of_mem hmem))
  | setOrMapLiteral l elements typeArguments =>
    exact evalSetOrMap_keeps h c elements typeArguments
      (fun x hmem => d.good_part hx (List.mem_map_of_mem hmem))
  | misplaced l kind => exact fail_keeps hx (.expression l kind)

end Dartlet.Discipline
