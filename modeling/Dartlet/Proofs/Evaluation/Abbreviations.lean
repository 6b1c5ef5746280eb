import Dartlet.Host.Standard
import Dartlet.Proofs.Evaluation.Endings

/-!
# Compound assignments and steps

A combined assignment to a name, a member of a name or an element of a name reads the place, evaluates the value
and writes the place, like the plain assignment that spells the operator out; a step is such an assignment of one
more or one less. The plain assignment resolves its place twice. Names are evaluated for the place without effects,
so both times it is the same place, and the expression on the right comes after both.
-/

namespace Dartlet

open Dartlet.Action
open Dartlet.Syntax (AssignOp BinaryOp CatchClause Expr Location UnaryOp)

set_option linter.unusedSectionVars false

section

variable [Host]

/-- The operators that combine with assignment. -/
def Syntax.BinaryOp.arithmetic : List BinaryOp := [.add, .sub, .mul, .div, .truncDiv, .rem]

theorem evalBinary_arithmetic {op : BinaryOp} (hop : op ∈ BinaryOp.arithmetic) (e : Engine) (c : Context)
    (left right : Expr) : evalBinary e c op left right = (do
      let l ← e.eval c left
      let r ← e.eval c right
      applyBinary op l r) := by
  simp only [BinaryOp.arithmetic, List.mem_cons, List.not_mem_nil, or_false] at hop
  rcases hop with rfl | rfl | rfl | rfl | rfl | rfl <;> rfl

/-- A place that is a name, a member of a name, or an element of a name with a name as the key. -/
inductive NamedPlace where
  | name (name : String)
  | member (receiver field : String)
  | element (receiver key : String)

/-- Where a place and the names in it stand in a text. -/
structure Spots where
  whole : Location
  receiver : Location
  key : Location

/-- The expression for a place. -/
def NamedPlace.expr (spots : Spots) : NamedPlace → Expr
  | .name x => .identifier spots.whole x
  | .member x field => .property spots.whole (.identifier spots.receiver x) field
  | .element x y => .index spots.whole (.identifier spots.receiver x) (.identifier spots.key y)

section

variable {c : Context} {s t : Store} {κ : Type} {key : ErrorRecord → κ} {α : Type}

/-! ### Names have no effects -/

/-- A name has a value, or there is an error; nothing else changes. -/
theorem evalIdentifier_cases (c : Context) (x : String) (s : Store) :
    (∃ v, evalIdentifier c x s = .done v s) ∨ ∃ a t, evalIdentifier c x s = .raised a t := by
  unfold evalIdentifier
  cases s.lookup? c.scope x with
  | some v => exact .inl ⟨v, rfl⟩
  | none =>
    cases tableFind? s.globals x with
    | some v => exact .inl ⟨v, rfl⟩
    | none => exact .inr ⟨_, _, rfl⟩

theorem eval_identifier_iff {l : Location} {x : String} {o : Outcome Value} :
    EndsWith (fun e => e.eval c (.identifier l x)) s o ↔ o = (evalIdentifier c x s).locate l := by
  rw [EndsWith.eval_iff]
  refine (EndsWith.within_iff_of_unhooked (.const _) (.const (evalIdentifier_unhooked c x s))).trans ?_
  have hended : (evalIdentifier c x s).Ended := by
    rcases evalIdentifier_cases c x s with ⟨v, hv⟩ | ⟨a, t, hfails⟩
    · exact hv ▸ Outcome.ended_done v s
    · exact hfails ▸ Failure.ended_outcome (.raised a) t
  constructor
  · rintro ⟨o', ho', rfl⟩
    rw [(EndsWith.const_iff.mp ho').1]
    rfl
  · rintro rfl
    exact ⟨_, EndsWith.const_iff.mpr ⟨rfl, hended⟩, rfl⟩

theorem eval_identifier_done_iff {l : Location} {x : String} {v : Value} :
    EndsWith (fun e => e.eval c (.identifier l x)) s (.done v t) ↔ evalIdentifier c x s = .done v s ∧ t = s := by
  rw [eval_identifier_iff]
  rcases evalIdentifier_cases c x s with ⟨v', hv⟩ | ⟨a, t', hfails⟩
  · rw [hv]
    simp only [Outcome.locate, Outcome.done.injEq, and_true]
    exact and_congr_left' eq_comm
  · rw [hfails]
    simp only [Outcome.locate, reduceCtorEq, false_and]

/-- A name is the same wherever it stands in the text. -/
theorem sameEnds_identifier (hkey : ∀ p (r : ErrorRecord), key (r.placedAt p) = key r) (l l' : Location) (x : String) :
    SameEnds key (fun e => e.eval c (.identifier l x)) (fun e => e.eval c (.identifier l' x)) s :=
  have hunhooked := RaisesUnhooked.const (evalIdentifier_unhooked c x s)
  (SameEnds.evalForm hkey c (.identifier l x) hunhooked).symm.trans (SameEnds.evalForm hkey c (.identifier l' x) hunhooked)

/-! ### Resolving a place of names -/

/-- What a place of names is in a store: its names have values there. -/
inductive NamedPlace.Denotes (c : Context) (s : Store) : NamedPlace → Place → Prop where
  | name {l x} : Denotes c s (.name x) (.named (.identifier l x) x)
  | member {x field v} (receiver : evalIdentifier c x s = .done v s) : Denotes c s (.member x field) (.member v field)
  | element {x y v k} (receiver : evalIdentifier c x s = .done v s) (key : evalIdentifier c y s = .done k s) :
      Denotes c s (.element x y) (.element v k)

namespace NamedPlace.Denotes

variable {p : NamedPlace} {place place' : Place}

theorem write_eq (h : p.Denotes c s place) (h' : p.Denotes c s place') (e : Engine) (v : Value) :
    place.write e c v = place'.write e c v := by
  cases h with
  | name =>
    cases h'
    rfl
  | member receiver =>
    cases h' with
    | member receiver' =>
      obtain ⟨rfl, -⟩ := Outcome.done.inj (receiver.symm.trans receiver')
      rfl
  | element receiver key =>
    cases h' with
    | element receiver' key' =>
      obtain ⟨rfl, -⟩ := Outcome.done.inj (receiver.symm.trans receiver')
      obtain ⟨rfl, -⟩ := Outcome.done.inj (key.symm.trans key')
      rfl

end NamedPlace.Denotes

theorem persistent_read (c : Context) (place : Place) : Persistent (fun e => place.read e c) := by
  cases place with
  | named target name => exact .eval c target
  | member receiver name => exact .const _
  | element receiver key => exact .invokeMember _ _ _ _

theorem persistent_write (c : Context) (v : Value) (place : Place) : Persistent (fun e => place.write e c v) := by
  cases place with
  | named target name => exact .const _
  | member receiver name => exact .const _
  | element receiver key => exact (Persistent.invokeMember _ _ _ _).bind fun _ => .const _

theorem persistent_resolve (c : Context) (p : NamedPlace) (spots : Spots) :
    Persistent (fun e => Place.resolve e c (p.expr spots)) := by
  cases p with
  | name x => exact .const _
  | member x field => exact (Persistent.eval _ _).bind fun _ => .const _
  | element x y => exact (Persistent.eval _ _).bind fun _ => (Persistent.eval _ _).bind fun _ => .const _

/-- After the evaluation of names, which happens in both of two actions, they go on with the same values. -/
theorem sameEnds_naming (hkey : ∀ p (r : ErrorRecord), key (r.placedAt p) = key r) {l l' : Location} {x : String}
    {G G' : Engine → Value → Action α} (hG : ∀ v, Persistent (fun e => G e v)) (hG' : ∀ v, Persistent (fun e => G' e v))
    (h : ∀ v, evalIdentifier c x s = .done v s → SameEnds key (fun e => G e v) (fun e => G' e v) s) :
    SameEnds key (fun e => e.eval c (.identifier l x) >>= G e) (fun e => e.eval c (.identifier l' x) >>= G' e) s := by
  refine SameEnds.bind (.eval _ _) (.eval _ _) hG hG' (sameEnds_identifier hkey l l' x) fun v t hdone => ?_
  obtain ⟨hv, rfl⟩ := eval_identifier_done_iff.mp hdone
  exact h v hv

/-- Two actions that begin by resolving a place of names end the same way if they go on so. -/
theorem sameEnds_resolving (hkey : ∀ p (r : ErrorRecord), key (r.placedAt p) = key r) (p : NamedPlace) (spots spots' : Spots)
    {G G' : Engine → Place → Action α} (hG : ∀ place, Persistent (fun e => G e place))
    (hG' : ∀ place, Persistent (fun e => G' e place))
    (hunhooked : RaisesUnhooked (fun e => Place.resolve e c (p.expr spots) >>= G e) s)
    (h : ∀ place place', p.Denotes c s place → p.Denotes c s place' → RaisesUnhooked (fun e => G e place) s →
      SameEnds key (fun e => G e place) (fun e => G' e place') s) :
    SameEnds key (fun e => Place.resolve e c (p.expr spots) >>= G e) (fun e => Place.resolve e c (p.expr spots') >>= G' e)
      s := by
  cases p with
  | name x => exact h _ _ .name .name hunhooked
  | member x field =>
    simp only [NamedPlace.expr, Place.resolve, bind_assoc, pure_bind] at hunhooked ⊢
    refine sameEnds_naming hkey (fun v => hG _) (fun v => hG' _) fun v hv => h _ _ (.member hv) (.member hv) ?_
    exact hunhooked.second (.eval _ _) (fun v => hG _) (eval_identifier_done_iff.mpr ⟨hv, rfl⟩)
  | element x y =>
    simp only [NamedPlace.expr, Place.resolve, bind_assoc, pure_bind] at hunhooked ⊢
    have hkeys (v : Value) : Persistent (fun e => e.eval c (.identifier spots.key y) >>= fun k => G e (.element v k)) :=
      (Persistent.eval _ _).bind fun k => hG _
    refine sameEnds_naming hkey hkeys (fun v => (Persistent.eval _ _).bind fun k => hG' _) fun v hv => ?_
    refine sameEnds_naming hkey (fun k => hG _) (fun k => hG' _) fun k hk => h _ _ (.element hv hk) (.element hv hk) ?_
    exact (hunhooked.second (.eval _ _) hkeys (eval_identifier_done_iff.mpr ⟨hv, rfl⟩)).second (.eval _ _) (fun k => hG _)
      (eval_identifier_done_iff.mpr ⟨hk, rfl⟩)

/-- Once a name has a value, it can be evaluated again at no cost. -/
theorem sameEnds_known {l : Location} {x : String} {v : Value} (h : evalIdentifier c x s = .done v s)
    {G : Engine → Value → Action α} (hG : ∀ v, Persistent (fun e => G e v)) :
    SameEnds key (fun e => e.eval c (.identifier l x) >>= G e) (fun e => G e v) s :=
  .of_iff fun _ => (EndsWith.bind_iff_of_done (.eval _ _) hG (eval_identifier_done_iff.mpr ⟨h, rfl⟩))

/-- Evaluating a place of names again is reading the place that it denotes. -/
theorem NamedPlace.Denotes.read {p : NamedPlace} {place : Place} (hkey : ∀ p (r : ErrorRecord), key (r.placedAt p) = key r)
    (h : p.Denotes c s place) (spots : Spots) (hunhooked : RaisesUnhooked (fun e => place.read e c) s) :
    SameEnds key (fun e => e.eval c (p.expr spots)) (fun e => place.read e c) s := by
  -- what holds of the form of the expression holds of the expression
  have hevaluated {x : Expr} (hform : SameEnds key (fun e => evalForm e c x) (fun e => place.read e c) s) :
      SameEnds key (fun e => e.eval c x) (fun e => place.read e c) s :=
    (SameEnds.evalForm hkey c x (hform.symm.unhooked hunhooked)).symm.trans hform
  cases h with
  | @name l x => exact sameEnds_identifier hkey _ _ x
  | @member x field v receiver =>
    exact hevaluated (sameEnds_known receiver (G := fun _ v => getMember v field) fun v => .const _)
  | @element x y v k receiver element =>
    refine hevaluated ((sameEnds_known receiver (G := fun e v => e.eval c (.identifier spots.key y) >>= fun k =>
      invokeMember e c.depth v "[]" [k]) fun v => (Persistent.eval _ _).bind fun k => .invokeMember _ _ _ _).trans ?_)
    exact sameEnds_known element (G := fun e k => invokeMember e c.depth v "[]" [k]) fun k => .invokeMember _ _ _ _

/-- It makes no difference in which of two ways a place is denoted that is read. -/
theorem NamedPlace.Denotes.reads {p : NamedPlace} {place place' : Place}
    (hkey : ∀ p (r : ErrorRecord), key (r.placedAt p) = key r) (h : p.Denotes c s place) (h' : p.Denotes c s place')
    (hunhooked : RaisesUnhooked (fun e => place.read e c) s) :
    SameEnds key (fun e => place.read e c) (fun e => place'.read e c) s := by
  cases h with
  | @name l x =>
    cases h' with
    | @name l' => exact sameEnds_identifier hkey l l' x
  | member receiver =>
    cases h' with
    | member receiver' =>
      obtain ⟨rfl, -⟩ := Outcome.done.inj (receiver.symm.trans receiver')
      exact .refl _ s
  | element receiver key =>
    cases h' with
    | element receiver' key' =>
      obtain ⟨rfl, -⟩ := Outcome.done.inj (receiver.symm.trans receiver')
      obtain ⟨rfl, -⟩ := Outcome.done.inj (key.symm.trans key')
      exact .refl _ s

theorem resolve_done {p : NamedPlace} {spots : Spots} {place : Place}
    (h : EndsWith (fun e => Place.resolve e c (p.expr spots)) s (.done place t)) : p.Denotes c s place ∧ t = s := by
  cases p with
  | name x =>
    obtain ⟨hdone, -⟩ := EndsWith.const_iff.mp h
    obtain ⟨rfl, rfl⟩ := Outcome.done.inj hdone
    exact ⟨.name, rfl⟩
  | member x field =>
    obtain ⟨v, t', hreceiver, hplace⟩ :=
      EndsWith.bind_done (G := fun _ v => pure (Place.member v field)) (.eval _ _) (fun _ => .const _) h
    obtain ⟨hv, rfl⟩ := eval_identifier_done_iff.mp hreceiver
    obtain ⟨hdone, -⟩ := EndsWith.const_iff.mp hplace
    obtain ⟨rfl, rfl⟩ := Outcome.done.inj hdone
    exact ⟨.member hv, rfl⟩
  | element x y =>
    obtain ⟨v, t', hreceiver, hrest⟩ := EndsWith.bind_done
      (G := fun e v => e.eval c (.identifier spots.key y) >>= fun k => pure (Place.element v k)) (.eval _ _)
      (fun _ => (Persistent.eval _ _).bind fun _ => .const _) h
    obtain ⟨hv, rfl⟩ := eval_identifier_done_iff.mp hreceiver
    obtain ⟨k, t'', helement, hplace⟩ := EndsWith.bind_done (G := fun _ k => pure (Place.element v k)) (.eval _ _)
      (fun _ => .const _) hrest
    obtain ⟨hk, rfl⟩ := eval_identifier_done_iff.mp helement
    obtain ⟨hdone, -⟩ := EndsWith.const_iff.mp hplace
    obtain ⟨rfl, rfl⟩ := Outcome.done.inj hdone
    exact ⟨.element hv hk, rfl⟩

/-! ### Assignments and steps -/

/-- What a combined assignment does with its place. -/
def combining (c : Context) (op : BinaryOp) (value : Expr) (e : Engine) (place : Place) : Action Value := do
  let current ← place.read e c
  let operand ← e.eval c value
  let v ← applyBinary op current operand
  place.write e c v

/-- What a plain assignment does with its place. -/
def assigning (c : Context) (value : Expr) (e : Engine) (place : Place) : Action Value := do
  let v ← e.eval c value
  place.write e c v

/-- What a step does with its place, and a choice between the value before it and the one written. -/
def stepping (c : Context) (op : UnaryOp) (choose : Value → Value → Value) (e : Engine) (place : Place) : Action Value := do
  let current ← place.read e c
  let v ← stepped op current
  let written ← place.write e c v
  pure (choose current written)

theorem evalUnary_step {op : UnaryOp} (hop : op.isStep = true) (e : Engine) (c : Context) (x : Expr) :
    evalUnary e c op x = Place.resolve e c x >>= stepping c op (fun _ written => written) e := by
  rw [evalUnary, if_pos hop]
  unfold stepping
  simp only [bind_pure]

theorem evalPostfixed_eq (e : Engine) (c : Context) (op : UnaryOp) (x : Expr) :
    evalPostfixed e c op x = Place.resolve e c x >>= stepping c op (fun current _ => current) e := rfl

theorem persistent_combining (c : Context) (op : BinaryOp) (value : Expr) (place : Place) :
    Persistent (fun e => combining c op value e place) :=
  (persistent_read c place).bind fun _ => (Persistent.eval c value).bind fun _ => (Persistent.const _).bind fun v =>
    persistent_write c v place

theorem persistent_assigning (c : Context) (value : Expr) (place : Place) :
    Persistent (fun e => assigning c value e place) :=
  (Persistent.eval c value).bind fun v => persistent_write c v place

theorem persistent_storing (c : Context) (op : UnaryOp) (choose : Value → Value) (current : Value) (place : Place) :
    Persistent (fun e => stepped op current >>= fun v => place.write e c v >>= fun written => pure (choose written)) :=
  (Persistent.const _).bind fun v => (persistent_write c v place).bind fun _ => .const _

theorem persistent_stepping (c : Context) (op : UnaryOp) (choose : Value → Value → Value) (place : Place) :
    Persistent (fun e => stepping c op choose e place) :=
  (persistent_read c place).bind fun current => persistent_storing c op (choose current) current place

/-- A combined assignment and the plain one that it abbreviates. -/
theorem sameEnds_combining (hkey : ∀ p (r : ErrorRecord), key (r.placedAt p) = key r) {op : BinaryOp}
    (hop : op ∈ BinaryOp.arithmetic) (p : NamedPlace) (value : Expr) (l₁ l₂ l₃ : Location) (at₁ at₂ at₃ : Spots)
    (hunhooked : RaisesUnhooked (fun e => evalForm e c (.assignment l₁ (.compound op) (p.expr at₁) value)) s) :
    SameEnds key (fun e => e.eval c (.assignment l₁ (.compound op) (p.expr at₁) value))
      (fun e => e.eval c (.assignment l₂ .plain (p.expr at₂) (.binary l₃ op (p.expr at₃) value))) s := by
  refine SameEnds.of_forms hkey hunhooked ?_
  change SameEnds key (fun e => Place.resolve e c (p.expr at₁) >>= combining c op value e)
    (fun e => Place.resolve e c (p.expr at₂) >>= assigning c (.binary l₃ op (p.expr at₃) value) e) s
  refine sameEnds_resolving hkey p at₁ at₂ (persistent_combining c op value) (persistent_assigning c _) hunhooked
    fun place place' hplace hplace' hraises => ?_
  have hoperator (current : Value) : Persistent (fun e => e.eval c value >>= fun operand => applyBinary op current operand) :=
    (Persistent.eval c value).bind fun _ => .const _
  have hcomputing : Persistent (fun e =>
      place.read e c >>= fun current => e.eval c value >>= fun operand => applyBinary op current operand) :=
    (persistent_read c place).bind hoperator
  have hraises' : RaisesUnhooked (fun e =>
      place.read e c >>= fun current => e.eval c value >>= fun operand => applyBinary op current operand) s := by
    refine RaisesUnhooked.first (G := fun e v => place.write e c v) hcomputing (fun v => persistent_write c v place) ?_
    simpa only [combining, bind_assoc] using hraises
  -- reading the place and computing with the value is the binary expression
  have hcomputed : SameEnds key
      (fun e => place.read e c >>= fun current => e.eval c value >>= fun operand => applyBinary op current operand)
      (fun e => evalForm e c (.binary l₃ op (p.expr at₃) value)) s := by
    simp only [evalForm, evalBinary_arithmetic hop]
    exact SameEnds.bind (persistent_read c place) (.eval c _) hoperator hoperator
      (hplace.read hkey at₃ (hraises'.first (persistent_read c place) hoperator)).symm fun current t _ => .refl _ t
  have hwritten := (hcomputed.trans (.evalForm hkey c _ (hcomputed.unhooked hraises'))).bind hcomputing (.eval c _)
    (fun v => persistent_write c v place) (fun v => persistent_write c v place') fun v t _ => by
      simp only [hplace.write_eq hplace']
      exact .refl _ t
  simpa only [combining, assigning, bind_assoc] using hwritten

theorem stepped_apply (op : UnaryOp) (current : Value) (s : Store) :
    stepped op current s =
      if current.isNumber = true then applyBinary (if op == .increment then .add else .sub) current (.int 1) s
      else mismatch (.notNum ("operand of '" ++ op.spelling ++ "'") (current.typeName s)) s := by
  unfold stepped requireNumber
  cases current <;> rfl

/-- The operator with which a step is computed. -/
inductive Syntax.UnaryOp.Abbreviates : UnaryOp → BinaryOp → Prop where
  | increment : Abbreviates .increment .add
  | decrement : Abbreviates .decrement .sub

theorem applyBinary_not_number {op : UnaryOp} {op' : BinaryOp} (hop : op.Abbreviates op') {current : Value}
    (hnumber : current.isNumber = false) (s : Store) :
    applyBinary op' current (.int 1) s = (mismatch (.undefinedOperator op'.spelling (current.typeName s)
      ((Value.int 1).typeName s)) s : Outcome Value) := by
  cases hop <;> cases current <;> first | rfl | cases hnumber

/-- A step is computed like one more or one less, but for the words of the complaint about other values than
numbers. -/
theorem stepped_sameUpTo {op : UnaryOp} {op' : BinaryOp} (hop : op.Abbreviates op') (current : Value) (s : Store) :
    (stepped op current s).SameUpTo ErrorRecord.sort (applyBinary op' current (.int 1) s) := by
  have hop' : (if op == .increment then .add else .sub) = op' := by cases hop <;> rfl
  rw [stepped_apply, hop']
  by_cases hnumber : current.isNumber = true
  · rw [if_pos hnumber]
    exact .same _
  · rw [if_neg hnumber, applyBinary_not_number hop (Bool.not_eq_true _ ▸ hnumber)]
    exact .fail (by rfl) s

/-- A step and the combined assignment that it abbreviates. -/
theorem sameEnds_stepping {op : UnaryOp} {op' : BinaryOp} (hop : op.Abbreviates op') (p : NamedPlace)
    (l₁ l₂ l₃ : Location) (at₁ at₂ : Spots)
    (hunhooked : RaisesUnhooked (fun e => evalForm e c (.unary l₁ op (p.expr at₁))) s) :
    SameEnds ErrorRecord.sort (fun e => e.eval c (.unary l₁ op (p.expr at₁)))
      (fun e => e.eval c (.assignment l₂ (.compound op') (p.expr at₂) (.intLiteral l₃ 1))) s := by
  have hkey := ErrorRecord.sort_placedAt
  have hstep : op.isStep = true := by cases hop <;> rfl
  refine SameEnds.of_forms hkey hunhooked ?_
  change SameEnds _ (fun e => evalUnary e c op (p.expr at₁))
    (fun e => Place.resolve e c (p.expr at₂) >>= combining c op' (.intLiteral l₃ 1) e) s
  simp only [evalForm, evalUnary_step hstep] at hunhooked ⊢
  refine sameEnds_resolving hkey p at₁ at₂ (persistent_stepping c op _) (persistent_combining c op' _) hunhooked
    fun place place' hplace hplace' hraises => ?_
  have hwrite (v : Value) : Persistent (fun e => place'.write e c v) := persistent_write c v place'
  have hread := hraises.first (persistent_read c place) (fun current => persistent_storing c op id current place)
  -- both read the place; the one evaluates its literal then
  refine SameEnds.bind (persistent_read c place) (persistent_read c place')
    (fun current => persistent_storing c op id current place)
    (fun _ => (Persistent.eval c _).bind fun _ => (Persistent.const _).bind hwrite)
    (hplace.reads hkey hplace' hread) fun current t _ => ?_
  have hone : EndsWith (fun e => e.eval c (.intLiteral l₃ 1)) t (.done (.int 1) t) := ⟨by rintro _ ⟨⟩, 1, rfl⟩
  refine SameEnds.trans ?_ (SameEnds.of_iff fun _ => EndsWith.bind_iff_of_done
    (G := fun e operand => applyBinary op' current operand >>= fun v => place'.write e c v) (.eval c _)
    (fun _ => (Persistent.const _).bind hwrite) hone).symm
  simp only [bind_pure]
  refine SameEnds.bind (.const _) (.const _) (fun v => persistent_write c v place) hwrite
    (.const (stepped_sameUpTo hop current t)) fun v t' _ => ?_
  simp only [hplace.write_eq hplace']
  exact .refl _ t'

/-- What an expression does to the store is what its form does, without regard to its value. -/
theorem sameEnds_effects (hkey : ∀ p (r : ErrorRecord), key (r.placedAt p) = key r) {x : Expr}
    (hunhooked : RaisesUnhooked (fun e => evalForm e c x) s) :
    SameEnds key (fun e => evalForm e c x >>= fun _ => (pure () : Action Unit)) (fun e => e.eval c x >>= fun _ => pure ())
      s :=
  .bind (.evalForm c x) (.eval c x) (fun _ => .const _) (fun _ => .const _) (.evalForm hkey c x hunhooked)
    fun _ t _ => .refl _ t

/-- A step after its operand, and the same step before it, without regard to their values. -/
theorem sameEnds_postfixed (hkey : ∀ p (r : ErrorRecord), key (r.placedAt p) = key r) {op : UnaryOp} (hop : op.isStep = true)
    (p : NamedPlace) (l₁ l₂ : Location) (at₁ at₂ : Spots)
    (hunhooked : RaisesUnhooked (fun e => evalForm e c (.postfixed l₁ op (p.expr at₁))) s) :
    SameEnds key (fun e => e.eval c (.postfixed l₁ op (p.expr at₁)) >>= fun _ => pure ())
      (fun e => e.eval c (.unary l₂ op (p.expr at₂)) >>= fun _ => pure ()) s := by
  have hpersistent (choose : Value → Value → Value) (place : Place) :
      Persistent (fun e => stepping c op choose e place >>= fun _ => (pure () : Action Unit)) :=
    (persistent_stepping c op choose place).bind fun _ => .const _
  have hstoring (current : Value) (place : Place) : Persistent (fun e => stepped op current >>= fun v =>
      place.write e c v >>= fun _ => (pure () : Action Unit)) :=
    (Persistent.const _).bind fun v => (persistent_write c v place).bind fun _ => .const _
  have hunhooked' : RaisesUnhooked (fun e => evalForm e c (.postfixed l₁ op (p.expr at₁)) >>= fun _ => (pure () : Action Unit))
      s := hunhooked.mapped (.evalForm c _) ()
  -- the effects of a step do not depend on which value it has
  have hforms : SameEnds key (fun e => evalForm e c (.postfixed l₁ op (p.expr at₁)) >>= fun _ => (pure () : Action Unit))
      (fun e => evalForm e c (.unary l₂ op (p.expr at₂)) >>= fun _ => pure ()) s := by
    simp only [evalForm, evalPostfixed_eq, evalUnary_step hop, bind_assoc] at hunhooked' ⊢
    refine sameEnds_resolving hkey p at₁ at₂ (hpersistent _) (hpersistent _) hunhooked'
      fun place place' hplace hplace' hraises => ?_
    simp only [stepping, bind_assoc, pure_bind] at hraises ⊢
    refine SameEnds.bind (persistent_read c place) (persistent_read c place') (fun current => hstoring current place)
      (fun current => hstoring current place')
      (hplace.reads hkey hplace' (hraises.first (persistent_read c place) fun current => hstoring current place))
      fun current t _ => ?_
    simp only [hplace.write_eq hplace']
    exact .refl _ t
  have hunary : RaisesUnhooked (fun e => evalForm e c (.unary l₂ op (p.expr at₂))) s :=
    (hforms.unhooked hunhooked').first (.evalForm c _) fun _ => .const _
  exact ((sameEnds_effects hkey hunhooked).symm.trans hforms).trans (sameEnds_effects hkey hunary)

/-- The value of a step after its operand is the value of the operand before it. -/
theorem postfixed_done {op : UnaryOp} {p : NamedPlace} {l : Location} {spots : Spots} {v : Value}
    (h : EndsWith (fun e => e.eval c (.postfixed l op (p.expr spots))) s (.done v t)) (spots' : Spots) :
    ∃ t', EndsWith (fun e => e.eval c (p.expr spots')) s (.done v t') := by
  obtain ⟨o, hform, hleaves⟩ := (EndsWith.within_iff (.evalForm c _)).mp (EndsWith.eval_iff.mp h)
  obtain rfl := Outcome.leaves_done_iff.mp hleaves
  obtain ⟨place, s', hresolved, hstepping⟩ := EndsWith.bind_done (G := fun e place => stepping c op _ e place)
    (persistent_resolve c p spots) (persistent_stepping c op fun current _ => current) hform
  obtain ⟨hplace, rfl⟩ := resolve_done hresolved
  obtain ⟨current, t', hread, hstored⟩ := EndsWith.bind_done (persistent_read c place)
    (fun current => persistent_storing c op (fun _ => current) current place) hstepping
  -- what is written afterwards does not change the value
  have hcurrent : v = current := by
    obtain ⟨w, t'', -, hwritten⟩ := EndsWith.bind_done (.const _)
      (fun w => (persistent_write c w place).bind fun _ => .const (pure current)) hstored
    obtain ⟨_, u, -, hchosen⟩ := EndsWith.bind_done (persistent_write c w place) (fun _ => .const (pure current)) hwritten
    obtain ⟨hdone, -⟩ := EndsWith.const_iff.mp hchosen
    exact (Outcome.done.inj hdone).1.symm
  subst hcurrent
  exact ⟨t', (hplace.read ErrorRecord.placeless_placedAt spots' (.of_done (persistent_read c place) hread)).symm.done hread⟩

end

/-- A combined assignment to a name, to a member of a name or to an element of a name with a name as the key ends
like the assignment that it abbreviates, whatever the value on its right does meanwhile: with the same value, or
with the same error, and in the same store, but for the place of the error. A step before its operand ends like
adding or subtracting one, but for the words of the error, too. A step after its operand has the same effects and
errors as the one before it, and its value is the one that the operand had. The error with which they end, if they do,
must have the method of its own that is told places: what a program has assigned in its place may tell the two apart,
as it is called once for each construct that the error leaves. -/
theorem compound_assignments_and_steps_abbreviate_assignments (p : NamedPlace) (c : Context) (s : Store) :
    (∀ op ∈ BinaryOp.arithmetic, ∀ value l₁ l₂ l₃ at₁ at₂ at₃,
      RaisesUnhooked (fun e => evalForm e c (.assignment l₁ (.compound op) (p.expr at₁) value)) s →
      SameEnds ErrorRecord.placeless (fun e => e.eval c (.assignment l₁ (.compound op) (p.expr at₁) value))
        (fun e => e.eval c (.assignment l₂ .plain (p.expr at₂) (.binary l₃ op (p.expr at₃) value))) s) ∧
    (∀ l₁ l₂ l₃ at₁ at₂,
      (RaisesUnhooked (fun e => evalForm e c (.unary l₁ .increment (p.expr at₁))) s →
        SameEnds ErrorRecord.sort (fun e => e.eval c (.unary l₁ .increment (p.expr at₁)))
          (fun e => e.eval c (.assignment l₂ (.compound .add) (p.expr at₂) (.intLiteral l₃ 1))) s) ∧
      (RaisesUnhooked (fun e => evalForm e c (.unary l₁ .decrement (p.expr at₁))) s →
        SameEnds ErrorRecord.sort (fun e => e.eval c (.unary l₁ .decrement (p.expr at₁)))
          (fun e => e.eval c (.assignment l₂ (.compound .sub) (p.expr at₂) (.intLiteral l₃ 1))) s)) ∧
    ∀ op ∈ [UnaryOp.increment, .decrement], ∀ l₁ l₂ at₁ at₂,
      (RaisesUnhooked (fun e => evalForm e c (.postfixed l₁ op (p.expr at₁))) s →
        SameEnds ErrorRecord.placeless (fun e => e.eval c (.postfixed l₁ op (p.expr at₁)) >>= fun _ => pure ())
          (fun e => e.eval c (.unary l₂ op (p.expr at₂)) >>= fun _ => pure ()) s) ∧
      ∀ v t, EndsWith (fun e => e.eval c (.postfixed l₁ op (p.expr at₁))) s (.done v t) →
        ∃ t', EndsWith (fun e => e.eval c (p.expr at₂)) s (.done v t') := by
  refine ⟨fun op hop value l₁ l₂ l₃ at₁ at₂ at₃ hunhooked => ?_, fun l₁ l₂ l₃ at₁ at₂ => ⟨fun hunhooked => ?_, fun hunhooked => ?_⟩,
    fun op hop l₁ l₂ at₁ at₂ => ⟨fun hunhooked => ?_, ?_⟩⟩
  · exact sameEnds_combining ErrorRecord.placeless_placedAt hop p value l₁ l₂ l₃ at₁ at₂ at₃ hunhooked
  · exact sameEnds_stepping .increment p l₁ l₂ l₃ at₁ at₂ hunhooked
  · exact sameEnds_stepping .decrement p l₁ l₂ l₃ at₁ at₂ hunhooked
  · have hstep : op.isStep = true := by
      simp only [List.mem_cons, List.not_mem_nil, or_false] at hop
      rcases hop with rfl | rfl <;> rfl
    exact sameEnds_postfixed ErrorRecord.placeless_placedAt hstep p l₁ l₂ at₁ at₂ hunhooked
  · exact fun v t h => postfixed_done h at₂

end

/-- In `x += (x = 5)`, the one `x` is read before it is assigned; `x++` has the value that `x` had. -/
theorem compound_assignments_and_steps_abbreviate_assignments_reassigning :
    let c : Context := ⟨rootScope, 0⟩
    let s := Store.initial.declare rootScope "x" (.int 1)
    let spots : Spots := ⟨none, none, none⟩
    let x := NamedPlace.name "x"
    let value : Expr := .assignment none .plain (x.expr spots) (.intLiteral none 5)
    let combined : Expr := .assignment none (.compound .add) (x.expr spots) value
    let increment : Expr := .unary none .increment (x.expr spots)
    let stepped : Expr := .postfixed none .increment (x.expr spots)
    BinaryOp.add ∈ BinaryOp.arithmetic ∧ UnaryOp.increment ∈ [UnaryOp.increment, .decrement] ∧
    RaisesUnhooked (fun e => evalForm e c combined) s ∧ RaisesUnhooked (fun e => evalForm e c increment) s ∧
    RaisesUnhooked (fun e => evalForm e c stepped) s ∧
    (∃ t, EndsWith (fun e => e.eval c combined) s (.done (.int 6) t) ∧
      EndsWith (fun e => e.eval c (.assignment none .plain (x.expr spots) (.binary none .add (x.expr spots) value))) s
        (.done (.int 6) t)) ∧
    (∃ t, EndsWith (fun e => e.eval c increment) s (.done (.int 2) t) ∧
      EndsWith (fun e => e.eval c (.assignment none (.compound .add) (x.expr spots) (.intLiteral none 1))) s
        (.done (.int 2) t)) ∧
    (∃ t, EndsWith (fun e => e.eval c stepped) s (.done (.int 1) t) ∧
      EndsWith (fun e => e.eval c increment >>= fun _ => (pure () : Action Unit)) s (.done () t)) ∧
    ∃ t, EndsWith (fun e => e.eval c (x.expr spots)) s (.done (.int 1) t) := by
  intro c s spots x value combined increment stepped
  have hcombined : ∃ t, EndsWith (fun e => e.eval c combined) s (.done (.int 6) t) := ⟨_, nofun, 4, rfl⟩
  have hincrement : ∃ t, EndsWith (fun e => e.eval c increment) s (.done (.int 2) t) := ⟨_, nofun, 4, rfl⟩
  have hstepped : ∃ t, EndsWith (fun e => e.eval c stepped) s (.done (.int 1) t) := ⟨_, nofun, 4, rfl⟩
  have hunhooked {y : Expr} {v : Value} (h : ∃ t, EndsWith (fun e => e.eval c y) s (.done v t)) :
      RaisesUnhooked (fun e => evalForm e c y) s := by
    obtain ⟨t, ht⟩ := h
    obtain ⟨o, hform, hleaves⟩ := (EndsWith.within_iff (.evalForm c y)).mp (EndsWith.eval_iff.mp ht)
    obtain rfl := Outcome.leaves_done_iff.mp hleaves
    exact .of_done (.evalForm c y) hform
  have habbreviates := compound_assignments_and_steps_abbreviate_assignments x c s
  refine ⟨by decide, by decide, hunhooked hcombined, hunhooked hincrement, hunhooked hstepped, hcombined.imp fun t ht => ⟨ht, ?_⟩,
    hincrement.imp fun t ht => ⟨ht, ?_⟩, hstepped.imp fun t ht => ⟨ht, ?_⟩, ?_⟩
  · exact (habbreviates.1 .add (by decide) value none none none spots spots spots (hunhooked hcombined)).done ht
  · exact ((habbreviates.2.1 none none none spots spots).1 (hunhooked hincrement)).done ht
  · refine ((habbreviates.2.2 .increment (by decide) none none spots spots).1 (hunhooked hstepped)).done ?_
    exact (EndsWith.bind_iff_of_done (.eval c _) (fun _ => .const _) ht).mpr (EndsWith.const_iff.mpr ⟨rfl, nofun⟩)
  · obtain ⟨t, ht⟩ := hstepped
    exact (habbreviates.2.2 .increment (by decide) none none spots spots).2 (.int 1) t ht

/-- With an error that writes a line when it is told a place, `x = x + (throw error)` writes a line more than
`x += (throw error)`: the error leaves one construct more. -/
theorem assigned_methods_tell_abbreviations_apart :
    let c : Context := ⟨rootScope, 0⟩
    let keeping : Expr := .assignment none .plain (.identifier none "error") (.identifier none "e")
    let clause : CatchClause :=
      .mk none (.block none [.expression none (telling "e" (printing "told")), .expression none keeping]) none (some "e") none
    let s := ((interpreter 12).exec c (.trying none lookingUp [clause] none)
      ((Store.initial.declare rootScope "error" .null).declare rootScope "x" (.int 1))).store
    let spots : Spots := ⟨none, none, none⟩
    let x := NamedPlace.name "x"
    let value : Expr := .throwing none (.identifier none "error")
    ∃ a t t', EndsWith (fun e => e.eval c (.assignment none (.compound .add) (x.expr spots) value)) s (.raised a t) ∧
      EndsWith (fun e => e.eval c (.assignment none .plain (x.expr spots) (.binary none .add (x.expr spots) value))) s
        (.raised a t') ∧ t.output ≠ t'.output := by
  intro c keeping clause s spots x value
  have hreports :
      ((interpreter 12).eval c (.assignment none (.compound .add) (x.expr spots) value) s).report? =
        some (0, "told\ntold\n") ∧
      ((interpreter 12).eval c (.assignment none .plain (x.expr spots) (.binary none .add (x.expr spots) value)) s).report? =
        some (0, "told\ntold\ntold\n") := by
    decide +kernel
  obtain ⟨t, hraised, houtput⟩ := Outcome.of_report? hreports.1
  obtain ⟨t', hraised', houtput'⟩ := Outcome.of_report? hreports.2
  exact ⟨0, t, t', ⟨nofun, 12, hraised⟩, ⟨nofun, 12, hraised'⟩, by rw [houtput, houtput']; decide⟩

end Dartlet
