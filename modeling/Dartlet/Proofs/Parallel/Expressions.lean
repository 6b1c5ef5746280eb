import Dartlet.Proofs.Parallel.Calls

/-!
# Expressions in parallel

Engines that agree evaluate every kind of expression alike: the names in it are those that both runs
have, and its parts are expressions of the same program.
-/

namespace Dartlet

open Dartlet.Action
open Dartlet.Syntax (Argument AssignOp BinaryOp Element Expr Node Part UnaryOp)

set_option linter.unusedSectionVars false

variable [Host]

/-- A place with its addresses changed. -/
def Place.shift (σ : Shifts) : Place → Place
  | named target name => named target name
  | member receiver name => member (receiver.shift σ) name
  | element receiver key => element (receiver.shift σ) (key.shift σ)

/-- What one place in a row holds, with its addresses changed. -/
def Staged.shift (σ : Shifts) : Staged → Staged
  | item v => item (v.shift σ)
  | entry key value => entry (key.shift σ) (value.shift σ)

/-- A place in a row in which all errors are known. -/
def Staged.Known (K : Value → Prop) : Staged → Prop
  | item v => v.Known K
  | entry key value => key.Known K ∧ value.Known K

/-- What a list literal makes of its row. -/
def listOf (row : List Staged) : Action Value := do
  let items ← orMismatch (listItems row)
  newList items.toArray

/-- What a literal in braces makes of its row. -/
def setOrMapOf (typeArguments : List String) (row : List Staged) : Action Value := do
  match row.head? with
  | none => if typeArguments.length == 1 then newSet [] else newMap []
  | some (.entry _ _) => do
    let entries ← orMismatch (mapEntries [] row)
    newMap entries
  | some (.item _) => do
    let members ← orMismatch (setMembers [] row)
    newSet members

namespace Comparison

variable {w : Comparison} {inside : Bool} {s t : Store} {m : w.Manner} {e e' : Engine} {c : Context}

/-- Evaluate an expression and go on with its value. -/
theorem Agrees.evaluating {α β : Type} {Q : Store → Store → α → β → Prop} {f : Value → Action α} {g : Value → Action β}
    (h : w.Agrees m e e') {x : Expr} (hx : m.Tree (.expr x)) (hhere : m.Here s c.scope)
    (hfg : ∀ s' t' v, w.Follows s t s' t' → v.Known (w.Known s') → m.Here s' c.scope →
      w.Alike false Q s' t' (f v) (g (v.shift w.shifts))) :
    w.Alike false Q s t (e.eval c x >>= f) (e'.eval (w.move c) x >>= g) := by
  refine (h.eval hx hhere).alike.bind (fun s' t' v v' hf hv => ?_)
  obtain ⟨rfl, hv⟩ := hv
  exact hfg s' t' v hf hv (m.later hhere hf.first)

/-! ### Operators -/

theorem reads_requireBool (v : Value) (context : String) :
    w.Reads inside Eq s t (requireBool v context) (requireBool (v.shift w.shifts) context) := by
  cases v with
  | bool b => exact reads_pure rfl
  | _ => exact reads_complaint (.notBool context) _

theorem reads_requireNumber (v : Value) (context : String) :
    w.Reads inside Eq s t (requireNumber v context) (requireNumber (v.shift w.shifts) context) := by
  unfold requireNumber
  rw [Value.isNumber_shift]
  exact reads_ite (fun _ => reads_pure rfl) (fun _ => reads_complaint (.notNum context) v)

theorem alike_applyBinary (op : BinaryOp) (left right : Value) :
    w.Alike inside w.Val s t (applyBinary op left right)
      (applyBinary op (left.shift w.shifts) (right.shift w.shifts)) := by
  intro hst
  unfold applyBinary
  rw [hst.binaryResult]
  exact alike_ofExcept (binaryResult_plain s op left right) hst

theorem alike_applyUnary (op : UnaryOp) (operand : Value) :
    w.Alike inside w.Val s t (applyUnary op operand) (applyUnary op (operand.shift w.shifts)) := by
  intro hst
  unfold applyUnary
  rw [hst.unaryResult]
  exact alike_ofExcept (unaryResult_plain s op operand) hst

theorem alike_identifier {name : String} (hname : w.hidden name = false) :
    w.Alike inside w.Val s t (evalIdentifier c name) (evalIdentifier (w.move c) name) := by
  intro hst
  unfold evalIdentifier
  rw [move_scope, Tables.lookup? hst hname, Tables.global? hst]
  cases hv : s.lookup? c.scope name with
  | some v => exact .done ⟨rfl, Tables.lookup?_known hst hname hv⟩ (.refl hst)
  | none =>
    cases hv : tableFind? s.globals name with
    | some v => exact .done ⟨rfl, Tables.global?_known hst hv⟩ (.refl hst)
    | none => exact alike_fail_closed rfl hst

/-- The right operand of a logical operator, which is the result. -/
theorem alike_rightOperand (h : w.Agrees m e e') (hhere : m.Here s c.scope) {x : Expr} (hx : m.Tree (.expr x))
    (context : String) :
    w.Alike false w.Val s t
      (do
        let r ← e.eval c x
        let b ← requireBool r context
        pure (.bool b))
      (do
        let r ← e'.eval (w.move c) x
        let b ← requireBool r context
        pure (.bool b)) := by
  refine h.evaluating hx hhere (fun s' t' v _ _ _ => ?_)
  exact (reads_requireBool v context).bind (fun b _ hb => hb ▸ alike_plain rfl)

theorem alike_binary (h : w.Agrees m e e') (hhere : m.Here s c.scope) (op : BinaryOp) {left right : Expr}
    (hleft : m.Tree (.expr left)) (hright : m.Tree (.expr right)) :
    w.Alike false w.Val s t (evalBinary e c op left right) (evalBinary e' (w.move c) op left right) := by
  refine h.evaluating hleft hhere (fun s₁ t₁ l _ hl hhere₁ => ?_)
  have hother (op : BinaryOp) : w.Alike false w.Val s₁ t₁
      (do
        let r ← e.eval c right
        applyBinary op l r)
      (do
        let r ← e'.eval (w.move c) right
        applyBinary op (l.shift w.shifts) r) :=
    h.evaluating hright hhere₁ (fun s₂ t₂ r _ _ _ => alike_applyBinary op l r)
  cases op with
  | and =>
    refine (reads_requireBool l _).bind (fun b _ hb => ?_)
    subst hb
    exact alike_ite (fun _ => alike_rightOperand h hhere₁ hright _) (fun _ => alike_plain rfl)
  | or =>
    refine (reads_requireBool l _).bind (fun b _ hb => ?_)
    subst hb
    exact alike_ite (fun _ => alike_plain rfl) (fun _ => alike_rightOperand h hhere₁ hright _)
  | _ => exact hother _

theorem alike_conditional (h : w.Agrees m e e') (hhere : m.Here s c.scope) {x y z : Expr}
    (hx : m.Tree (.expr x)) (hy : m.Tree (.expr y)) (hz : m.Tree (.expr z)) :
    w.Alike false w.Val s t (evalConditional e c x y z) (evalConditional e' (w.move c) x y z) := by
  refine h.evaluating hx hhere (fun s₁ t₁ v _ _ hhere₁ => ?_)
  refine (reads_requireBool v _).bind (fun b _ hb => ?_)
  subst hb
  exact alike_ite (fun _ => (h.eval hy hhere₁).alike) (fun _ => (h.eval hz hhere₁).alike)

theorem alike_throwValue {α β : Type} {Q : Store → Store → α → β → Prop} {v : Value} (hv : v.Known (w.Known s)) :
    w.Alike inside Q s t (throwValue v) (throwValue (v.shift w.shifts)) := by
  -- the error shows the value as text, which is the same in both runs
  have hthrown : w.Alike inside Q s t (textOf v >>= fun shown => fail (.thrown v shown))
      (textOf (v.shift w.shifts) >>= fun shown => fail (.thrown (v.shift w.shifts) shown)) := by
    refine (alike_textOf v).bind (fun s' t' shown shown' hf heq => ?_)
    obtain rfl : shown = shown' := heq
    exact alike_fail (f := .thrown v shown) (hv.mono hf.first.known) (fun _ => nofun)
  cases v with
  | error a => exact alike_raise hv
  | null => exact alike_mismatch _
  | _ => exact hthrown

/-! ### Rows of values -/

theorem alike_parts (h : w.Agrees m e e') {parts : List Part} (hparts : ∀ p ∈ parts, m.Tree (.part p))
    (hhere : m.Here s c.scope) :
    w.Alike false Same s t (evalParts e c parts) (evalParts e' (w.move c) parts) := by
  induction parts generalizing s t with
  | nil => exact alike_same _
  | cons p rest ih =>
    have hrest := fun q hq => hparts q (List.mem_cons_of_mem p hq)
    cases p with
    | text u => exact (ih hrest hhere).bind (fun _ _ more _ _ heq => heq ▸ alike_same _)
    | code x =>
      have hx : m.Tree (.expr x) := m.part (hparts _ List.mem_cons_self) rfl (by simp [Node.children])
      refine h.evaluating hx hhere (fun s₁ t₁ v _ _ hhere₁ => ?_)
      refine (alike_textOf v).bind (fun s₂ t₂ shown shown' hf₂ hshown => ?_)
      obtain rfl : shown = shown' := hshown
      exact (ih hrest (m.later hhere₁ hf₂.first)).bind (fun _ _ more _ _ heq => heq ▸ alike_same _)

theorem alike_arguments (h : w.Agrees m e e') {arguments : List Argument} (hargs : ∀ a ∈ arguments, m.Tree (.argument a))
    (hhere : m.Here s c.scope) :
    w.Alike false (fun s' _ => w.Values (w.Known s')) s t (evalArguments e c arguments)
      (evalArguments e' (w.move c) arguments) := by
  induction arguments generalizing s t with
  | nil => exact alike_pure .nil
  | cons a rest ih =>
    cases a with
    | named l name x => exact alike_fail_closed rfl
    | positional x =>
      have hx : m.Tree (.expr x) := m.part (hargs _ List.mem_cons_self) rfl (by simp [Node.children])
      refine h.evaluating hx hhere (fun s₁ t₁ v _ hv hhere₁ => ?_)
      refine (ih (fun b hb => hargs b (List.mem_cons_of_mem _ hb)) hhere₁).bind (fun s₂ t₂ vs vs' hf₂ hvs => ?_)
      exact alike_pure ((Values.single (hv.mono hf₂.first.known)).append hvs)

/-- Corresponding rows. -/
structure Rows (w : Comparison) (s _ : Store) (xs ys : List Staged) : Prop where
  same : ys = xs.map (Staged.shift w.shifts)
  known : ∀ x ∈ xs, x.Known (w.Known s)

theorem Rows.append {xs ys xs' ys' : List Staged} (h : w.Rows s t xs ys) (h' : w.Rows s t xs' ys') :
    w.Rows s t (xs ++ xs') (ys ++ ys') := by
  refine ⟨by rw [h.same, h'.same, List.map_append], fun x hx => ?_⟩
  rcases List.mem_append.mp hx with hx | hx
  · exact h.known x hx
  · exact h'.known x hx

theorem Rows.later {s' t' : Store} {xs ys : List Staged} (h : w.Rows s t xs ys) (hs : w.Later s s') :
    w.Rows s' t' xs ys := by
  refine ⟨h.same, fun x hx => ?_⟩
  have hknown := h.known x hx
  cases x with
  | item v => exact hknown.mono hs.known
  | entry k v => exact ⟨hknown.1.mono hs.known, hknown.2.mono hs.known⟩

theorem rows_nil : w.Rows s t [] [] := ⟨rfl, List.forall_mem_nil _⟩

theorem rows_item {v : Value} (hv : v.Known (w.Known s)) : w.Rows s t [.item v] [.item (v.shift w.shifts)] :=
  ⟨rfl, fun _ hx => List.mem_singleton.mp hx ▸ hv⟩

theorem Values.rows {xs ys : List Value} (h : w.Values (w.Known s) xs ys) :
    w.Rows s t (xs.map .item) (ys.map .item) := by
  refine ⟨by simp [h.same, Staged.shift, Function.comp_def], fun x hx => ?_⟩
  obtain ⟨v, hv, rfl⟩ := List.mem_map.mp hx
  exact h.known v hv

theorem Pairs.rows {xs ys : List (Value × Value)} (h : w.Pairs (w.Known s) xs ys) :
    w.Rows s t (xs.map (fun e => .entry e.1 e.2)) (ys.map (fun e => .entry e.1 e.2)) := by
  refine ⟨by simp [h.same, Staged.shift, shiftPair, Function.comp_def], fun x hx => ?_⟩
  obtain ⟨e, he, rfl⟩ := List.mem_map.mp hx
  exact h.known e he

/-- Corresponding elements to walk over, or none. -/
inductive Walked (w : Comparison) (s _ : Store) : Option (List Value) → Option (List Value) → Prop
  | none : Walked w s _ none none
  | some {xs ys : List Value} : w.Values (w.Known s) xs ys → Walked w s _ (some xs) (some ys)

theorem alike_elementsOf? (v : Value) :
    w.Alike inside w.Walked s t (elementsOf? v) (elementsOf? (v.shift w.shifts)) := by
  intro hst
  cases v with
  | list a => exact .done (.some (hst.list a)) (.refl hst)
  | iterable a => exact .done (.some (hst.iterable a)) (.refl hst)
  | set a => exact .done (.some (hst.set a)) (.refl hst)
  | object a =>
    simp only [Value.shift, elementsOf?, hst.elements?]
    cases hitems : s.objects[a]?.bind (fun o => o.kind.elements?) with
    | none => exact .done .none (.refl hst)
    | some items =>
      obtain ⟨o, -, ho⟩ := Option.bind_eq_some_iff.mp hitems
      have hdata : w.DataList (w.Known s) items items := elements?_data ho
      have hall : w.Alike inside (fun s' _ => w.Values (w.Known s')) s t (fromHostAll items) (fromHostAll items) := by
        nth_rewrite 2 [hdata.same]
        rw [← shiftAll_eq_map]
        exact alike_fromHostAll hdata.known
      exact hall.bind (fun _ _ xs ys _ hxy => alike_pure (.some hxy)) hst
  | _ => exact .done .none (.refl hst)

/-- The elements of a value that is neither null nor a map. -/
def spreadElements (source : Value) : Action (List Staged) := do
  match ← elementsOf? source with
  | some items => pure (items.map .item)
  | none => fun s => mismatch (.cannotSpread (source.typeName s)) s

theorem alike_spreadElements (source : Value) :
    w.Alike inside w.Rows s t (spreadElements source) (spreadElements (source.shift w.shifts)) := by
  refine (alike_elementsOf? source).bind (fun s' t' xs ys _ hxy => ?_)
  cases hxy with
  | none => exact alike_complaint (fun hst => by rw [hst.typeName])
  | some hxy => exact alike_pure hxy.rows

theorem alike_spreadOut (source : Value) (nullAware : Bool) :
    w.Alike inside w.Rows s t (spreadOut source nullAware) (spreadOut (source.shift w.shifts) nullAware) := by
  cases source with
  | null => exact alike_ite (fun _ => alike_pure rows_nil) (fun _ => alike_mismatch _)
  | map a => exact fun hst => .done (hst.map a).rows (.refl hst)
  | _ => exact alike_spreadElements _

/-- A value that fills a place, unless it is a null that does not count. -/
theorem alike_place (p : Bool) (v : Value) {x y : Value → Action (List Staged)} :
    w.Alike inside w.Rows s t (x v) (y (v.shift w.shifts)) →
    w.Alike inside w.Rows s t
      (match v, p with
        | .null, true => pure []
        | u, _ => x u)
      (match v.shift w.shifts, p with
        | .null, true => pure []
        | u, _ => y u) := by
  intro h
  cases v with
  | null =>
    cases p with
    | true => exact alike_pure rows_nil
    | false => exact h
  | _ => exact h

theorem alike_stage (h : w.Agrees m e e') : ∀ {s t : Store} (x : Element), m.Tree (.element x) → m.Here s c.scope →
    w.Alike false w.Rows s t (stage e c x) (stage e' (w.move c) x)
  | s, t, .plain value, hx, hhere => by
    have hvalue : m.Tree (.expr value) := m.part hx rfl (by simp [Node.children, Element.children])
    exact h.evaluating hvalue hhere (fun s' t' v _ hv _ => alike_pure (rows_item hv))
  | s, t, .entry l key value nullAwareKey nullAwareValue, hx, hhere => by
    have hkey : m.Tree (.expr key) := m.part hx rfl (by simp [Node.children, Element.children])
    have hvalue : m.Tree (.expr value) := m.part hx rfl (by simp [Node.children, Element.children])
    refine h.evaluating hkey hhere (fun s₁ t₁ k _ hk hhere₁ => alike_place _ k ?_)
    refine h.evaluating hvalue hhere₁ (fun s₂ t₂ v hf₂ hv _ => alike_place _ v (alike_pure ⟨rfl, ?_⟩))
    intro x hx
    rw [List.mem_singleton.mp hx]
    exact ⟨hk.mono hf₂.first.known, hv⟩
  | s, t, .spread l source nullAware, hx, hhere => by
    have hsource : m.Tree (.expr source) := m.part hx rfl (by simp [Node.children, Element.children])
    exact h.evaluating hsource hhere (fun s' t' v _ _ _ => alike_spreadOut v nullAware)
  | s, t, .nullAware l value, hx, hhere => by
    have hvalue : m.Tree (.expr value) := m.part hx rfl (by simp [Node.children, Element.children])
    refine h.evaluating hvalue hhere (fun s' t' v _ hv _ => ?_)
    cases v with
    | null => exact alike_pure rows_nil
    | _ => exact alike_pure (rows_item hv)
  | s, t, .conditional l condition x none, hx, hhere => by
    have hcondition : m.Tree (.expr condition) := m.part hx rfl (by simp [Node.children, Element.children])
    have hthen : m.Tree (.element x) := m.part hx rfl (by simp [Node.children, Element.children])
    refine h.evaluating hcondition hhere (fun s' t' v _ _ hhere' => ?_)
    refine (reads_requireBool v _).bind (fun b _ hb => ?_)
    subst hb
    exact alike_ite (fun _ => alike_stage h x hthen hhere') (fun _ => alike_pure rows_nil)
  | s, t, .conditional l condition x (some y), hx, hhere => by
    have hcondition : m.Tree (.expr condition) := m.part hx rfl (by simp [Node.children, Element.children])
    have hthen : m.Tree (.element x) := m.part hx rfl (by simp [Node.children, Element.children])
    have helse : m.Tree (.element y) := m.part hx rfl (by simp [Node.children, Element.children])
    refine h.evaluating hcondition hhere (fun s' t' v _ _ hhere' => ?_)
    refine (reads_requireBool v _).bind (fun b _ hb => ?_)
    subst hb
    exact alike_ite (fun _ => alike_stage h x hthen hhere') (fun _ => alike_stage h y helse hhere')
  | s, t, .loop l header body, hx, hhere => alike_fail_closed rfl

theorem alike_stageAll (h : w.Agrees m e e') {xs : List Element} (hxs : ∀ x ∈ xs, m.Tree (.element x))
    (hhere : m.Here s c.scope) : w.Alike false w.Rows s t (stageAll e c xs) (stageAll e' (w.move c) xs) := by
  induction xs generalizing s t with
  | nil => exact alike_pure rows_nil
  | cons x rest ih =>
    refine (alike_stage h x (hxs x List.mem_cons_self) hhere).bind (fun s₁ t₁ row row' hf₁ hrow => ?_)
    refine (ih (fun y hy => hxs y (List.mem_cons_of_mem x hy)) (m.later hhere hf₁.first)).bind
      (fun s₂ t₂ more more' hf₂ hmore => ?_)
    exact alike_pure ((hrow.later hf₂.first).append hmore)

/-! ### Literals -/

/-- The result of laying out a literal, or the complaint about it. -/
theorem reads_orMismatch {α β : Type} {R : α → β → Prop} {r : Except Mismatch α} {r' : Except Mismatch β}
    (h : (∃ a b, r = .ok a ∧ r' = .ok b ∧ R a b) ∨ ∃ m, r = .error m ∧ r' = .error m) :
    w.Reads inside R s t (orMismatch r) (orMismatch r') := by
  rcases h with ⟨a, b, rfl, rfl, hab⟩ | ⟨m, rfl, rfl⟩
  · exact reads_pure hab
  · exact (alike_mismatch m).reads

theorem rows_listItems {xs ys : List Staged} (h : w.Rows s t xs ys) :
    (∃ vs us, listItems xs = .ok vs ∧ listItems ys = .ok us ∧ w.Values (w.Known s) vs us) ∨
      ∃ m, listItems xs = .error m ∧ listItems ys = .error m := by
  obtain ⟨rfl, hknown⟩ := h
  induction xs with
  | nil => exact .inl ⟨[], [], rfl, rfl, .nil⟩
  | cons x rest ih =>
    cases x with
    | entry k v => exact .inr ⟨_, rfl, rfl⟩
    | item v =>
      rcases ih (fun y hy => hknown y (List.mem_cons_of_mem _ hy)) with ⟨vs, us, hvs, hus, hvu⟩ | ⟨m, hm, hm'⟩
      · have hcons : w.Values (w.Known s) (v :: vs) (v.shift w.shifts :: us) :=
          (Values.single (hknown _ List.mem_cons_self)).append hvu
        exact .inl ⟨_, _, by simp [listItems, hvs, Except.map], by simp [listItems, Staged.shift, hus, Except.map], hcons⟩
      · exact .inr ⟨m, by simp [listItems, hm, Except.map], by simp [listItems, Staged.shift, hm', Except.map]⟩

theorem Values.add {K : Value → Prop} {xs ys : List Value} (h : w.Values K xs ys) {v : Value} (hv : v.Known K) :
    w.Values K (Members.add xs v) (Members.add ys (v.shift w.shifts)) := by
  refine ⟨by rw [h.same, Members.add_shift], fun u hu => ?_⟩
  rcases Members.mem_add hu with hu | rfl
  · exact h.known u hu
  · exact hv

theorem rows_setMembers {xs ys : List Staged} (h : w.Rows s t xs ys) {vs us : List Value}
    (hvu : w.Values (w.Known s) vs us) :
    (∃ vs' us', setMembers vs xs = .ok vs' ∧ setMembers us ys = .ok us' ∧ w.Values (w.Known s) vs' us') ∨
      ∃ m, setMembers vs xs = .error m ∧ setMembers us ys = .error m := by
  obtain ⟨rfl, hknown⟩ := h
  induction xs generalizing vs us with
  | nil => exact .inl ⟨vs, us, rfl, rfl, hvu⟩
  | cons x rest ih =>
    cases x with
    | entry k v => exact .inr ⟨_, rfl, rfl⟩
    | item v => exact ih (hvu.add (hknown _ List.mem_cons_self)) (fun y hy => hknown y (List.mem_cons_of_mem _ hy))

theorem rows_mapEntries {xs ys : List Staged} (h : w.Rows s t xs ys) {es fs : List (Value × Value)}
    (hef : w.Pairs (w.Known s) es fs) :
    (∃ es' fs', mapEntries es xs = .ok es' ∧ mapEntries fs ys = .ok fs' ∧ w.Pairs (w.Known s) es' fs') ∨
      ∃ m, mapEntries es xs = .error m ∧ mapEntries fs ys = .error m := by
  obtain ⟨rfl, hknown⟩ := h
  induction xs generalizing es fs with
  | nil => exact .inl ⟨es, fs, rfl, rfl, hef⟩
  | cons x rest ih =>
    cases x with
    | item v => exact .inr ⟨_, rfl, rfl⟩
    | entry k v =>
      obtain ⟨hk, hv⟩ := hknown _ List.mem_cons_self
      exact ih (hef.put hk hv) (fun y hy => hknown y (List.mem_cons_of_mem _ hy))

theorem alike_listOf {xs ys : List Staged} (h : w.Rows s t xs ys) : w.Alike inside w.Val s t (listOf xs) (listOf ys) :=
  (reads_orMismatch (rows_listItems h)).bind (fun _ _ hvu => alike_newList hvu)

theorem alike_setOrMapOf {xs ys : List Staged} (h : w.Rows s t xs ys) (typeArguments : List String) :
    w.Alike inside w.Val s t (setOrMapOf typeArguments xs) (setOrMapOf typeArguments ys) := by
  have hempty : w.Pairs (w.Known s) [] [] := ⟨rfl, by simp⟩
  have hmembers := rows_setMembers h .nil
  have hentries := rows_mapEntries h hempty
  obtain ⟨rfl, -⟩ := h
  unfold setOrMapOf
  rw [List.head?_map]
  cases xs.head? with
  | none => exact alike_ite (fun _ => alike_newSet .nil) (fun _ => alike_newMap hempty)
  | some x =>
    cases x with
    | item v => exact (reads_orMismatch hmembers).bind (fun vs us hvu => alike_newSet hvu)
    | entry k v => exact (reads_orMismatch hentries).bind (fun es fs hef => alike_newMap hef)

theorem alike_list (h : w.Agrees m e e') {xs : List Element} (hxs : ∀ x ∈ xs, m.Tree (.element x))
    (hhere : m.Here s c.scope) : w.Alike false w.Val s t (evalList e c xs) (evalList e' (w.move c) xs) :=
  (alike_stageAll h hxs hhere).bind (fun _ _ _ _ _ hrow => alike_listOf hrow)

theorem alike_setOrMap (h : w.Agrees m e e') {xs : List Element} (hxs : ∀ x ∈ xs, m.Tree (.element x))
    (typeArguments : List String) (hhere : m.Here s c.scope) :
    w.Alike false w.Val s t (evalSetOrMap e c xs typeArguments) (evalSetOrMap e' (w.move c) xs typeArguments) :=
  (alike_stageAll h hxs hhere).bind (fun _ _ _ _ _ hrow => alike_setOrMapOf hrow typeArguments)

/-! ### Places -/

/-- A place that a program may read and write. -/
def Allows (m : w.Manner) (K : Value → Prop) : Place → Prop
  | .named target name => m.Tree (.expr target) ∧ w.hidden name = false
  | .member receiver name => receiver.Known K ∧ (w.placed = true → name ∉ placeMembers)
  | .element receiver key => receiver.Known K ∧ key.Known K

/-- Corresponding places. -/
structure Places (m : w.Manner) (s _ : Store) (x y : Place) : Prop where
  same : y = x.shift w.shifts
  allowed : Allows m (w.Known s) x

theorem Places.later {s' t' : Store} {x y : Place} (h : Places m s t x y) (hs : w.Later s s') : Places m s' t' x y := by
  refine ⟨h.same, ?_⟩
  have hallowed := h.allowed
  cases x with
  | named target name => exact hallowed
  | member receiver name => exact ⟨hallowed.1.mono hs.known, hallowed.2⟩
  | element receiver key => exact ⟨hallowed.1.mono hs.known, hallowed.2.mono hs.known⟩

theorem alike_resolve (h : w.Agrees m e e') (hhere : m.Here s c.scope) {target : Expr} (htarget : m.Tree (.expr target))
    (hwrites : w.placed = true → ∀ name ∈ target.member?.toList, name ∉ placeMembers) :
    w.Alike false (Places m) s t (Place.resolve e c target) (Place.resolve e' (w.move c) target) := by
  cases target with
  | identifier l name => exact alike_pure ⟨rfl, htarget, m.names htarget (by simp [Node.names])⟩
  | property l receiver name =>
    have hreceiver : m.Tree (.expr receiver) := m.part htarget rfl (by simp [Node.children, Expr.children])
    refine h.evaluating hreceiver hhere (fun s' t' v _ hv _ => alike_pure ⟨rfl, hv, fun hw => ?_⟩)
    exact hwrites hw name (by simp [Expr.member?])
  | index l receiver key =>
    have hreceiver : m.Tree (.expr receiver) := m.part htarget rfl (by simp [Node.children, Expr.children])
    have hkey : m.Tree (.expr key) := m.part htarget rfl (by simp [Node.children, Expr.children])
    refine h.evaluating hreceiver hhere (fun s₁ t₁ v _ hv hhere₁ => ?_)
    refine h.evaluating hkey hhere₁ (fun s₂ t₂ k hf₂ hk _ => alike_pure ⟨rfl, hv.mono hf₂.first.known, hk⟩)
  | _ => exact alike_fail_closed rfl

theorem alike_read (h : w.Agrees m e e') (hhere : m.Here s c.scope) {x y : Place} (hxy : Places m s t x y) :
    w.Alike false w.Val s t (x.read e c) (y.read e' (w.move c)) := by
  obtain ⟨rfl, hallowed⟩ := hxy
  cases x with
  | named target name => exact (h.eval hallowed.1 hhere).alike
  | member receiver name => exact alike_getMember hallowed.1 name
  | element receiver key => exact alike_invokeMember h c.depth hallowed.1 "[]" (by simpa using hallowed.2)

theorem alike_write (h : w.Agrees m e e') {x y : Place} (hxy : Places m s t x y) {v : Value}
    (hv : v.Known (w.Known s)) :
    w.Alike false w.Val s t (x.write e c v) (y.write e' (w.move c) (v.shift w.shifts)) := by
  obtain ⟨rfl, hallowed⟩ := hxy
  cases x with
  | named target name => exact alike_assign c.scope hallowed.2 hv
  | member receiver name => exact alike_setMember hallowed.1 hallowed.2 hv
  | element receiver key =>
    have hargs : ∀ u ∈ [key, v], u.Known (w.Known s) := by simpa using ⟨hallowed.2, hv⟩
    refine (alike_invokeMember h c.depth hallowed.1 "[]=" hargs).bind (fun _ _ _ _ hf _ => ?_)
    exact alike_value (hv.mono hf.first.known)

theorem alike_assignment (h : w.Agrees m e e') (hhere : m.Here s c.scope) (op : AssignOp) {target value : Expr}
    (htarget : m.Tree (.expr target)) (hvalue : m.Tree (.expr value))
    (hwrites : w.placed = true → ∀ name ∈ target.member?.toList, name ∉ placeMembers) :
    w.Alike false w.Val s t (evalAssignment e c op target value) (evalAssignment e' (w.move c) op target value) := by
  refine (alike_resolve h hhere htarget hwrites).bind (fun s₁ t₁ x y hf₁ hxy => ?_)
  have hhere₁ := m.later hhere hf₁.first
  cases op with
  | plain =>
    exact h.evaluating hvalue hhere₁ (fun s₂ t₂ v hf₂ hv _ => alike_write h (hxy.later hf₂.first) hv)
  | compound op =>
    refine (alike_read h hhere₁ hxy).bind (fun s₂ t₂ u u' hf₂ hu => ?_)
    obtain ⟨rfl, hu⟩ := hu
    refine h.evaluating hvalue (m.later hhere₁ hf₂.first) (fun s₃ t₃ v hf₃ hv _ => ?_)
    refine (alike_applyBinary op u v).bind (fun s₄ t₄ r r' hf₄ hr => ?_)
    obtain ⟨rfl, hr⟩ := hr
    exact alike_write h (hxy.later (hf₂.first.trans (hf₃.first.trans hf₄.first))) hr

theorem alike_stepped (op : UnaryOp) (v : Value) :
    w.Alike inside w.Val s t (stepped op v) (stepped op (v.shift w.shifts)) := by
  refine (reads_requireNumber v _).bind (fun _ _ _ => ?_)
  exact alike_applyBinary _ v (.int 1)

/-- Read a place and take what it holds one step on. -/
theorem alike_stepping (h : w.Agrees m e e') (hhere : m.Here s c.scope) (op : UnaryOp) {operand : Expr}
    (hoperand : m.Tree (.expr operand))
    (hwrites : w.placed = true → ∀ name ∈ operand.member?.toList, name ∉ placeMembers)
    {f g : Place → Value → Value → Action Value}
    (hfg : ∀ s' t' x y u v, Places m s' t' x y → u.Known (w.Known s') → v.Known (w.Known s') →
      w.Alike false w.Val s' t' (f x u v) (g y (u.shift w.shifts) (v.shift w.shifts))) :
    w.Alike false w.Val s t
      (do
        let place ← Place.resolve e c operand
        let current ← place.read e c
        let v ← stepped op current
        f place current v)
      (do
        let place ← Place.resolve e' (w.move c) operand
        let current ← place.read e' (w.move c)
        let v ← stepped op current
        g place current v) := by
  refine (alike_resolve h hhere hoperand hwrites).bind (fun s₁ t₁ x y hf₁ hxy => ?_)
  refine (alike_read h (m.later hhere hf₁.first) hxy).bind (fun s₂ t₂ u u' hf₂ hu => ?_)
  obtain ⟨rfl, hu⟩ := hu
  refine (alike_stepped op u).bind (fun s₃ t₃ v v' hf₃ hv => ?_)
  obtain ⟨rfl, hv⟩ := hv
  exact hfg s₃ t₃ x y u v (hxy.later (hf₂.first.trans hf₃.first)) (hu.mono hf₃.first.known) hv

theorem alike_unary (h : w.Agrees m e e') (hhere : m.Here s c.scope) (op : UnaryOp) {operand : Expr}
    (hoperand : m.Tree (.expr operand))
    (hwrites : op.isStep = true → w.placed = true → ∀ name ∈ operand.member?.toList, name ∉ placeMembers) :
    w.Alike false w.Val s t (evalUnary e c op operand) (evalUnary e' (w.move c) op operand) := by
  refine alike_ite (fun hstep => ?_) (fun _ => ?_)
  · exact alike_stepping h hhere op hoperand (hwrites hstep) (fun _ _ _ _ _ _ hxy _ hv => alike_write h hxy hv)
  · exact h.evaluating hoperand hhere (fun s' t' v _ _ _ => alike_applyUnary op v)

theorem alike_postfixed (h : w.Agrees m e e') (hhere : m.Here s c.scope) (op : UnaryOp) {operand : Expr}
    (hoperand : m.Tree (.expr operand))
    (hwrites : w.placed = true → ∀ name ∈ operand.member?.toList, name ∉ placeMembers) :
    w.Alike false w.Val s t (evalPostfixed e c op operand) (evalPostfixed e' (w.move c) op operand) := by
  refine alike_stepping h hhere op hoperand hwrites (fun _ _ _ _ _ _ hxy hu hv => ?_)
  exact (alike_write h hxy hv).bind (fun _ _ _ _ hf _ => alike_value (hu.mono hf.first.known))

/-! ### All expressions -/

theorem alike_evalForm (h : w.Agrees m e e') {x : Expr} (hx : m.Tree (.expr x)) (hhere : m.Here s c.scope) :
    w.Alike false w.Val s t (evalForm e c x) (evalForm e' (w.move c) x) := by
  -- what holds of the expression holds of its parts
  have hpart {n : Node} (hn : n ∈ x.children) : m.Tree n := m.part hx rfl hn
  have hwrites (hw : w.placed = true) {name : String} (hname : name ∈ (Node.expr x).writes) :
      name ∉ placeMembers := m.writes hw hx hname
  cases x with
  | identifier l name => exact alike_identifier (m.names hx (by simp [Node.names]))
  | nullLiteral l => exact alike_plain rfl
  | boolLiteral l b => exact alike_plain rfl
  | intLiteral l n => exact alike_plain rfl
  | doubleLiteral l x => exact alike_plain rfl
  | stringLiteral l text => exact alike_plain rfl
  | interpolation l parts =>
    refine (alike_parts h (fun p hp => hpart (List.mem_map_of_mem hp)) hhere).bind (fun _ _ text _ _ heq => ?_)
    exact heq ▸ alike_plain rfl
  | binary l op left right =>
    exact alike_binary h hhere op (hpart (by simp [Expr.children])) (hpart (by simp [Expr.children]))
  | unary l op operand =>
    refine alike_unary h hhere op (hpart (by simp [Expr.children])) (fun hstep hw name hname => hwrites hw ?_)
    simpa [Node.writes, hstep] using hname
  | postfixed l op operand =>
    refine alike_postfixed h hhere op (hpart (by simp [Expr.children])) (fun hw name hname => hwrites hw ?_)
    simpa [Node.writes] using hname
  | conditional l x y z =>
    exact alike_conditional h hhere (hpart (by simp [Expr.children])) (hpart (by simp [Expr.children]))
      (hpart (by simp [Expr.children]))
  | assignment l op target value =>
    refine alike_assignment h hhere op (hpart (by simp [Expr.children])) (hpart (by simp [Expr.children]))
      (fun hw name hname => hwrites hw ?_)
    simpa [Node.writes] using hname
  | parenthesized l x => exact (h.eval (hpart (by simp [Expr.children])) hhere).alike
  | functionLiteral l parameters body =>
    refine alike_makeClosure none (fun p hp => ?_) (m.fit (hpart (by simp [Expr.children])))
      (fun hgap => m.bounded hgap hhere)
    exact m.names (hpart (n := .parameter p) (by simp [Expr.children, hp])) (by simp [Node.names])
  | call l function arguments =>
    refine h.evaluating (hpart (by simp [Expr.children])) hhere (fun s₁ t₁ f _ hf hhere₁ => ?_)
    refine (alike_arguments h (fun a ha => hpart (by simp [Expr.children, ha])) hhere₁).bind
      (fun s₂ t₂ vs us hf₂ hvu => ?_)
    obtain ⟨rfl, hvs⟩ := hvu
    exact h.call (hf.mono hf₂.first.known) hvs
  | methodCall l target name arguments =>
    refine h.evaluating (hpart (by simp [Expr.children])) hhere (fun s₁ t₁ v _ hv hhere₁ => ?_)
    refine (alike_arguments h (fun a ha => hpart (by simp [Expr.children, ha])) hhere₁).bind
      (fun s₂ t₂ vs us hf₂ hvu => ?_)
    obtain ⟨rfl, hvs⟩ := hvu
    exact alike_invokeMember h c.depth (hv.mono hf₂.first.known) name hvs
  | property l target name =>
    exact h.evaluating (hpart (by simp [Expr.children])) hhere (fun _ _ v _ hv _ => alike_getMember hv name)
  | index l target key =>
    refine h.evaluating (hpart (by simp [Expr.children])) hhere (fun s₁ t₁ v _ hv hhere₁ => ?_)
    refine h.evaluating (hpart (by simp [Expr.children])) hhere₁ (fun s₂ t₂ k hf₂ hk _ => ?_)
    exact alike_invokeMember h c.depth (hv.mono hf₂.first.known) "[]" (by simpa using hk)
  | throwing l value =>
    exact h.evaluating (hpart (by simp [Expr.children])) hhere (fun _ _ v _ hv _ => alike_throwValue hv)
  | listLiteral l elements typeArguments => exact alike_list h (fun x hx => hpart (List.mem_map_of_mem hx)) hhere
  | setOrMapLiteral l elements typeArguments =>
    exact alike_setOrMap h (fun x hx => hpart (List.mem_map_of_mem hx)) typeArguments hhere
  | misplaced l kind => exact alike_fail_closed rfl

end Comparison
end Dartlet
