import Dartlet.Proofs.Parallel.Expressions

/-!
# Statements in parallel

Engines that agree execute statements alike. How a clause is run is left open for a moment: an engine
may run it by another one, which knows the error.
-/

namespace Dartlet

open Dartlet.Action
open Dartlet.Syntax (CatchClause Expr LoopStart Node Stmt Variable)

set_option linter.unusedSectionVars false

variable [Host]

/-- Whether a statement handles errors or raises one that is being handled. -/
def Syntax.Stmt.handles : Stmt → Bool
  | .trying .. | .rethrowing .. => true
  | _ => false

/-- The store in which a clause runs: a new scope remembers the error and binds the names. -/
def openClause (s : Store) (parent error : Address) (exceptionName traceName : Option String) : Store :=
  let marked := (s.enter parent).2.setActiveError (s.enter parent).1 error
  marked.declareAll (s.enter parent).1 (catchBindings marked error exceptionName traceName)

theorem runClause_eq (e : Engine) (c : Context) (error : Address) (l : Syntax.Location) (body : Stmt)
    (exceptionName traceName : Option String) (s : Store) :
    runClause e c error (.mk l body none exceptionName traceName) s =
      e.exec (c.at (s.enter c.scope).1) body (openClause s c.scope error exceptionName traceName) := rfl

/-- Run the first clause in some way if an action raises an error. -/
def handlingBy (run : Address → CatchClause → Action Completion) (clauses : List CatchClause) (x : Action Completion) :
    Action Completion := fun s =>
  match x s with
  | .raised error s' =>
    match clauses with
    | [] => .raised error s'
    | clause :: _ => run error clause s'
  | o => o

namespace Comparison

variable {w : Comparison} {s t : Store} {m : w.Manner} {e e' : Engine} {c : Context}

/-- Execute a statement and go on with its completion. -/
theorem Agrees.executing {α β : Type} {Q : Store → Store → α → β → Prop} {f : Completion → Action α}
    {g : Completion → Action β} (h : w.Agrees m e e') {x : Stmt} (hx : m.Tree (.stmt x)) (hhere : m.Here s c.scope)
    (hfg : ∀ s' t' k k', w.Follows s t s' t' → w.Com s' t' k k' → m.Here s' c.scope →
      w.Alike false Q s' t' (f k) (g k')) :
    w.Alike false Q s t (e.exec c x >>= f) (e'.exec (w.move c) x >>= g) :=
  (h.exec hx hhere).alike.bind (fun s' t' k k' hf hk => hfg s' t' k k' hf hk (m.later hhere hf.first))

/-! ### Sequences -/

theorem alike_execAll (h : w.Agrees m e e') {xs : List Stmt} (hxs : ∀ x ∈ xs, m.Tree (.stmt x))
    (hhere : m.Here s c.scope) : w.Alike false w.Com s t (execAll e c xs) (execAll e' (w.move c) xs) := by
  induction xs generalizing s t with
  | nil => exact alike_normal
  | cons x rest ih =>
    refine h.executing (hxs x List.mem_cons_self) hhere (fun s' t' k k' _ hk hhere' => ?_)
    rw [hk.same, isAbrupt_shift]
    refine alike_ite (fun _ => ?_) (fun _ => ih (fun y hy => hxs y (List.mem_cons_of_mem x hy)) hhere')
    exact alike_pure ⟨rfl, hk.known⟩

theorem alike_evalAll (h : w.Agrees m e e') {xs : List Expr} (hxs : ∀ x ∈ xs, m.Tree (.expr x))
    (hhere : m.Here s c.scope) :
    w.Alike false (fun _ _ _ _ => True) s t (evalAll e c xs) (evalAll e' (w.move c) xs) := by
  induction xs generalizing s t with
  | nil => exact alike_pure trivial
  | cons x rest ih =>
    refine h.evaluating (hxs x List.mem_cons_self) hhere (fun s' t' _ _ _ hhere' => ?_)
    exact ih (fun y hy => hxs y (List.mem_cons_of_mem x hy)) hhere'

theorem alike_declareVariables (h : w.Agrees m e e') {vs : List Variable} (hvs : ∀ v ∈ vs, m.Tree (.var v))
    (hhere : m.Here s c.scope) :
    w.Alike false (fun _ _ _ _ => True) s t (declareVariables e c vs) (declareVariables e' (w.move c) vs) := by
  induction vs generalizing s t with
  | nil => exact alike_pure trivial
  | cons v rest ih =>
    obtain ⟨l, name, initializer⟩ := v
    have htree := hvs _ List.mem_cons_self
    have hname : w.hidden name = false := m.names htree (by simp [Node.names, Variable.name])
    -- declare the variable and go on with the others
    have hdeclare {s' t' : Store} {u : Value} (hu : u.Known (w.Known s')) (hhere' : m.Here s' c.scope) :
        w.Alike false (fun _ _ _ _ => True) s' t'
          (declare c.scope name u >>= fun _ => declareVariables e c rest)
          (declare (w.move c).scope name (u.shift w.shifts) >>= fun _ => declareVariables e' (w.move c) rest) := by
      refine (alike_declare c.scope hname hu).bind (fun s'' t'' _ _ hf _ => ?_)
      exact ih (fun v hv => hvs v (List.mem_cons_of_mem _ hv)) (m.later hhere' hf.first)
    cases initializer with
    | none => exact hdeclare (u := .null) trivial hhere
    | some value =>
      have hvalue : m.Tree (.expr value) := m.part htree rfl (by simp [Node.children])
      exact h.evaluating hvalue hhere (fun s' t' u _ hu hhere' => hdeclare hu hhere')

/-! ### Loops -/

/-- One more round of a loop, or its end. -/
theorem alike_round {k k' : Completion} {x y : Action Completion} :
    w.Com s t k k' → w.Alike false w.Com s t x y →
    w.Alike false w.Com s t
      (match loopExit? k with
        | some done => pure done
        | none => x)
      (match loopExit? k' with
        | some done => pure done
        | none => y) := by
  rintro ⟨rfl, hknown⟩ h
  cases k with
  | normal => exact h
  | continuing => exact h
  | breaking => exact alike_normal
  | returning v => exact alike_pure ⟨rfl, hknown⟩

theorem alike_whileRounds (h : w.Agrees m e e') {condition : Expr} {body : Stmt} (hcondition : m.Tree (.expr condition))
    (hbody : m.Tree (.stmt body)) {rounds rounds' : Nat} (hrounds : w.Rounds rounds rounds') (hhere : m.Here s c.scope) :
    w.Alike false w.Com s t (whileRounds e c condition body rounds)
      (whileRounds e' (w.move c) condition body rounds') := by
  induction rounds generalizing s t rounds' with
  | zero => exact hrounds.alike_zero (f := whileRounds e' _ condition body) rfl
  | succ rounds ih =>
    obtain ⟨rounds', rfl, hfewer⟩ := hrounds.succ
    refine h.evaluating hcondition hhere (fun s₁ t₁ v _ _ hhere₁ => ?_)
    refine (reads_requireBool v _).bind (fun b _ hb => ?_)
    subst hb
    refine alike_ite (fun _ => ?_) (fun _ => alike_normal)
    exact h.executing hbody hhere₁ (fun s₂ t₂ k k' _ hk hhere₂ => alike_round hk (ih hfewer hhere₂))

theorem alike_doRounds (h : w.Agrees m e e') {condition : Expr} {body : Stmt} (hcondition : m.Tree (.expr condition))
    (hbody : m.Tree (.stmt body)) {rounds rounds' : Nat} (hrounds : w.Rounds rounds rounds') (hhere : m.Here s c.scope) :
    w.Alike false w.Com s t (doRounds e c body condition rounds) (doRounds e' (w.move c) body condition rounds') := by
  induction rounds generalizing s t rounds' with
  | zero => exact hrounds.alike_zero (f := doRounds e' _ body condition) rfl
  | succ rounds ih =>
    obtain ⟨rounds', rfl, hfewer⟩ := hrounds.succ
    refine h.executing hbody hhere (fun s₁ t₁ k k' _ hk hhere₁ => alike_round hk ?_)
    refine h.evaluating hcondition hhere₁ (fun s₂ t₂ v _ _ hhere₂ => ?_)
    refine (reads_requireBool v _).bind (fun b _ hb => ?_)
    subst hb
    exact alike_ite (fun _ => ih hfewer hhere₂) (fun _ => alike_normal)

theorem alike_forCondition (h : w.Agrees m e e') {condition : Option Expr}
    (hcondition : ∀ x ∈ condition, m.Tree (.expr x)) (hhere : m.Here s c.scope) :
    w.Alike false Same s t (forCondition e c condition) (forCondition e' (w.move c) condition) := by
  cases condition with
  | none => exact alike_same _
  | some x =>
    refine h.evaluating (hcondition x rfl) hhere (fun s' t' v _ _ _ => ?_)
    exact (reads_requireBool v _).alike (fun _ _ heq => heq)

theorem alike_forRounds (h : w.Agrees m e e') {condition : Option Expr} {updaters : List Expr} {body : Stmt}
    (hcondition : ∀ x ∈ condition, m.Tree (.expr x)) (hupdaters : ∀ x ∈ updaters, m.Tree (.expr x))
    (hbody : m.Tree (.stmt body)) {rounds rounds' : Nat} (hrounds : w.Rounds rounds rounds') (hhere : m.Here s c.scope) :
    w.Alike false w.Com s t (forRounds e c condition updaters body rounds)
      (forRounds e' (w.move c) condition updaters body rounds') := by
  induction rounds generalizing s t rounds' with
  | zero => exact hrounds.alike_zero (f := forRounds e' _ condition updaters body) rfl
  | succ rounds ih =>
    obtain ⟨rounds', rfl, hfewer⟩ := hrounds.succ
    refine (alike_forCondition h hcondition hhere).bind (fun s₁ t₁ b b' hf₁ hb => ?_)
    obtain rfl : b = b' := hb
    refine alike_ite (fun _ => ?_) (fun _ => alike_normal)
    refine h.executing hbody (m.later hhere hf₁.first) (fun s₂ t₂ k k' _ hk hhere₂ => alike_round hk ?_)
    exact (alike_evalAll h hupdaters hhere₂).bind (fun s₃ t₃ _ _ hf₃ _ => ih hfewer (m.later hhere₂ hf₃.first))

theorem alike_startLoop (h : w.Agrees m e e') {start : LoopStart} (hstart : m.Tree (.start start))
    (hhere : m.Here s c.scope) :
    w.Alike false (fun _ _ _ _ => True) s t (startLoop e c start) (startLoop e' (w.move c) start) := by
  cases start with
  | nothing => exact alike_pure trivial
  | declarations declared =>
    have hdeclared : m.Tree (.stmt declared) := m.part hstart rfl (by simp [Node.children])
    exact h.executing hdeclared hhere (fun _ _ _ _ _ _ _ => alike_pure trivial)
  | expressions values =>
    exact alike_evalAll h (fun x hx => m.part hstart rfl (by simp [Node.children, hx])) hhere

/-- Code in a new scope inside the present one. -/
theorem alike_entering {α β : Type} {Q : Store → Store → α → β → Prop} {f : Address → Action α} {g : Address → Action β}
    (hhere : m.Here s c.scope)
    (hfg : ∀ s' t' (a : Address), w.Follows s t s' t' → m.Here s' a →
      w.Alike false Q s' t' (f a) (g (w.shifts.scope.apply a))) :
    w.Alike false Q s t (enterScope c.scope >>= f) (enterScope (w.move c).scope >>= g) := by
  refine (alike_enterScope (fun hgap => m.bounded hgap hhere)).bind (fun s' t' a b hf hentered => ?_)
  obtain rfl := hentered.same
  exact hfg s' t' a hf (hentered.here hhere)

theorem alike_for (h : w.Agrees m e e') {start : LoopStart} {condition : Option Expr} {updaters : List Expr}
    {body : Stmt} (hstart : m.Tree (.start start)) (hcondition : ∀ x ∈ condition, m.Tree (.expr x))
    (hupdaters : ∀ x ∈ updaters, m.Tree (.expr x)) (hbody : m.Tree (.stmt body)) (hhere : m.Here s c.scope) :
    w.Alike false w.Com s t (execFor e c start condition updaters body)
      (execFor e' (w.move c) start condition updaters body) := by
  refine alike_entering hhere (fun s₁ t₁ a _ hhere₁ => ?_)
  refine (alike_startLoop (c := c.at a) h hstart hhere₁).bind (fun s₂ t₂ _ _ hf₂ _ => ?_)
  exact alike_forRounds (c := c.at a) h hcondition hupdaters hbody h.rounds (m.later hhere₁ hf₂.first)

/-- The scope of a round, in which the element is bound. -/
theorem alike_bindElement {name : String} (hname : w.hidden name = false) (declares : Bool) {v : Value}
    (hv : v.Known (w.Known s)) (hhere : m.Here s c.scope) :
    w.Alike false (fun s' _ d d' => d' = w.move d ∧ m.Here s' d.scope) s t (bindElement c name declares v)
      (bindElement (w.move c) name declares (v.shift w.shifts)) := by
  refine alike_ite (fun _ => ?_) (fun _ => ?_)
  · refine alike_entering hhere (fun s₁ t₁ a hf₁ hhere₁ => ?_)
    refine (alike_declare a hname (hv.mono hf₁.first.known)).bind (fun s₂ t₂ _ _ hf₂ _ => ?_)
    exact alike_pure ⟨rfl, m.later hhere₁ hf₂.first⟩
  · refine (alike_assign c.scope hname hv).bind (fun s₁ t₁ _ _ hf₁ _ => ?_)
    exact alike_pure ⟨rfl, m.later hhere hf₁.first⟩

theorem alike_forInRounds (h : w.Agrees m e e') {name : String} (hname : w.hidden name = false) (declares : Bool)
    {body : Stmt} (hbody : m.Tree (.stmt body)) {items : List Value} (hitems : ∀ v ∈ items, v.Known (w.Known s))
    (hhere : m.Here s c.scope) :
    w.Alike false w.Com s t (forInRounds e c name declares body items)
      (forInRounds e' (w.move c) name declares body (items.map (Value.shift w.shifts))) := by
  induction items generalizing s t with
  | nil => exact alike_normal
  | cons item rest ih =>
    refine (alike_bindElement hname declares (hitems item List.mem_cons_self) hhere).bind
      (fun s₁ t₁ d d' hf₁ hd => ?_)
    obtain ⟨rfl, hhere₁⟩ := hd
    refine h.executing hbody hhere₁ (fun s₂ t₂ k k' hf₂ hk _ => alike_round hk ?_)
    have hs₂ := hf₁.first.trans hf₂.first
    exact ih (fun v hv => (hitems v (List.mem_cons_of_mem item hv)).mono hs₂.known) (m.later hhere hs₂)

theorem alike_forIn (h : w.Agrees m e e') {name : String} (hname : w.hidden name = false) {iterable : Expr}
    (hiterable : m.Tree (.expr iterable)) {body : Stmt} (hbody : m.Tree (.stmt body)) (declares : Bool)
    (hhere : m.Here s c.scope) :
    w.Alike false w.Com s t (execForIn e c name iterable body declares)
      (execForIn e' (w.move c) name iterable body declares) := by
  refine h.evaluating hiterable hhere (fun s₁ t₁ v _ _ hhere₁ => ?_)
  refine (alike_elementsOf? v).bind (fun s₂ t₂ xs ys hf₂ hxy => ?_)
  cases hxy with
  | none => exact alike_complaint (fun hst => by rw [hst.typeName])
  | some hxy =>
    obtain ⟨rfl, hknown⟩ := hxy
    exact alike_forInRounds h hname declares hbody hknown (m.later hhere₁ hf₂.first)

theorem alike_choice (h : w.Agrees m e e') {condition : Expr} {x : Stmt} {y : Option Stmt}
    (hcondition : m.Tree (.expr condition)) (hx : m.Tree (.stmt x)) (hy : ∀ z ∈ y, m.Tree (.stmt z))
    (hhere : m.Here s c.scope) :
    w.Alike false w.Com s t (execConditional e c condition x y) (execConditional e' (w.move c) condition x y) := by
  refine h.evaluating hcondition hhere (fun s' t' v _ _ hhere' => ?_)
  refine (reads_requireBool v _).bind (fun b _ hb => ?_)
  subst hb
  refine alike_ite (fun _ => (h.exec hx hhere').alike) (fun _ => ?_)
  cases y with
  | none => exact alike_normal
  | some z => exact (h.exec (hy z rfl) hhere').alike

/-! ### All statements but those that handle errors -/

theorem alike_plainForm (h : w.Agrees m e e') {x : Stmt} (hx : m.Tree (.stmt x)) (hplain : x.handles = false)
    (hhere : m.Here s c.scope) : w.Alike false w.Com s t (execForm e c x) (execForm e' (w.move c) x) := by
  have hpart {n : Node} (hn : n ∈ x.children) : m.Tree n := m.part hx rfl hn
  cases x with
  | unit l xs => exact alike_execAll h (fun x hx => hpart (List.mem_map_of_mem hx)) hhere
  | block l xs =>
    refine alike_entering hhere (fun s' t' a _ hhere' => ?_)
    exact alike_execAll (c := c.at a) h (fun x hx => hpart (List.mem_map_of_mem hx)) hhere'
  | expression l x => exact h.evaluating (hpart (by simp [Stmt.children])) hhere (fun _ _ _ _ _ _ => alike_normal)
  | «variables» l vs keyword type =>
    refine (alike_declareVariables h (fun v hv => hpart (List.mem_map_of_mem hv)) hhere).bind ?_
    exact fun _ _ _ _ _ _ => alike_normal
  | function l name parameters body type =>
    have hparameters (p : Syntax.Parameter) (hp : p ∈ parameters) : w.hidden p.name = false :=
      m.names (hpart (n := .parameter p) (by simp [Stmt.children, hp])) (by simp [Node.names])
    refine (alike_makeClosure (some name) hparameters (m.fit (hpart (by simp [Stmt.children])))
      (fun hgap => m.bounded hgap hhere)).bind (fun s₁ t₁ f f' _ hf => ?_)
    obtain ⟨rfl, hf⟩ := hf
    refine (alike_declare c.scope (m.names hx (by simp [Node.names])) hf).bind ?_
    exact fun _ _ _ _ _ _ => alike_normal
  | returning l value =>
    cases value with
    | none => exact alike_pure ⟨rfl, by rintro v ⟨⟩; trivial⟩
    | some x =>
      refine h.evaluating (hpart (by simp [Stmt.children])) hhere (fun s' t' v _ hv _ => alike_pure ⟨rfl, ?_⟩)
      rintro u ⟨⟩
      exact hv
  | conditional l condition x y =>
    refine alike_choice h (hpart (by simp [Stmt.children])) (hpart (by simp [Stmt.children])) (fun z hz => ?_) hhere
    obtain rfl : y = some z := hz
    exact hpart (by simp [Stmt.children])
  | whileLoop l condition body =>
    exact alike_whileRounds h (hpart (by simp [Stmt.children])) (hpart (by simp [Stmt.children])) h.rounds hhere
  | doLoop l body condition =>
    exact alike_doRounds h (hpart (by simp [Stmt.children])) (hpart (by simp [Stmt.children])) h.rounds hhere
  | forLoop l start condition updaters body =>
    refine alike_for h (hpart (by simp [Stmt.children])) (fun x hx => ?_)
      (fun x hx => hpart (by simp [Stmt.children, hx])) (hpart (by simp [Stmt.children])) hhere
    obtain rfl : condition = some x := hx
    exact hpart (by simp [Stmt.children])
  | forIn l name iterable body declares =>
    exact alike_forIn h (m.names hx (by simp [Node.names])) (hpart (by simp [Stmt.children]))
      (hpart (by simp [Stmt.children])) declares hhere
  | breaking l => exact alike_complete (fun _ h => by cases h)
  | continuing l => exact alike_complete (fun _ h => by cases h)
  | empty l => exact alike_normal
  | misplaced l kind => exact alike_fail_closed rfl
  | trying l body clauses finallyBlock => cases hplain
  | rethrowing l => cases hplain

/-! ### Handling errors -/

theorem Tables.fault_known {K : Value → Prop} (h : w.Tables K s t) (a : Nat) : (s.fault a).Known K := by
  unfold Store.fault
  cases he : s.errors[a]? with
  | none => trivial
  | some e =>
    obtain ⟨e', -, hee'⟩ := h.errors.entry a e he
    exact hee'.known

/-- A clause binds corresponding values. -/
theorem Tables.catchBindings {K : Value → Prop} (h : w.Tables K s t) {error : Nat} (herror : K (.error error))
    (exceptionName traceName : Option String) :
    w.Bindings K (Dartlet.catchBindings s error exceptionName traceName)
      (Dartlet.catchBindings t (w.shifts.error.apply error) exceptionName traceName) := by
  have hcaught : w.Values K [caughtValue s error] [caughtValue t (w.shifts.error.apply error)] := by
    have hknown := h.fault_known error
    unfold caughtValue
    rw [h.fault]
    cases hfault : s.fault error with
    | thrown v shown =>
      rw [hfault] at hknown
      exact .single hknown
    | _ => exact .single herror
  have hsame : caughtValue t (w.shifts.error.apply error) = (caughtValue s error).shift w.shifts := by
    simpa using hcaught.same
  have hvalue : (caughtValue s error).Known K := hcaught.known _ List.mem_cons_self
  unfold Dartlet.catchBindings
  rw [hsame]
  constructor
  · cases exceptionName <;> cases traceName <;> rfl
  · intro b hb
    rcases List.mem_append.mp hb with hb | hb
    · obtain ⟨n, -, rfl⟩ := List.mem_map.mp hb
      exact hvalue
    · obtain ⟨n, -, rfl⟩ := List.mem_map.mp hb
      trivial

/-- A scope that is not in the first store may change. -/
theorem Later.modify_new {s' : Store} (h : w.Later s s') {a : Nat} (ha : s.scopes.size ≤ a) (f : Scope → Scope) :
    w.Later s { s' with scopes := s'.scopes.modify a f } := by
  refine ⟨fun b x hx => ?_, h.errors, h.natives, h.lists⟩
  obtain ⟨y, hy, hsame⟩ := h.scopes b x hx
  have hlt : b < s.scopes.size := (Array.getElem?_eq_some_iff.mp hx).1
  refine ⟨y, ?_, hsame⟩
  rw [Array.getElem?_modify, if_neg (by omega)]
  exact hy

theorem later_openClause (s : Store) (parent error : Address) (exceptionName traceName : Option String) :
    w.Later s (openClause s parent error exceptionName traceName) :=
  ((later_enter s parent).modify_new (Nat.le_refl _) _).trans (later_declareAll _ _ _)

theorem follows_openClause (hst : w.Parallel s t) {parent : Nat}
    (hparent : w.shifts.scope.gap ≠ 0 → parent < s.scopes.size) {error : Nat} (herror : w.Known s (.error error))
    {exceptionName traceName : Option String}
    (hnames : ∀ name ∈ exceptionName.toList ++ traceName.toList, w.hidden name = false) :
    w.Follows s t (openClause s parent error exceptionName traceName)
      (openClause t (w.shifts.scope.apply parent) (w.shifts.error.apply error) exceptionName traceName) := by
  refine Tables.follows ?_ (later_openClause s _ _ _ _) (later_openClause t _ _ _ _)
  have henter := Tables.enter hst hparent
  have hmarked := Tables.setActiveError henter (s.enter parent).1 herror
  rw [← Tables.enter_fst hst parent (w.shifts.scope.apply parent)] at hmarked
  have hbindings := Tables.catchBindings hmarked herror exceptionName traceName
  have hall := Tables.declareAll hmarked (s.enter parent).1 hbindings (fun b hb => hnames b.1 ?_)
  · rw [← Tables.enter_fst hst parent (w.shifts.scope.apply parent)] at hall
    exact hall
  · rcases List.mem_append.mp hb with hb | hb
    · obtain ⟨n, hn, rfl⟩ := List.mem_map.mp hb
      exact List.mem_append_left _ hn
    · obtain ⟨n, hn, rfl⟩ := List.mem_map.mp hb
      exact List.mem_append_right _ hn

theorem alike_runClause (h : w.Agrees m e e') {error : Nat} (herror : w.Known s (.error error)) {k : CatchClause}
    (hbody : m.Tree (.stmt k.body)) (hnames : ∀ name ∈ (Node.clause k).names, w.hidden name = false)
    (hscope : w.shifts.scope.gap ≠ 0 → c.scope < s.scopes.size)
    (hhere : ∀ exceptionName traceName,
      m.Here (openClause s c.scope error exceptionName traceName) (s.enter c.scope).1) :
    w.Alike false w.Com s t (runClause e c error k) (runClause e' (w.move c) (w.shifts.error.apply error) k) := by
  obtain ⟨l, body, type, exceptionName, traceName⟩ := k
  cases type with
  | some type => exact alike_fail_closed rfl
  | none =>
    intro hst
    have hopen := follows_openClause hst hscope herror hnames
    rw [runClause_eq, runClause_eq, move_scope, Tables.enter_fst hst c.scope, ← move_at]
    exact Matches.after ((h.exec hbody (hhere exceptionName traceName)).alike hopen.parallel) hopen

theorem alike_handlingBy {run run' : Address → CatchClause → Action Completion} {clauses : List CatchClause}
    {x y : Action Completion} (hxy : w.Settled w.Com s t x y)
    (hrun : ∀ s' t' error, ∀ k ∈ clauses, w.Follows s t s' t' → w.Known s' (.error error) →
      w.Alike false w.Com s' t' (run error k) (run' (w.shifts.error.apply error) k)) :
    w.Alike false w.Com s t (handlingBy run clauses x) (handlingBy run' clauses y) := by
  intro hst
  have h := hxy hst
  unfold handlingBy
  generalize x s = o at h ⊢
  generalize y t = o' at h ⊢
  cases h with
  | done hq hf => exact .done hq hf
  | escaped hfail hf => exact .escaped hfail hf
  | exhausted hf => exact .exhausted hf
  | gaveUp hw => exact .gaveUp hw
  | raised herror hf =>
    cases clauses with
    | nil => exact .raised (.of_known herror) hf
    | cons k rest => exact (hrun _ _ _ k List.mem_cons_self hf herror hf.parallel).after hf

theorem alike_ensuring (h : w.Agrees m e e') {block : Option Stmt} (hblock : ∀ x ∈ block, m.Tree (.stmt x))
    (hhere : m.Here s c.scope) {x y : Action Completion} (hxy : w.Alike false w.Com s t x y) :
    w.Alike false w.Com s t (ensuring e c block x) (ensuring e' (w.move c) block y) := by
  cases block with
  | none => exact hxy
  | some statement =>
    intro hst
    have hmatches := hxy hst
    unfold ensuring
    dsimp only
    generalize x s = o at hmatches ⊢
    generalize y t = o' at hmatches ⊢
    cases hmatches with
    | escaped hfail hf => exact .escaped hfail hf
    | exhausted hf => exact .exhausted hf
    | gaveUp hw => exact .gaveUp hw
    | done hq hf =>
      have hhere' := m.later hhere hf.first
      refine Matches.after (h.executing (hblock _ rfl) hhere' (fun s' t' k k' hf' hk _ => ?_) hf.parallel) hf
      obtain ⟨rfl, hknown⟩ := hk
      rw [isAbrupt_shift]
      split
      · exact alike_pure ⟨rfl, hknown⟩
      · exact alike_pure (hq.later hf'.first)
    | raised hp hf =>
      -- the error waits until the block has run, and then goes on as it is
      have hmatches := h.exec (hblock _ rfl) (m.later hhere hf.first) hf.parallel
      change w.Matches false _ _ s t (Action.bind _ _ _) (Action.bind _ _ _)
      unfold Action.bind
      generalize e.exec c statement _ = o at hmatches ⊢
      generalize e'.exec (w.move c) statement _ = o' at hmatches ⊢
      cases hmatches with
      | escaped hfail hf' => exact .escaped hfail (hf.trans hf')
      | exhausted hf' => exact .exhausted (hf.trans hf')
      | gaveUp hw => exact .gaveUp hw
      | raised herror hf' => exact .raised (.of_known herror) (hf.trans hf')
      | done hk hf' =>
        obtain ⟨rfl, hknown⟩ := hk
        simp only [isAbrupt_shift]
        split
        · exact .done ⟨rfl, hknown⟩ (hf.trans hf')
        · exact .raised (hp.follow hf') (hf.trans hf')

/-- Raise again the error that both runs are handling. -/
theorem alike_rethrow (hw : w.handled = false) :
    w.Alike false w.Com s t (execRethrow c) (execRethrow (w.move c)) := by
  intro hst
  unfold execRethrow
  rw [move_scope, Tables.handledError? hst]
  cases hhandled : s.handledError? c.scope with
  | some error => exact alike_raise (Tables.handledFrom?_known hst hhandled) hst
  | none => exact alike_fail (f := .rethrowOutsideCatch) trivial (fun hw' => absurd hw' (by simp [hw])) hst

/-- A manner that clauses leave as it is. -/
structure Manner.Passes (m : w.Manner) : Prop where
  clause : ∀ {k : CatchClause}, m.Tree (.clause k) → m.Tree (.stmt k.body)
  here : ∀ {s : Store} {a : Nat} (error : Address) (exceptionName traceName : Option String), m.Here s a →
    m.Here (openClause s a error exceptionName traceName) (s.enter a).1

theorem alike_execForm (h : w.Agrees m e e') (hm : m.Passes) (hw : w.handled = false) {x : Stmt}
    (hx : m.Tree (.stmt x)) (hhere : m.Here s c.scope) :
    w.Alike false w.Com s t (execForm e c x) (execForm e' (w.move c) x) := by
  cases x with
  | trying l body clauses finallyBlock =>
    have hpart {n : Node} (hn : n ∈ (Stmt.trying l body clauses finallyBlock).children) : m.Tree n := m.part hx rfl hn
    have hbody : m.Tree (.stmt body) := hpart (by simp [Stmt.children])
    refine alike_ensuring h (fun x hx => ?_) hhere (alike_handlingBy (h.exec hbody hhere) (fun s' t' error k hk hf herror => ?_))
    · obtain rfl : finallyBlock = some x := hx
      exact hpart (by simp [Stmt.children])
    · have hclause : m.Tree (.clause k) := hpart (by simp [Stmt.children, hk])
      have hhere' := m.later hhere hf.first
      exact alike_runClause h herror (hm.clause hclause) (fun name hname => m.names hclause hname)
        (fun hgap => m.bounded hgap hhere') (fun _ _ => hm.here error _ _ hhere')
  | rethrowing l => exact alike_rethrow hw
  | _ => exact alike_plainForm h hx rfl hhere

end Comparison
end Dartlet
