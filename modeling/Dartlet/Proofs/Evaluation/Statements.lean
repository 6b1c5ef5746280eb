import Dartlet.Proofs.Evaluation.Expressions

/-!
# Statements keep a discipline

Every kind of statement keeps the invariant of a discipline and completes as the discipline allows,
provided that the engine that does the work of its parts does. By induction on the levels, so does
the interpreter.
-/

namespace Dartlet.Discipline

open Dartlet.Action
open Dartlet.Syntax (CatchClause Expr LoopStart Node Stmt Variable)

set_option linter.unusedSectionVars false

variable {d : Discipline} {e : Engine} {c : Context}

/-- A statement may always complete otherwise than by a jump. -/
theorem ends_of_not_jump (d : Discipline) (x : Stmt) {k : Completion} (hk : k.isJump = false) : d.Ends x k := by
  cases k with
  | normal => exact d.ends_normal x
  | returning v => exact d.ends_returning x v
  | breaking => cases hk
  | continuing => cases hk

theorem execAll_ensures (h : d.Obeyed e) {x : Stmt} (statements : List Stmt)
    (hgood : ∀ y ∈ statements, d.Good (.stmt y)) (hadmits : ∀ y ∈ statements, d.Admits c.scope y)
    (hthrough : ∀ y ∈ statements, y ∈ x.throughParts) : Ensures d.Inv (d.Ends x) (execAll e c statements) := by
  induction statements with
  | nil => exact ensures_pure (d.ends_normal x)
  | cons y rest ih =>
    have hy := h.exec c y (hgood y List.mem_cons_self) (hadmits y List.mem_cons_self)
    refine hy.bind (fun k hk => ensures_ite (fun _ => ?_) (fun _ => ?_))
    · exact ensures_pure (d.ends_part (hthrough y List.mem_cons_self) hk)
    · exact ih (fun z hz => hgood z (List.mem_cons_of_mem y hz)) (fun z hz => hadmits z (List.mem_cons_of_mem y hz))
        (fun z hz => hthrough z (List.mem_cons_of_mem y hz))

theorem evalAll_keeps (h : d.Obeyed e) (c : Context) (values : List Expr)
    (hgood : ∀ y ∈ values, d.Good (.expr y)) : Keeps d.Inv (evalAll e c values) := by
  induction values with
  | nil => exact keeps_pure ()
  | cons y rest ih =>
    refine (h.eval c y (hgood y List.mem_cons_self)).bind (fun _ => ?_)
    exact ih (fun z hz => hgood z (List.mem_cons_of_mem y hz))

theorem declareVariables_keeps (h : d.Obeyed e) {x : Stmt} (hx : d.Admits c.scope x)
    (vs : List Variable) (hgood : ∀ v ∈ vs, d.Good (.var v))
    (hnames : ∀ l name value, Variable.mk l name value ∈ vs → name ∈ x.names) :
    Keeps d.Inv (declareVariables e c vs) := by
  induction vs with
  | nil => exact keeps_pure ()
  | cons v rest ih =>
    obtain ⟨l, name, value⟩ := v
    have hrest := ih (fun w hw => hgood w (List.mem_cons_of_mem _ hw))
      (fun l name value hw => hnames l name value (List.mem_cons_of_mem _ hw))
    have hname := hnames l name value List.mem_cons_self
    have hdeclare (v : Value) : Keeps d.Inv (declare c.scope name v) :=
      keeps_modify (fun _ hs => d.admits_name v hx hname hs)
    cases value with
    | none => exact (keeps_pure _).bind (fun v => (hdeclare v).bind (fun _ => hrest))
    | some y =>
      refine (h.eval c y (d.good_part (hgood _ List.mem_cons_self) (by simp [Node.children]))).bind (fun v => ?_)
      exact (hdeclare v).bind (fun _ => hrest)

/-! ### Loops -/

/-- What a round of a loop makes of its body's completion is never a jump. -/
theorem loopExit?_isJump {k done : Completion} (h : loopExit? k = some done) : done.isJump = false := by
  cases k with
  | normal => cases h
  | continuing => cases h
  | breaking => cases h; rfl
  | returning v => cases h; rfl

/-- A round of a loop goes on to the next one or ends the loop, and then not by a jump. -/
theorem round_ensures {k : Completion} {next : Action Completion}
    (hnext : Ensures d.Inv (fun done => done.isJump = false) next) :
    Ensures d.Inv (fun done => done.isJump = false)
      (match loopExit? k with
        | some done => pure done
        | none => next) := by
  split
  · exact ensures_pure (loopExit?_isJump ‹_›)
  · exact hnext

variable [Host]

theorem whileRounds_ensures (h : d.Obeyed e) {condition : Expr} {body : Stmt} (hcond : d.Good (.expr condition))
    (hbody : d.Good (.stmt body)) (hadmits : d.Admits c.scope body) (rounds : Nat) :
    Ensures d.Inv (fun k => k.isJump = false) (whileRounds e c condition body rounds) := by
  induction rounds with
  | zero => exact ensures_exhaust
  | succ rounds ih =>
    refine (h.eval c condition hcond).bind (fun v => ?_)
    refine (d.stable.requireBool v _).bind (fun b => ensures_ite (fun _ => ?_) (fun _ => ensures_pure rfl))
    exact (h.exec c body hbody hadmits).bind (fun k _ => round_ensures ih)

theorem doRounds_ensures (h : d.Obeyed e) {condition : Expr} {body : Stmt} (hcond : d.Good (.expr condition))
    (hbody : d.Good (.stmt body)) (hadmits : d.Admits c.scope body) (rounds : Nat) :
    Ensures d.Inv (fun k => k.isJump = false) (doRounds e c body condition rounds) := by
  induction rounds with
  | zero => exact ensures_exhaust
  | succ rounds ih =>
    refine (h.exec c body hbody hadmits).bind (fun k _ => round_ensures ?_)
    refine (h.eval c condition hcond).bind (fun v => ?_)
    exact (d.stable.requireBool v _).bind (fun b => ensures_ite (fun _ => ih) (fun _ => ensures_pure rfl))

theorem forCondition_keeps (h : d.Obeyed e) (c : Context) (condition : Option Expr)
    (hcond : ∀ x ∈ condition, d.Good (.expr x)) : Keeps d.Inv (forCondition e c condition) := by
  cases condition with
  | none => exact keeps_pure true
  | some x => exact (h.eval c x (hcond x rfl)).bind (fun v => d.stable.requireBool v _)

theorem forRounds_ensures (h : d.Obeyed e) {condition : Option Expr} {updaters : List Expr} {body : Stmt}
    (hcond : ∀ x ∈ condition, d.Good (.expr x)) (hupdaters : ∀ x ∈ updaters, d.Good (.expr x))
    (hbody : d.Good (.stmt body)) (hadmits : d.Admits c.scope body) (rounds : Nat) :
    Ensures d.Inv (fun k => k.isJump = false) (forRounds e c condition updaters body rounds) := by
  induction rounds with
  | zero => exact ensures_exhaust
  | succ rounds ih =>
    refine (forCondition_keeps h c condition hcond).bind (fun b => ?_)
    refine ensures_ite (fun _ => ?_) (fun _ => ensures_pure rfl)
    refine (h.exec c body hbody hadmits).bind (fun k _ => round_ensures ?_)
    exact (evalAll_keeps h c updaters hupdaters).bind (fun _ => ih)

theorem startLoop_keeps (h : d.Obeyed e) (hown : d.Own c.scope) {start : LoopStart} (hstart : d.Good (.start start)) :
    Keeps d.Inv (startLoop e c start) := by
  cases start with
  | nothing => exact keeps_pure ()
  | declarations x =>
    have hx := h.exec c x (d.good_part hstart (by simp [Node.children])) (d.admits_own x hown)
    exact hx.bind (fun _ _ => keeps_pure ())
  | expressions values =>
    exact evalAll_keeps h c values (fun y hy => d.good_part hstart (List.mem_map_of_mem hy))

theorem execFor_ensures (h : d.Obeyed e) (c : Context) {l : Syntax.Location} {start : LoopStart}
    {condition : Option Expr} {updaters : List Expr} {body : Stmt}
    (hx : d.Good (.stmt (.forLoop l start condition updaters body))) :
    Ensures d.Inv (fun k => k.isJump = false) (execFor e c start condition updaters body) := by
  refine (d.enterScope_ensures c.scope).bind (fun scope hscope => ?_)
  have hown : d.Own (c.at scope).scope := hscope
  refine (startLoop_keeps h hown (d.good_part hx (by simp [Node.children, Stmt.children]))).bind (fun _ => ?_)
  refine forRounds_ensures h ?_ ?_ (d.good_part hx (by simp [Node.children, Stmt.children]))
    (d.admits_own body hown) e.rounds
  · rintro x hcond
    exact d.good_part hx (by simp_all [Node.children, Stmt.children])
  · intro x hmem
    exact d.good_part hx (by simp [Node.children, Stmt.children, hmem])

theorem bindElement_ensures (d : Discipline) {name : String} {declares : Bool} {body : Stmt}
    (hadmits : declares = false → d.Admits c.scope body) (item : Value) :
    Ensures d.Inv (fun round => d.Admits round.scope body) (bindElement c name declares item) := by
  refine ensures_ite (fun _ => ?_) (fun hd => ?_)
  · refine (d.enterScope_ensures c.scope).bind (fun scope hscope => ?_)
    refine Keeps.bind (keeps_modify (fun _ hs => d.declaring name item hscope hs)) (fun _ => ?_)
    exact ensures_pure (d.admits_own body hscope)
  · refine (d.assign_keeps c.scope name item).bind (fun _ => ensures_pure ?_)
    exact hadmits (by simpa using hd)

theorem forInRounds_ensures (h : d.Obeyed e) {name : String} {declares : Bool} {body : Stmt}
    (hbody : d.Good (.stmt body)) (hadmits : declares = false → d.Admits c.scope body) (items : List Value) :
    Ensures d.Inv (fun k => k.isJump = false) (forInRounds e c name declares body items) := by
  induction items with
  | nil => exact ensures_pure rfl
  | cons item rest ih =>
    refine (d.bindElement_ensures hadmits item).bind (fun round hround => ?_)
    exact (h.exec round body hbody hround).bind (fun k _ => round_ensures ih)

theorem execForIn_ensures (h : d.Obeyed e) {l : Syntax.Location} {name : String} {iterable : Expr} {body : Stmt}
    {declares : Bool} (hx : d.Good (.stmt (.forIn l name iterable body declares)))
    (hadmits : d.Admits c.scope (.forIn l name iterable body declares)) :
    Ensures d.Inv (fun k => k.isJump = false) (execForIn e c name iterable body declares) := by
  refine (h.eval c iterable (d.good_part hx (by simp [Node.children, Stmt.children]))).bind (fun v => ?_)
  refine (d.elementsOf?_keeps v).bind (fun items => ?_)
  cases items with
  | none => exact d.stable.complaint (fun _ => rfl)
  | some items =>
    refine forInRounds_ensures h (d.good_part hx (by simp [Node.children, Stmt.children])) (fun hd => ?_) items
    subst hd
    exact d.admits_part hadmits (by simp [Stmt.openParts])

/-! ### Errors -/

theorem runClause_ensures (h : d.Obeyed e) (c : Context) (error : Address) {x : Stmt} {clause : CatchClause}
    (hclause : d.Good (.clause clause))
    (hthrough : ∀ l y t n m, clause = .mk l y t n m → y ∈ x.throughParts) :
    Ensures d.Inv (d.Ends x) (runClause e c error clause) := by
  obtain ⟨l, y, type, exceptionName, traceName⟩ := clause
  cases type with
  | some type => exact fail_keeps hclause (.clause l y type exceptionName traceName)
  | none =>
    refine (d.enterScope_ensures c.scope).bind (fun scope hscope => ?_)
    refine Keeps.bind (keeps_modify (fun _ hs => d.marking error hscope hs)) (fun _ => ?_)
    refine Keeps.bind (keeps_modify (fun _ hs => declareAll_keeps hscope _ hs)) (fun _ => ?_)
    have hy := h.exec (c.at scope) y (d.good_part hclause (by simp [Node.children])) (d.admits_own y hscope)
    exact hy.mono (fun k hk => d.ends_part (hthrough l y _ _ _ rfl) hk)

theorem handling_ensures (h : d.Obeyed e) (c : Context) {x : Stmt} {clauses : List CatchClause}
    {action : Action Completion} (haction : Ensures d.Inv (d.Ends x) action)
    (hclauses : ∀ clause ∈ clauses, d.Good (.clause clause))
    (hthrough : ∀ l y t n m, CatchClause.mk l y t n m ∈ clauses → y ∈ x.throughParts) :
    Ensures d.Inv (d.Ends x) (handling e c clauses action) := by
  intro s hs
  have h₁ := haction s hs
  unfold handling
  cases hrun : action s with
  | done k t => rwa [hrun] at h₁
  | escaped f t => rwa [hrun] at h₁
  | exhausted t => rwa [hrun] at h₁
  | raised error t =>
    rw [hrun] at h₁
    cases clauses with
    | nil => exact h₁
    | cons clause rest =>
      refine runClause_ensures h c error (hclauses clause List.mem_cons_self) ?_ t h₁
      rintro l y u n m rfl
      exact hthrough l y u n m List.mem_cons_self

theorem ensuring_ensures (h : d.Obeyed e) {x : Stmt} {block : Option Stmt} {action : Action Completion}
    (haction : Ensures d.Inv (d.Ends x) action) (hgood : ∀ y ∈ block, d.Good (.stmt y))
    (hadmits : ∀ y ∈ block, d.Admits c.scope y) (hthrough : ∀ y ∈ block, y ∈ x.throughParts) :
    Ensures d.Inv (d.Ends x) (ensuring e c block action) := by
  cases block with
  | none => exact haction
  | some y =>
    have hy : Ensures d.Inv (d.Ends x) (e.exec c y) :=
      (h.exec c y (hgood y rfl) (hadmits y rfl)).mono (fun k hk => d.ends_part (hthrough y rfl) hk)
    intro s hs
    have h₁ := haction s hs
    simp only [ensuring]
    cases hrun : action s with
    | escaped f t => simpa only [hrun] using h₁
    | exhausted t => simpa only [hrun] using h₁
    | done k t =>
      rw [hrun] at h₁
      refine hy.bind (fun last hlast => ensures_pure ?_) t h₁.2
      split
      · exact hlast
      · exact h₁.1
    | raised error t =>
      rw [hrun] at h₁
      exact hy.bind (fun last hlast => ensures_ite (fun _ => ensures_pure hlast) (fun _ => ensures_raise _)) t h₁

theorem execRethrow_ensures {Q : Completion → Prop} {l : Syntax.Location} (c : Context)
    (hx : d.Good (.stmt (.rethrowing l))) : Ensures d.Inv Q (execRethrow c) := by
  intro s hs
  unfold execRethrow
  split
  · exact hs
  · exact fail_keeps hx (.rethrowing l) s hs

theorem execConditional_ensures (h : d.Obeyed e) {l : Syntax.Location} {condition : Expr} {t : Stmt}
    {f : Option Stmt} (hx : d.Good (.stmt (.conditional l condition t f)))
    (hadmits : d.Admits c.scope (.conditional l condition t f)) :
    Ensures d.Inv (d.Ends (.conditional l condition t f)) (execConditional e c condition t f) := by
  have hpart (y : Stmt) (hy : y ∈ t :: f.toList) :
      Ensures d.Inv (d.Ends (.conditional l condition t f)) (e.exec c y) := by
    have hgood : d.Good (.stmt y) := d.good_part hx (by simpa [Node.children, Stmt.children] using hy)
    exact (h.exec c y hgood (d.admits_part hadmits hy)).mono (fun k hk => d.ends_part hy hk)
  refine (h.eval c condition (d.good_part hx (by simp [Node.children, Stmt.children]))).bind (fun v => ?_)
  refine (d.stable.requireBool v _).bind (fun b => ?_)
  refine ensures_ite (fun _ => hpart t List.mem_cons_self) (fun _ => ?_)
  cases f with
  | none => exact ensures_pure (d.ends_normal _)
  | some y => exact hpart y (by simp)

theorem execTrying_ensures (h : d.Obeyed e) {l : Syntax.Location} {body : Stmt} {clauses : List CatchClause}
    {f : Option Stmt} (hx : d.Good (.stmt (.trying l body clauses f)))
    (hadmits : d.Admits c.scope (.trying l body clauses f)) :
    Ensures d.Inv (d.Ends (.trying l body clauses f))
      (ensuring e c f (handling e c clauses (e.exec c body))) := by
  have hbody := h.exec c body (d.good_part hx (by simp [Node.children, Stmt.children]))
    (d.admits_part hadmits (by simp [Stmt.openParts]))
  refine ensuring_ensures h (handling_ensures h c (hbody.mono (fun k hk => ?_)) ?_ ?_) ?_ ?_ ?_
  · exact d.ends_part (by simp [Stmt.throughParts]) hk
  · exact fun clause hmem => d.good_part hx (by simp [Node.children, Stmt.children, hmem])
  · intro l y t n m hmem
    have hbody : y ∈ clauses.map CatchClause.body := List.mem_map_of_mem (f := CatchClause.body) hmem
    simp only [Stmt.throughParts, List.cons_append, List.mem_cons, List.mem_append]
    exact .inr (.inl hbody)
  · exact fun y hy => d.good_part hx (by simp_all [Node.children, Stmt.children])
  · exact fun y hy => d.admits_part hadmits (by simp_all [Stmt.openParts])
  · exact fun y hy => by simp_all [Stmt.throughParts]

/-- Executing a statement keeps the invariant and completes as it may, if the engine for its parts
does so. -/
theorem execForm_ensures (h : d.Obeyed e) {x : Stmt} (hx : d.Good (.stmt x)) (hadmits : d.Admits c.scope x) :
    Ensures d.Inv (d.Ends x) (execForm e c x) := by
  cases x with
  | unit l declarations =>
    exact execAll_ensures h declarations (fun y hy => d.good_part hx (List.mem_map_of_mem hy))
      (fun y hy => d.admits_part hadmits hy) (fun y hy => hy)
  | block l statements =>
    refine (d.enterScope_ensures c.scope).bind (fun scope hscope => ?_)
    exact execAll_ensures h statements (fun y hy => d.good_part hx (List.mem_map_of_mem hy))
      (fun y _ => d.admits_own y hscope) (fun y hy => hy)
  | expression l value =>
    refine (h.eval c value (d.good_part hx (by simp [Node.children, Stmt.children]))).bind (fun _ => ?_)
    exact ensures_pure (d.ends_normal _)
  | «variables» l vs keyword typeName =>
    refine (declareVariables_keeps h hadmits vs (fun v hv => d.good_part hx (List.mem_map_of_mem hv))
      (fun l name value hv => ?_)).bind (fun _ => ensures_pure (d.ends_normal _))
    exact List.mem_map_of_mem (f := Variable.name) hv
  | function l name parameters body returnType =>
    have hbody : d.Good (.body body) := d.good_part hx (by simp [Node.children, Stmt.children])
    refine (makeClosure_keeps hx (some name) parameters hbody c.scope
      (Node.Raises.function l name parameters body returnType)).bind (fun f => ?_)
    refine Keeps.bind (keeps_modify (fun _ hs => d.admits_name f hadmits (by simp [Stmt.names]) hs)) (fun _ => ?_)
    exact ensures_pure (d.ends_normal _)
  | returning l value =>
    cases value with
    | none => exact ensures_pure (d.ends_returning _ _)
    | some y =>
      refine (h.eval c y (d.good_part hx (by simp [Node.children, Stmt.children]))).bind (fun v => ?_)
      exact ensures_pure (d.ends_returning _ v)
  | conditional l condition t f => exact execConditional_ensures h hx hadmits
  | whileLoop l condition body =>
    refine (whileRounds_ensures h (d.good_part hx (by simp [Node.children, Stmt.children]))
      (d.good_part hx (by simp [Node.children, Stmt.children]))
      (d.admits_part hadmits (by simp [Stmt.openParts])) e.rounds).mono (fun k hk => d.ends_of_not_jump _ hk)
  | doLoop l body condition =>
    refine (doRounds_ensures h (d.good_part hx (by simp [Node.children, Stmt.children]))
      (d.good_part hx (by simp [Node.children, Stmt.children]))
      (d.admits_part hadmits (by simp [Stmt.openParts])) e.rounds).mono (fun k hk => d.ends_of_not_jump _ hk)
  | forLoop l start condition updaters body =>
    exact (execFor_ensures h c hx).mono (fun k hk => d.ends_of_not_jump _ hk)
  | forIn l name iterable body declares =>
    exact (execForIn_ensures h hx hadmits).mono (fun k hk => d.ends_of_not_jump _ hk)
  | breaking l => exact ensures_pure (d.ends_breaking l)
  | continuing l => exact ensures_pure (d.ends_continuing l)
  | trying l body clauses f => exact execTrying_ensures h hx hadmits
  | rethrowing l => exact execRethrow_ensures c hx
  | empty l => exact ensures_pure (d.ends_normal _)
  | misplaced l kind => exact fail_keeps hx (.statement l kind)

/-! ### The interpreter -/

/-- The interpreter obeys every discipline, however many levels it has. -/
theorem obeyed (d : Discipline) (level : Nat) : d.Obeyed (interpreter level) := by
  induction level with
  | zero => exact ⟨fun _ _ _ => ensures_exhaust, fun _ _ _ _ => ensures_exhaust, fun _ _ _ => ensures_exhaust⟩
  | succ level ih =>
    exact ⟨fun c x hx => d.stable.within (ih.caller c.depth) x.location (evalForm_keeps ih c hx),
      fun c x hx ha => d.stable.within (ih.caller c.depth) x.location (execForm_ensures ih hx ha), callValue_keeps ih⟩

end Dartlet.Discipline
