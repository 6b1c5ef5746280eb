import Dartlet.Eval.Interpreter
import Dartlet.Proofs.Effects.Host
import Dartlet.Proofs.Program.Node

/-!
# Disciplines of evaluation

A discipline says what a run maintains: an invariant of the store, which constructs the run meets,
in which scopes statements may bind names, and how statements may complete. Its laws speak of single
steps only: of the operations on the store and of a construct and its parts. They suffice for whole
runs: the evaluator obeys every discipline at every level of nesting.
-/

namespace Dartlet

open Dartlet.Action
open Dartlet.Syntax (Element Expr FunctionBody Node Stmt)

set_option linter.unusedSectionVars false

variable [Host]

/-- Whether a completion is a jump to the end or to the next round of a loop. -/
def Completion.isJump : Completion → Bool
  | .breaking | .continuing => true
  | _ => false

/-- What runs maintain, with the laws of single steps that make them do so. -/
structure Discipline where
  /-- What holds of the store at every point. -/
  Inv : Store → Prop
  /-- The scopes that were made during the run. -/
  Own : Address → Prop
  /-- The constructs that the run may meet. -/
  Good : Node → Prop
  /-- The statements that may run directly in a scope. -/
  Admits : Address → Stmt → Prop
  /-- The completions that a statement may have. -/
  Ends : Stmt → Completion → Prop
  stable : Stable Inv
  good_part : ∀ {n m : Node}, Good n → m ∈ n.children → Good m
  good_closure : ∀ {s : Store} {a : Address} {f : Closure},
    Inv s → s.closures[a]? = some f → Good (.body f.body)
  raises : ∀ {n : Node} {f : Fault} {s : Store}, Good n → n.Raises f → Inv s → Inv (s.addError f).2
  closing : ∀ {s : Store} (f : Closure), Good (.body f.body) → Inv s → Inv (s.addClosure f).2
  entering : ∀ {s : Store} (parent : Address), Inv s → Own (s.enter parent).1 ∧ Inv (s.enter parent).2
  declaring : ∀ {s : Store} {a : Address} (name : String) (v : Value),
    Own a → Inv s → Inv (s.declare a name v)
  assigning : ∀ {s t : Store} {a : Address} {name : String} {v : Value},
    s.update? a name v = some t → Inv s → Inv t
  marking : ∀ {s : Store} {a : Address} (error : Address), Own a → Inv s → Inv (s.setActiveError a error)
  admits_own : ∀ {a : Address} (x : Stmt), Own a → Admits a x
  admits_part : ∀ {a : Address} {x y : Stmt}, Admits a x → y ∈ x.openParts → Admits a y
  admits_name : ∀ {s : Store} {a : Address} {x : Stmt} {name : String} (v : Value),
    Admits a x → name ∈ x.names → Inv s → Inv (s.declare a name v)
  ends_normal : ∀ x : Stmt, Ends x .normal
  ends_returning : ∀ (x : Stmt) (v : Value), Ends x (.returning v)
  ends_breaking : ∀ l : Syntax.Location, Ends (.breaking l) .breaking
  ends_continuing : ∀ l : Syntax.Location, Ends (.continuing l) .continuing
  ends_part : ∀ {x y : Stmt} {k : Completion}, y ∈ x.throughParts → Ends y k → Ends x k
  /-- A function body that completes by a jump raises an error. -/
  jumping : ∀ {l : Syntax.Location} {x : Stmt} {k : Completion} {keyword : String} {s : Store},
    Good (.body (.block l x)) → Ends x k → k.isJump = true → Inv s →
      Inv (s.addError (.jumpOutsideLoop keyword)).2

namespace Discipline

/-- An engine that maintains what a discipline says. -/
structure Obeyed (d : Discipline) (e : Engine) : Prop where
  eval : ∀ (c : Context) (x : Expr), d.Good (.expr x) → Keeps d.Inv (e.eval c x)
  exec : ∀ (c : Context) (x : Stmt), d.Good (.stmt x) → d.Admits c.scope x →
    Ensures d.Inv (d.Ends x) (e.exec c x)
  call : ∀ (depth : Nat) (f : Value) (arguments : List Value), Keeps d.Inv (e.call depth f arguments)

variable {d : Discipline} {e : Engine}

theorem Obeyed.caller (h : d.Obeyed e) (depth : Nat) : (e.caller depth).Keeps d.Inv := h.call depth

theorem fail_keeps {α : Type} {Q : α → Prop} {n : Node} {f : Fault} (hn : d.Good n) (hf : n.Raises f) :
    Ensures d.Inv Q (fail f : Action α) :=
  ensures_fail (fun _ hs => d.raises hn hf hs)

theorem enterScope_ensures (d : Discipline) (parent : Address) :
    Ensures d.Inv d.Own (enterScope parent) :=
  ensures_update (fun _ hs => d.entering parent hs)

theorem assign_keeps (d : Discipline) (scope : Address) (name : String) (v : Value) :
    Keeps d.Inv (assign scope name v) := by
  intro s hs
  unfold assign
  split
  · exact ⟨trivial, d.assigning ‹_› hs⟩
  · exact d.stable.fail rfl s hs

theorem declareAll_keeps {a : Address} (ha : d.Own a) (bindings : List (String × Value)) {s : Store}
    (hs : d.Inv s) : d.Inv (s.declareAll a bindings) := by
  induction bindings generalizing s with
  | nil => exact hs
  | cons b rest ih => exact ih (d.declaring b.1 b.2 ha hs)

/-! ### Calls -/

theorem runBody_keeps (h : d.Obeyed e) {c : Context} (hc : d.Own c.scope) {body : FunctionBody}
    (hb : d.Good (.body body)) : Keeps d.Inv (runBody e c body) := by
  cases body with
  | expression l x => exact h.eval c x (d.good_part hb (by simp [Node.children]))
  | misplaced l kind => exact fail_keeps hb (.body l kind)
  | block l x =>
    have hx := h.exec c x (d.good_part hb (by simp [Node.children])) (d.admits_own x hc)
    refine Ensures.bind hx (fun k hk => ?_)
    cases k with
    | normal => exact keeps_pure _
    | returning v => exact keeps_pure _
    | breaking => exact ensures_fail (fun _ hs => d.jumping hb hk rfl hs)
    | continuing => exact ensures_fail (fun _ hs => d.jumping hb hk rfl hs)

theorem callClosure_keeps (h : d.Obeyed e) (depth : Nat) {f : Closure} (hf : d.Good (.body f.body))
    (arguments : List Value) : Keeps d.Inv (callClosure e depth f arguments) := by
  refine (d.stable.checkArity _ _ _).bind (fun _ => ?_)
  refine ensures_ite (fun _ => d.stable.fail rfl) (fun _ => ?_)
  refine (d.enterScope_ensures f.scope).bind (fun scope hscope => ?_)
  refine Keeps.bind (keeps_modify (fun s hs => declareAll_keeps hscope _ hs)) (fun _ => ?_)
  exact d.stable.guardNesting (runBody_keeps h hscope hf)

theorem native_keeps (h : d.Obeyed e) (depth : Nat) (arguments : List Value) (code : NativeCode) :
    Keeps d.Inv (code.run (e.caller depth) arguments) := by
  cases code with
  | print =>
    refine (keeps_textOf _).bind (fun line => Keeps.bind ?_ (fun _ => keeps_pure _))
    exact d.stable.modify (fun _ => ⟨rfl, rfl, rfl, .of_same rfl rfl⟩)
  | identical => exact keeps_pure _
  | bound receiver m => exact m.run_keeps d.stable (h.caller depth) receiver arguments
  | host f =>
    refine (keeps_toHostAll arguments).bind (fun data => ?_)
    exact (f.run_keeps d.stable (h.caller depth) data).bind (fun _ => d.stable.fromHost _)

theorem callHost_keeps (d : Discipline) (depth : Nat) {code : Caller → Action Value}
    (hcode : Keeps d.Inv (code (e.caller (depth + 1)))) : Keeps d.Inv (callHost e depth code) :=
  ensures_ite (fun _ => ensures_escape _) (fun _ => d.stable.delegate hcode)

theorem callNative_keeps (h : d.Obeyed e) (depth : Nat) (code : NativeCode) (arguments : List Value) :
    Keeps d.Inv (callNative e depth code arguments) := by
  have hrun : Keeps d.Inv (callHost e depth (fun c => code.run c arguments)) :=
    d.callHost_keeps depth (native_keeps h _ arguments code)
  unfold callNative
  dsimp only
  split
  · exact (d.stable.checkArity _ _ _).bind (fun _ => hrun)
  · exact (keeps_pure ()).bind (fun _ => hrun)

theorem notFunction_keeps (d : Discipline) (v : Value) : Keeps d.Inv (notFunction v) :=
  (keeps_textOf v).bind (fun _ => d.stable.complaint (fun _ => rfl))

theorem callValue_keeps (h : d.Obeyed e) (depth : Nat) (function : Value) (arguments : List Value) :
    Keeps d.Inv (callValue e depth function arguments) := by
  intro s hs
  cases function with
  | closure a =>
    simp only [callValue]
    split
    · exact callClosure_keeps h depth (d.good_closure hs ‹_›) arguments s hs
    · exact ⟨trivial, hs⟩
  | native a =>
    simp only [callValue]
    split
    · exact callNative_keeps h depth _ arguments s hs
    · exact ⟨trivial, hs⟩
  | _ => exact d.notFunction_keeps _ s hs

/-- A new closure is made unless a parameter is not a required one, which is the error that the
construct raises by its form. -/
theorem makeClosure_keeps {n : Node} (hn : d.Good n) (name : Option String)
    (parameters : List Syntax.Parameter) {body : FunctionBody} (hb : d.Good (.body body)) (scope : Address)
    (hraises : ∀ p ∈ parameters, p.kind ≠ .required →
      n.Raises (.unsupported (.parameter p.kind.label p.name name))) :
    Keeps d.Inv (makeClosure name parameters body scope) := by
  unfold makeClosure
  split
  · rename_i p hp
    have hkind : p.kind ≠ .required := by simpa using List.find?_some hp
    exact fail_keeps hn (hraises p (List.mem_of_find?_eq_some hp) hkind)
  · exact ensures_update (fun s hs => ⟨trivial, d.closing _ hb hs⟩)

theorem getMember_keeps (d : Discipline) (receiver : Value) (name : String) :
    Keeps d.Inv (getMember receiver name) := by
  unfold getMember
  split
  · exact d.stable.readAttribute _ _
  · exact d.stable.readAttribute _ _
  · split
    · exact d.stable.delegate (Getter.read_keeps d.stable _ _)
    · split
      · exact d.stable.newNative _ _
      · exact d.stable.noMember _ _

theorem setMember_keeps (d : Discipline) (receiver : Value) (name : String) (v : Value) :
    Keeps d.Inv (setMember receiver name v) := by
  unfold setMember
  split
  · exact d.stable.assignAttribute _ _ _
  · exact d.stable.assignAttribute _ _ _
  · exact d.stable.noMember _ _

theorem invokeMember_keeps (h : d.Obeyed e) (depth : Nat) (receiver : Value) (name : String)
    (arguments : List Value) : Keeps d.Inv (invokeMember e depth receiver name arguments) := by
  unfold invokeMember
  split
  · exact d.stable.callAttribute (h.caller depth) _ _ _
  · exact d.stable.callAttribute (h.caller depth) _ _ _
  · split
    · refine (d.stable.checkArity _ _ _).bind (fun _ => ?_)
      exact d.callHost_keeps depth (Method.run_keeps d.stable (h.caller _) _ _ _)
    · refine ensures_ite (fun _ => (keeps_textOf _).bind (fun _ => keeps_pure _)) (fun _ => ?_)
      split
      · exact Keeps.bind (d.stable.delegate (Getter.read_keeps d.stable _ _)) (fun f => h.call depth f _)
      · exact d.stable.noMember _ _

end Discipline
end Dartlet
