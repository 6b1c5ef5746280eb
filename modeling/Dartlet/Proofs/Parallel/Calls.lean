import Dartlet.Eval.Interpreter
import Dartlet.Proofs.Parallel.Host
import Dartlet.Proofs.Program.Mentions

/-!
# Calls in parallel

Two engines agree if they run the same constructs alike. What constructs these are and where they
run is the manner of the programs; its laws speak of single constructs and of new scopes. Engines that
agree call functions alike, and read, assign and call members alike.
-/

namespace Dartlet

open Dartlet.Action
open Dartlet.Syntax (Expr FunctionBody Node Parameter Stmt)

set_option linter.unusedSectionVars false

variable [Host]

/-- A completion with its addresses changed. -/
def Completion.shift (σ : Shifts) : Completion → Completion
  | .returning v => .returning (v.shift σ)
  | k => k

namespace Comparison

/-- The constructs that programs have, and where they run. -/
structure Manner (w : Comparison) where
  Tree : Node → Prop
  Here : Store → Nat → Prop
  part : ∀ {n m : Node}, Tree n → n.isHandler = false → m ∈ n.children → Tree m
  fit : ∀ {b : FunctionBody}, Tree (.body b) → w.Fit b
  names : ∀ {n : Node} {name : String}, Tree n → name ∈ n.names → w.hidden name = false
  writes : w.placed = true → ∀ {n : Node} {name : String}, Tree n → name ∈ n.writes → name ∉ placeMembers
  bounded : w.shifts.scope.gap ≠ 0 → ∀ {s : Store} {a : Nat}, Here s a → a < s.scopes.size
  later : ∀ {s s' : Store} {a : Nat}, Here s a → w.Later s s' → Here s' a
  enter : ∀ {s : Store} {a : Nat}, Here s a → Here (s.enter a).2 (s.enter a).1

/-- A manner in which the bodies of functions run in new scopes. -/
structure Manner.Opens {w : Comparison} (m : w.Manner) : Prop where
  body : ∀ {b : FunctionBody} {n : Node}, w.Fit b → n ∈ (Node.body b).children → m.Tree n
  here : ∀ {s : Store} {a : Nat}, (w.shifts.scope.gap ≠ 0 → a < s.scopes.size) → m.Here s a

variable {w : Comparison} {inside : Bool} {s t : Store}

/-- Where code runs in the second store. -/
def move (w : Comparison) (c : Context) : Context := ⟨w.shifts.scope.apply c.scope, c.depth⟩

@[simp] theorem move_depth (c : Context) : (w.move c).depth = c.depth := rfl

@[simp] theorem move_scope (c : Context) : (w.move c).scope = w.shifts.scope.apply c.scope := rfl

theorem move_at (c : Context) (scope : Address) : w.move (c.at scope) = (w.move c).at (w.shifts.scope.apply scope) := rfl

/-- Corresponding completions at the end of a run. -/
structure Com (w : Comparison) (s _ : Store) (k k' : Completion) : Prop where
  same : k' = k.shift w.shifts
  known : ∀ v, k = .returning v → v.Known (w.Known s)

/-- Two engines that run the constructs of programs alike. -/
structure Agrees (w : Comparison) (m : w.Manner) (e e' : Engine) : Prop where
  eval : ∀ {s t : Store} {c : Context} {x : Expr}, m.Tree (.expr x) → m.Here s c.scope →
    w.Settled w.Val s t (e.eval c x) (e'.eval (w.move c) x)
  exec : ∀ {s t : Store} {c : Context} {x : Stmt}, m.Tree (.stmt x) → m.Here s c.scope →
    w.Settled w.Com s t (e.exec c x) (e'.exec (w.move c) x)
  call : ∀ {s t : Store} {depth : Nat} {f : Value} {arguments : List Value}, f.Known (w.Known s) →
    (∀ v ∈ arguments, v.Known (w.Known s)) →
      w.Alike false w.Val s t (e.call depth f arguments)
        (e'.call depth (f.shift w.shifts) (arguments.map (Value.shift w.shifts)))
  rounds : w.Rounds e.rounds e'.rounds

variable {m : w.Manner} {e e' : Engine}

theorem Agrees.caller (h : w.Agrees m e e') (depth : Nat) : w.Callers (e.caller depth) (e'.caller depth) :=
  ⟨h.call, h.rounds⟩

/-! ### Completions -/

theorem alike_complete {k : Completion} (hk : ∀ v, k ≠ .returning v) :
    w.Alike inside w.Com s t (pure k) (pure k) := by
  refine alike_pure ⟨?_, fun v hv => absurd hv (hk v)⟩
  cases k with
  | returning v => exact absurd rfl (hk v)
  | _ => rfl

theorem alike_normal : w.Alike inside w.Com s t (pure .normal) (pure .normal) := alike_complete nofun

theorem Com.later {s' t' : Store} {k k' : Completion} (h : w.Com s t k k') (hs : w.Later s s') : w.Com s' t' k k' :=
  ⟨h.same, fun v hv => (h.known v hv).mono hs.known⟩

@[simp] theorem isAbrupt_shift (σ : Shifts) (k : Completion) : (k.shift σ).isAbrupt = k.isAbrupt := by
  cases k <;> rfl

/-! ### Scopes -/

/-- What entering a scope leaves. -/
structure Entered (w : Comparison) (parent : Nat) (s s' _ : Store) (a b : Address) : Prop where
  same : b = w.shifts.scope.apply a
  scope : a = (s.enter parent).1
  store : s' = (s.enter parent).2

theorem alike_enterScope {parent : Nat} (hparent : w.shifts.scope.gap ≠ 0 → parent < s.scopes.size) :
    w.Alike inside (w.Entered parent s) s t (enterScope parent) (enterScope (w.shifts.scope.apply parent)) :=
  alike_update (fun hst => ⟨⟨Tables.enter_fst hst parent _, rfl, rfl⟩,
    (Tables.enter hst hparent).follows (later_enter s _) (later_enter t _)⟩)

theorem Entered.bounded {parent : Nat} {s s' t' : Store} {a b : Address} (h : w.Entered parent s s' t' a b) :
    a < s'.scopes.size := by
  rw [h.scope, h.store]
  simp [Store.enter, Store.addScope]

theorem Entered.here {parent : Nat} {s s' t' : Store} {a b : Address} (h : w.Entered parent s s' t' a b)
    (hparent : m.Here s parent) : m.Here s' a := by
  rw [h.scope, h.store]
  exact m.enter hparent

theorem alike_declare (a : Nat) {name : String} (hname : w.hidden name = false) {v : Value}
    (hv : v.Known (w.Known s)) :
    w.Alike inside (fun _ _ _ _ => True) s t (declare a name v)
      (declare (w.shifts.scope.apply a) name (v.shift w.shifts)) :=
  alike_modify (fun hst =>
    (Tables.declare hst a hname hv).follows (later_declare s a name v) (later_declare t _ name _))

theorem alike_assign (a : Nat) {name : String} (hname : w.hidden name = false) {v : Value}
    (hv : v.Known (w.Known s)) :
    w.Alike inside w.Val s t (assign a name v) (assign (w.shifts.scope.apply a) name (v.shift w.shifts)) := by
  intro hst
  unfold assign
  rcases Tables.update? hst hname a hv with ⟨hs, ht⟩ | ⟨owner, hs, ht, htables⟩
  · rw [hs, ht]
    exact alike_fail_closed rfl hst
  · rw [hs, ht]
    have hfollows := htables.follows (later_declare s owner name v) (later_declare t _ name _)
    exact .done ⟨rfl, hv.mono hfollows.first.known⟩ hfollows

/-! ### Functions of the program -/

theorem alike_checkArity (label : Option String) (arity : Arity) (count : Nat) :
    w.Alike inside (fun _ _ _ _ => True) s t (checkArity label arity count) (checkArity label arity count) :=
  alike_ite (fun _ => alike_pure trivial) (fun _ => alike_fail_closed rfl)

theorem alike_runBody (h : w.Agrees m e e') {c : Context} (hhere : m.Here s c.scope) {b : FunctionBody}
    (hb : ∀ n ∈ (Node.body b).children, m.Tree n) :
    w.Alike false w.Val s t (runBody e c b) (runBody e' (w.move c) b) := by
  cases b with
  | expression l value => exact (h.eval (hb (.expr value) (by simp [Node.children])) hhere).alike
  | block l body =>
    refine (h.exec (hb (.stmt body) (by simp [Node.children])) hhere).alike.bind (fun s' t' k k' _ hk => ?_)
    obtain ⟨rfl, hk⟩ := hk
    cases k with
    | normal => exact alike_plain rfl
    | returning v => exact alike_value (hk v rfl)
    | breaking => exact alike_fail_closed rfl
    | continuing => exact alike_fail_closed rfl
  | misplaced l kind => exact alike_fail_closed rfl

theorem alike_makeClosure (name : Option String) {parameters : List Parameter} {body : FunctionBody} {scope : Nat}
    (hparameters : ∀ p ∈ parameters, w.hidden p.name = false) (hbody : w.Fit body)
    (hscope : w.shifts.scope.gap ≠ 0 → scope < s.scopes.size) :
    w.Alike inside w.Val s t (makeClosure name parameters body scope)
      (makeClosure name parameters body (w.shifts.scope.apply scope)) := by
  unfold makeClosure
  split
  · exact alike_fail_closed rfl
  · refine alike_update (fun hst => ⟨⟨congrArg Value.closure hst.closures.fresh, trivial⟩, ?_⟩)
    have hnames : ∀ p ∈ parameters.map (fun p => p.name), w.hidden p = false := by
      intro p hp
      obtain ⟨q, hq, rfl⟩ := List.mem_map.mp hp
      exact hparameters q hq
    exact (Tables.addClosure hst ⟨rfl, hbody, hnames⟩ hscope).follows_data rfl rfl

/-- The arguments of a call under the names of the parameters. -/
theorem bindings_zip {K : Value → Prop} (names : List String) {vs : List Value} (hvs : ∀ v ∈ vs, v.Known K) :
    w.Bindings K (names.zip vs) (names.zip (vs.map (Value.shift w.shifts))) := by
  refine ⟨?_, fun b hb => hvs b.2 (List.of_mem_zip hb).2⟩
  rw [List.zip_map_right]
  rfl

theorem alike_callClosure (h : w.Agrees m e e') (hm : m.Opens) (depth : Nat) {f g : Closure}
    (hfg : w.ClosuresAlike f g) (hscope : w.shifts.scope.gap ≠ 0 → f.scope < s.scopes.size) {arguments : List Value}
    (hargs : ∀ v ∈ arguments, v.Known (w.Known s)) :
    w.Alike false w.Val s t (callClosure e depth f arguments)
      (callClosure e' depth g (arguments.map (Value.shift w.shifts))) := by
  obtain ⟨rfl, hfit, hparameters⟩ := hfg
  unfold callClosure
  rw [List.length_map]
  refine (alike_checkArity _ _ _).bind (fun s₁ t₁ _ _ hf₁ _ => alike_ite (fun _ => alike_fail_closed rfl) (fun _ => ?_))
  have hscope₁ (hgap : w.shifts.scope.gap ≠ 0) : f.scope < s₁.scopes.size :=
    Nat.lt_of_lt_of_le (hscope hgap) hf₁.first.scopes_size
  refine (alike_enterScope hscope₁).bind (fun s₂ t₂ a b hf₂ hentered => ?_)
  obtain rfl := hentered.same
  have hs₂ := hf₁.first.trans hf₂.first
  refine alike_change (fun hst => ?_) (fun s₃ t₃ hf₃ => Alike.guardNesting ?_)
  · have hbindings := bindings_zip (w := w) f.parameters (fun v hv => (hargs v hv).mono hs₂.known)
    have hnames (b : String × Value) (hb : b ∈ f.parameters.zip arguments) : w.hidden b.1 = false :=
      hparameters b.1 (List.of_mem_zip hb).1
    exact (Tables.declareAll hst a hbindings hnames).follows (later_declareAll _ _ _) (later_declareAll _ _ _)
  · have hbounded : a < s₃.scopes.size := Nat.lt_of_lt_of_le hentered.bounded hf₃.first.scopes_size
    exact alike_runBody (c := ⟨a, depth + 1⟩) h (hm.here (fun _ => hbounded)) (fun n hn => hm.body hfit hn)

/-! ### Native functions -/

theorem arity?_shift (σ : Shifts) (code : NativeCode) : (code.shift σ).arity? = code.arity? := by
  cases code <;> rfl

theorem alike_nativeCode {c c' : Caller} (hc : w.Callers c c') {code : NativeCode} (hcode : code.Known (w.Known s))
    (hobjects : w.objects = false → code.usesObjects = false) {arguments : List Value}
    (hargs : ∀ v ∈ arguments, v.Known (w.Known s)) :
    w.Alike true w.Val s t (code.run c arguments)
      ((code.shift w.shifts).run c' (arguments.map (Value.shift w.shifts))) := by
  cases code <;> simp only [NativeCode.shift, NativeCode.run, argument_shift]
  case print =>
    refine (alike_textOf _).bind (fun s' t' line line' _ hline => ?_)
    obtain rfl : line = line' := hline
    refine alike_change (fun hst => ?_) (fun _ _ _ => alike_plain rfl)
    have hset := Tables.setOutput hst (s'.output ++ line ++ "\n")
    rw [hst.output]
    exact hset.follows_data rfl rfl
  case identical =>
    rw [Value.identical_shift]
    exact alike_plain rfl
  case bound receiver method => exact alike_method hc receiver hargs method
  case host f =>
    refine (reads_toHostAll hargs).bind (fun xs ys hxy => ?_)
    obtain ⟨rfl, hxs⟩ := hxy
    refine (alike_hostFunction hc hcode hobjects hxs).bind (fun s' t' x x' _ hx => ?_)
    obtain ⟨rfl, hx⟩ := hx
    exact alike_fromHost hx

/-- Code of the host that is called runs as one call more. -/
theorem alike_callHost {depth : Nat} (code code' : Caller → Action Value)
    (hcode : w.Alike true w.Val s t (code (e.caller (depth + 1))) (code' (e'.caller (depth + 1)))) :
    w.Alike false w.Val s t (callHost e depth code) (callHost e' depth code') :=
  alike_ite (fun _ => alike_escape (.inr rfl)) (fun _ => hcode.delegate)

theorem alike_callNative (h : w.Agrees m e e') (depth : Nat) {code : NativeCode} (hcode : code.Known (w.Known s))
    (hobjects : w.objects = false → code.usesObjects = false) {arguments : List Value}
    (hargs : ∀ v ∈ arguments, v.Known (w.Known s)) :
    w.Alike false w.Val s t (callNative e depth code arguments)
      (callNative e' depth (code.shift w.shifts) (arguments.map (Value.shift w.shifts))) := by
  have hrun {s' t' : Store} (hs : w.Later s s') : w.Alike false w.Val s' t'
      (callHost e depth (fun c => code.run c arguments))
      (callHost e' depth (fun c => (code.shift w.shifts).run c (arguments.map (Value.shift w.shifts)))) :=
    alike_callHost _ _ (alike_nativeCode (h.caller _) (hcode.mono hs.known) hobjects
      (fun v hv => (hargs v hv).mono hs.known))
  unfold callNative
  rw [arity?_shift, List.length_map]
  cases code.arity? with
  | some arity => exact (alike_checkArity none arity _).bind (fun s' t' _ _ hf _ => hrun hf.first)
  | none => exact hrun (.refl s)

theorem alike_notFunction (v : Value) :
    w.Alike inside w.Val s t (notFunction v) (notFunction (v.shift w.shifts)) :=
  (alike_textOf v).bind (fun s' t' shown _ _ h => by
    obtain rfl := h
    exact alike_complaint (fun hst => by rw [hst.typeName]))

/-- A call of a value, which runs a closure or a native function or complains. -/
theorem alike_callValue (h : w.Agrees m e e') (hm : m.Opens) (depth : Nat) {f : Value} {arguments : List Value}
    (hargs : ∀ v ∈ arguments, v.Known (w.Known s)) :
    w.Alike false w.Val s t (callValue e depth f arguments)
      (callValue e' depth (f.shift w.shifts) (arguments.map (Value.shift w.shifts))) := by
  intro hst
  unfold callValue
  cases f with
  | closure a =>
    simp only [Value.shift]
    cases hf : s.closures[a]? with
    | none =>
      rw [hst.closures.missing hf]
      exact .done ⟨rfl, trivial⟩ (.refl hst)
    | some f =>
      obtain ⟨g, hg, hfg⟩ := hst.closures.entry a f hf
      rw [hg]
      have hscope (hgap : w.shifts.scope.gap ≠ 0) : f.scope < s.scopes.size :=
        (hst.ordered hgap).2 f (Array.mem_of_getElem? hf)
      exact alike_callClosure h hm depth hfg hscope hargs hst
  | native a =>
    simp only [Value.shift]
    cases hf : s.natives[a]? with
    | none =>
      rw [hst.natives.missing hf]
      exact .done ⟨rfl, trivial⟩ (.refl hst)
    | some f =>
      obtain ⟨g, hg, rfl, hknown, hobjects⟩ := hst.natives.entry a f hf
      rw [hg]
      exact alike_callNative h depth hknown hobjects hargs hst
  | _ => exact alike_notFunction _ hst

/-! ### Members -/

/-- A getter or a method as a member, which is no attribute. -/
def ordinaryMember (receiver : Value) (name : String) : Action Value :=
  match Getter.find? receiver name with
  | some g => delegate (g.read receiver)
  | none =>
    match Method.find? receiver name with
    | some m => newNative name (.bound receiver m)
    | none => noMember receiver name

theorem alike_ordinaryMember {receiver : Value} (hreceiver : receiver.Known (w.Known s)) (name : String) :
    w.Alike inside w.Val s t (ordinaryMember receiver name) (ordinaryMember (receiver.shift w.shifts) name) := by
  unfold ordinaryMember
  rw [Getter.find?_shift, Method.find?_shift]
  cases Getter.find? receiver name with
  | some g => exact (alike_getter receiver g).delegate
  | none =>
    cases Method.find? receiver name with
    | some m => exact alike_newNative name (.bound receiver m) hreceiver (fun _ => rfl)
    | none => exact alike_noMember hreceiver name

theorem alike_getMember {receiver : Value} (hreceiver : receiver.Known (w.Known s)) (name : String) :
    w.Alike inside w.Val s t (getMember receiver name) (getMember (receiver.shift w.shifts) name) := by
  cases receiver with
  | object a => exact alike_readAttribute hreceiver name
  | error a => exact alike_readAttribute hreceiver name
  | _ => exact alike_ordinaryMember hreceiver name

theorem alike_setMember {receiver : Value} (hreceiver : receiver.Known (w.Known s)) {name : String}
    (hname : w.placed = true → name ∉ placeMembers) {v : Value} (hv : v.Known (w.Known s)) :
    w.Alike inside w.Val s t (setMember receiver name v)
      (setMember (receiver.shift w.shifts) name (v.shift w.shifts)) := by
  cases receiver with
  | object a => exact alike_assignAttribute hreceiver hname hv
  | error a => exact alike_assignAttribute hreceiver hname hv
  | _ => exact alike_noMember hreceiver name

/-- A call of a method, or of what a getter yields, as a member that is no attribute. -/
def invokeOrdinary (e : Engine) (depth : Nat) (receiver : Value) (name : String) (arguments : List Value) :
    Action Value :=
  match Method.find? receiver name with
  | some m => do
    checkArity (some name) m.arity arguments.length
    callHost e depth (fun c => m.run c receiver arguments)
  | none =>
    if name == "toString" && arguments.isEmpty then do
      let text ← textOf receiver
      pure (.string text)
    else
      match Getter.find? receiver name with
      | some g => do
        let function ← delegate (g.read receiver)
        e.call depth function arguments
      | none => noMember receiver name

/-- The getter or the method of a receiver is the same in both runs. -/
theorem alike_invokeOrdinary (h : w.Agrees m e e') (depth : Nat) {receiver : Value}
    (hreceiver : receiver.Known (w.Known s)) (name : String) {arguments : List Value}
    (hargs : ∀ v ∈ arguments, v.Known (w.Known s)) :
    w.Alike false w.Val s t (invokeOrdinary e depth receiver name arguments)
      (invokeOrdinary e' depth (receiver.shift w.shifts) name (arguments.map (Value.shift w.shifts))) := by
  unfold invokeOrdinary
  rw [Getter.find?_shift, Method.find?_shift, List.length_map, List.isEmpty_map]
  cases Method.find? receiver name with
  | some method =>
    refine (alike_checkArity _ _ _).bind (fun s' t' _ _ hf _ => alike_callHost _ _ ?_)
    exact alike_method (h.caller _) receiver (fun v hv => (hargs v hv).mono hf.first.known) method
  | none =>
    refine alike_ite (fun _ => ?_) (fun _ => ?_)
    · exact (alike_textOf receiver).bind (fun _ _ text _ _ heq => heq ▸ alike_plain rfl)
    · cases Getter.find? receiver name with
      | none => exact alike_noMember hreceiver name
      | some g =>
        refine (Alike.delegate (alike_getter receiver g)).bind (fun s' t' f f' hf hff' => ?_)
        obtain ⟨rfl, hff'⟩ := hff'
        exact h.call hff' (fun v hv => (hargs v hv).mono hf.first.known)

theorem alike_invokeMember (h : w.Agrees m e e') (depth : Nat) {receiver : Value}
    (hreceiver : receiver.Known (w.Known s)) (name : String) {arguments : List Value}
    (hargs : ∀ v ∈ arguments, v.Known (w.Known s)) :
    w.Alike false w.Val s t (invokeMember e depth receiver name arguments)
      (invokeMember e' depth (receiver.shift w.shifts) name (arguments.map (Value.shift w.shifts))) := by
  cases receiver with
  | object a => exact alike_callAttribute (h.caller depth) hreceiver name hargs
  | error a => exact alike_callAttribute (h.caller depth) hreceiver name hargs
  | _ => exact alike_invokeOrdinary h depth hreceiver name hargs

end Comparison
end Dartlet
