import Dartlet.Proofs.Evaluation.Runs
import Dartlet.Proofs.Program.Accepted

/-!
# Properties that last

A property of stores that depends on the functions and errors in them alone lasts if it holds before
anything has run, and the evaluator keeps it on the trees that are read from texts. It then holds of
every store that a host comes to.
-/

namespace Dartlet

open Dartlet.Action
open Dartlet.Syntax (Expr Node Stmt)

/-- An expression that is a statement by itself. -/
theorem Syntax.Node.Accepted.expression {l : Syntax.Location} {x : Expr} (h : (Node.stmt (.expression l x)).Accepted) :
    (Node.expr x).Accepted := by
  have hpart : Node.expr x ∈ (Node.stmt (.expression l x)).children := by simp [Node.children, Stmt.children]
  exact ⟨h.regular.part hpart, ((Node.jumpError_eq_none _ _).mp h.lands).2 _ hpart⟩

variable [Host]

/-- A property of stores that expressions and statements keep that are read from texts. -/
structure Sustained (I : Store → Prop) : Prop where
  entering : ∀ {s : Store} (parent : Address), I s → I (s.enter parent).2
  eval : ∀ (c : Context) {x : Expr}, (Node.expr x).Accepted → Keeps I (engine.eval c x)
  exec : ∀ (c : Context) {x : Stmt}, (Node.stmt x).Accepted → Keeps I (engine.exec c x)

namespace Sustained

variable {I : Store → Prop}

theorem enterScope (h : Sustained I) (parent : Address) : Keeps I (enterScope parent) :=
  ensures_update (fun _ hs => ⟨trivial, h.entering parent hs⟩)

theorem declareUnit (h : Sustained I) {x : Stmt} (hx : (Node.stmt x).Accepted) : Keeps I (declareUnit x) := by
  refine (h.enterScope rootScope).bind (fun scope => ?_)
  exact (h.exec ⟨scope, 0⟩ hx).bind (fun _ => keeps_pure scope)

theorem replyStatements (h : Sustained I) (scope : Address) (xs : List Stmt) (hxs : ∀ x ∈ xs, (Node.stmt x).Accepted) :
    Keeps I (replyStatements scope xs) := by
  fun_induction Dartlet.replyStatements scope xs with
  | case1 => exact keeps_pure _
  | case2 l x => exact (h.eval _ (hxs _ List.mem_cons_self).expression).bind (fun _ => keeps_pure _)
  | case3 x rest _ ih =>
    refine (h.exec _ (hxs x List.mem_cons_self)).bind (fun _ => ?_)
    exact ih (fun y hy => hxs y (List.mem_cons_of_mem x hy))

theorem runUnit (h : Sustained I) {s : Store} (hs : I s) (source : String) : I (runUnit source s).store :=
  Run.store_reading hs (fun _ hx => h.declareUnit (Syntax.parseUnit_accepted hx).1)

theorem evalText (h : Sustained I) {s : Store} (hs : I s) (source : String) : I (evalText source s).store := by
  refine Run.store_reading hs (fun x hx => ?_)
  refine (h.enterScope rootScope).bind (fun scope => ?_)
  exact h.eval ⟨scope, 0⟩ (Syntax.parseExpression_accepted hx)

theorem runInput (h : Sustained I) {s : Store} (hs : I s) (scope : Address) (text : String) :
    I (runInput scope text s).store := by
  unfold Dartlet.runInput
  split
  · rename_i xs hxs
    rw [Run.store_ofOutcome]
    exact (h.replyStatements scope xs (Syntax.parseStatements_accepted hxs) s hs).store
  · split
    · exact hs
    · split
      · rename_i x hx
        rw [Run.store_ofOutcome]
        have heval := h.eval ⟨scope, 0⟩ (Syntax.parseExpression_accepted hx)
        exact (heval.bind (fun _ => keeps_pure _) s hs).store
      · exact hs

end Sustained

/-- A property of stores that the evaluator keeps on the trees that are read from texts, whatever is
called. -/
structure Maintained (I : Store → Prop) : Prop extends Sustained I where
  stable : Stable I
  call : ∀ (depth : Nat) (f : Value) (arguments : List Value), Keeps I (engine.call depth f arguments)

namespace Maintained

variable {I : Store → Prop}

theorem findEntry (h : Maintained I) (scope : Address) : Keeps I (findEntry scope) := by
  intro s hs
  unfold Dartlet.findEntry
  split
  · split
    · exact ⟨trivial, hs⟩
    · exact h.stable.fail rfl s hs
  · exact h.stable.fail rfl s hs

theorem callEntry (h : Maintained I) (entry : Entry) (arguments : List String) : Keeps I (callEntry entry arguments) := by
  unfold Dartlet.callEntry
  split
  · exact h.call 0 _ _
  · exact (h.stable.newList _).bind (fun texts => h.call 0 _ _)
  · exact h.stable.fail rfl

theorem runMain (h : Maintained I) {s : Store} (hs : I s) (source : String) (arguments : List String) :
    I (runMain source arguments s).store := by
  have hload : I (loadMain source s).store := by
    refine Run.store_reading hs (fun x hx => ?_)
    exact (h.declareUnit (Syntax.parseUnit_accepted hx).1).bind (fun scope => h.findEntry scope)
  unfold Dartlet.runMain
  split
  · rename_i entry t hloaded
    rw [hloaded] at hload
    rw [Run.store_ofOutcome]
    exact (h.callEntry entry arguments t hload).store
  · rename_i stop t hloaded
    rw [hloaded] at hload
    exact hload

end Maintained

/-- A property of stores that whatever a host runs leaves as it is. -/
structure Lasting (I : Store → Prop) : Prop where
  fresh : ∀ {s : Store}, s.closures = #[] → s.errors = #[] → I s
  same : ∀ {s t : Store}, I s → t.closures = s.closures → t.faults = s.faults → I t
  raising : ∀ {s : Store} {f : Fault}, f.isOrdinary = true → I s → I (s.addError f).2
  eval : ∀ (c : Context) {x : Expr}, (Node.expr x).Accepted → Keeps I (engine.eval c x)
  exec : ∀ (c : Context) {x : Stmt}, (Node.stmt x).Accepted → Keeps I (engine.exec c x)
  call : ∀ (depth : Nat) (f : Value) (arguments : List Value), Keeps I (engine.call depth f arguments)

namespace Lasting

variable {I : Store → Prop}

theorem maintained (h : Lasting I) : Maintained I where
  stable := ⟨fun hdata hs => h.same hs hdata.closures hdata.faults, h.raising⟩
  entering _ hs := h.same hs rfl rfl
  eval := h.eval
  exec := h.exec
  call := h.call

/-- What lasts holds of every store that a host comes to. -/
theorem reached (h : Lasting I) {s : Store} (hs : s.Reached) : I s := by
  induction hs with
  | fresh hclosures herrors => exact h.fresh hclosures herrors
  | unit source _ ih => exact h.maintained.runUnit ih source
  | main source arguments _ ih => exact h.maintained.runMain ih source arguments
  | expression source _ ih => exact h.maintained.evalText ih source
  | input scope text _ ih => exact h.maintained.runInput ih scope text
  | call depth f arguments _ ih => exact (h.call depth f arguments _ ih).store
  | host _ hclosures hfaults ih => exact h.same ih hclosures hfaults

end Lasting
end Dartlet
