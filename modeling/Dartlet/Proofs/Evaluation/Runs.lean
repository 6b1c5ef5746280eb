import Dartlet.Proofs.Evaluation.Statements
import Dartlet.Run

/-!
# The stores that runs lead to

A host begins with a store without functions and errors, and then runs programs, expressions and
inputs of sessions, calls functions that they have left behind, and changes data as it likes. Neither
functions nor errors are ever removed from a store, so what holds of all those at the end of a run
held of each of them while it went on.
-/

namespace Dartlet

open Dartlet.Action
open Dartlet.Syntax (Expr Stmt)

set_option linter.unusedSectionVars false

theorem Run.store_ofOutcome {α : Type} (o : Outcome α) : (Run.ofOutcome o).store = o.store := by
  cases o <;> rfl

/-- Reading a text and running it leaves what the action leaves for each thing it may stand for. -/
theorem Run.store_reading {α β : Type} {I : Store → Prop} {read : Except Syntax.SyntaxError α}
    {perform : α → Action β} {s : Store} (hs : I s) (h : ∀ a, read = .ok a → Keeps I (perform a)) :
    I (Run.reading read perform s).store := by
  cases read with
  | error e => exact hs
  | ok a =>
    change I (Run.ofOutcome (perform a s)).store
    rw [Run.store_ofOutcome]
    exact (h a rfl s hs).store

variable [Host]

/-- The stores that a host comes to. -/
inductive Store.Reached : Store → Prop
  /-- A store without functions of programs and without errors. -/
  | fresh {s : Store} : s.closures = #[] → s.errors = #[] → Reached s
  /-- The declarations of a program are run. -/
  | unit {s : Store} (source : String) : Reached s → Reached (runUnit source s).store
  /-- A program is run. -/
  | main {s : Store} (source : String) (arguments : List String) :
    Reached s → Reached (runMain source arguments s).store
  /-- An expression is evaluated. -/
  | expression {s : Store} (source : String) : Reached s → Reached (evalText source s).store
  /-- An input of a session is run. -/
  | input {s : Store} (scope : Address) (text : String) : Reached s → Reached (runInput scope text s).store
  /-- The host calls a function. -/
  | call {s : Store} (depth : Nat) (f : Value) (arguments : List Value) :
    Reached s → Reached (engine.call depth f arguments s).store
  /-- The host changes anything but the functions and the errors. -/
  | host {s t : Store} : Reached s → t.closures = s.closures → t.faults = s.faults → Reached t

/-- Everything that was in a store is still there, in the same order. -/
structure Store.Remembers (t s : Store) : Prop where
  closures : s.closures.toList <+: t.closures.toList
  faults : s.faults <+: t.faults

theorem Store.Remembers.refl (s : Store) : s.Remembers s := ⟨List.prefix_rfl, List.prefix_rfl⟩

namespace Discipline

/-- The discipline of a run that begins with some store. -/
def remembering (s : Store) : Discipline where
  Inv t := t.Remembers s
  Own _ := True
  Good _ := True
  Admits _ _ := True
  Ends _ _ := True
  stable := ⟨fun hdata h => ⟨hdata.closures ▸ h.closures, hdata.faults ▸ h.faults⟩,
    fun _ h => ⟨h.closures, by simpa using h.faults.trans (List.prefix_append _ _)⟩⟩
  good_part _ _ := trivial
  good_closure _ _ := trivial
  raises _ _ h := ⟨h.closures, by simpa using h.faults.trans (List.prefix_append _ _)⟩
  closing f _ h := ⟨by simpa [Store.addClosure] using h.closures.trans (List.prefix_append _ _), h.faults⟩
  entering _ h := ⟨trivial, h.closures, h.faults⟩
  declaring _ _ _ h := ⟨h.closures, h.faults⟩
  assigning {t u a name v} hu h := by
    obtain ⟨owner, -, rfl⟩ := Option.map_eq_some_iff.mp hu
    exact ⟨h.closures, h.faults⟩
  marking _ _ h := ⟨h.closures, h.faults⟩
  admits_own _ _ := trivial
  admits_part _ _ := trivial
  admits_name _ _ _ h := ⟨h.closures, h.faults⟩
  ends_normal _ := trivial
  ends_returning _ _ := trivial
  ends_breaking _ := trivial
  ends_continuing _ := trivial
  ends_part _ _ := trivial
  jumping _ _ _ h := ⟨h.closures, by simpa using h.faults.trans (List.prefix_append _ _)⟩

end Discipline

/-- However a run ends, it removes neither functions nor errors. -/
theorem runs_remember (level : Nat) (c : Context) (s : Store) :
    (∀ x : Expr, ((interpreter level).eval c x s).store.Remembers s) ∧
    (∀ x : Stmt, ((interpreter level).exec c x s).store.Remembers s) ∧
    ∀ (f : Value) (arguments : List Value), ((interpreter level).call c.depth f arguments s).store.Remembers s := by
  have h := (Discipline.remembering s).obeyed level
  exact ⟨fun x => (h.eval c x trivial s (.refl s)).store, fun x => (h.exec c x trivial trivial s (.refl s)).store,
    fun f arguments => (h.call c.depth f arguments s (.refl s)).store⟩

end Dartlet
