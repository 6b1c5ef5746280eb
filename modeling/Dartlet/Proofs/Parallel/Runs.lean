import Dartlet.Proofs.Parallel.Self
import Dartlet.Run

/-!
# Whole programs in parallel

The interpreter agrees with itself in every manner that clauses leave as it is, and two runs of a
program from parallel stores end the same way.
-/

namespace Dartlet

open Dartlet.Action
open Dartlet.Syntax (Node Stmt)

set_option linter.unusedSectionVars false

variable [Host]

/-! ### What programs begin with -/

namespace Store

theorem initial_scopes : initial.scopes = #[⟨none, [("print", .native 1)], none⟩] := rfl

theorem initial_natives : initial.natives = #[⟨"identical", .identical⟩, ⟨"print", .print⟩] := rfl

theorem initial_globals : initial.globals =
    ("identical", .native 0) :: BuiltinType.all.map (fun t => (t.name, Value.type t)) := rfl

/-- Programs begin with two native functions, and hold nothing else that a store knows. -/
theorem initial_holds {K : Value → Prop} (hidentical : K (.native 0)) (hprint : K (.native 1)) :
    initial.Holds K := by
  -- there are no collections, closures, errors or objects yet
  have hnone {α : Type} {P : α → Prop} : ∀ x ∈ (#[] : Array α), P x := fun _ hx => absurd hx (Array.not_mem_empty _)
  refine ⟨fun x hx b hb => ?_, fun x hx a ha => ?_, hnone, hnone, hnone, hnone, fun f hf => ?_, hnone, hnone, hnone,
    fun b hb => ?_⟩
  · rw [initial_scopes, List.mem_toArray, List.mem_singleton] at hx
    subst hx
    obtain rfl := List.mem_singleton.mp hb
    exact hprint
  · rw [initial_scopes, List.mem_toArray, List.mem_singleton] at hx
    subst hx
    cases ha
  · simp only [initial_natives, List.mem_toArray, List.mem_cons, List.not_mem_nil, or_false] at hf
    rcases hf with rfl | rfl <;> trivial
  · rw [initial_globals] at hb
    rcases List.mem_cons.mp hb with rfl | hb
    · exact hidentical
    · obtain ⟨t, -, rfl⟩ := List.mem_map.mp hb
      trivial

end Store

/-! ### Runs -/

namespace Comparison

variable {w : Comparison} {m : w.Manner} {s t : Store}

theorem agrees_interpreter (hpasses : m.Passes) (hopens : m.Opens) (hhandled : w.handled = false)
    (hplaced : w.placed = false) (level : Nat) : w.Agrees m (interpreter level) (interpreter level) := by
  induction level with
  | zero => exact ⟨fun _ _ => settled_exhaust, fun _ _ => settled_exhaust, fun _ _ => alike_exhaust, .inl rfl⟩
  | succ level ih =>
    refine ⟨fun hx hhere => ?_, fun hx hhere => ?_, fun _ hargs => ?_, .inl rfl⟩
    · exact Alike.within (ih.caller _) hplaced _ (alike_evalForm ih hx hhere)
    · exact Alike.within (ih.caller _) hplaced _ (alike_execForm ih hpasses hhandled hx hhere)
    · exact alike_callValue ih hopens _ hargs

/-- A comparison that asks nothing of programs and leaves the scopes where they are. -/
structure Unrestricted (w : Comparison) : Prop where
  fit : ∀ b, w.Fit b
  hidden : ∀ name, w.hidden name = false
  placed : w.placed = false
  handled : w.handled = false
  scopes : w.shifts.scope.gap = 0

namespace Unrestricted

/-- All constructs, anywhere. -/
def anything (h : w.Unrestricted) : w.Manner where
  Tree _ := True
  Here _ _ := True
  part _ _ _ := trivial
  fit _ := h.fit _
  names _ _ := h.hidden _
  writes hw := absurd hw (by simp [h.placed])
  bounded hgap := absurd h.scopes hgap
  later _ _ := trivial
  enter _ := trivial

theorem passes (h : w.Unrestricted) : h.anything.Passes := ⟨fun _ => trivial, fun _ _ _ _ => trivial⟩

theorem opens (h : w.Unrestricted) : h.anything.Opens := ⟨fun _ _ => trivial, fun _ => trivial⟩

theorem agrees (h : w.Unrestricted) (level : Nat) : w.Agrees h.anything (interpreter level) (interpreter level) :=
  agrees_interpreter h.passes h.opens h.handled h.placed level

end Unrestricted

/-- Two runs that end the same way, in stores that run in parallel. -/
inductive Concludes {α β : Type} (w : Comparison) (Q : Store → Store → α → β → Prop) : Run α → Run β → Prop
  | done {a : α} {b : β} {s t : Store} : Q s t a b → w.Parallel s t → Concludes w Q ⟨.ok a, s⟩ ⟨.ok b, t⟩
  | refused {e : Syntax.SyntaxError} {s t : Store} : w.Parallel s t →
    Concludes w Q ⟨.error (.refused e), s⟩ ⟨.error (.refused e), t⟩
  | raised {a : Address} {s t : Store} : w.Parallel s t →
    Concludes w Q ⟨.error (.raised a), s⟩ ⟨.error (.raised (w.shifts.error.apply a)), t⟩
  | escaped {f : HostFailure} {s t : Store} : f.isEscaping = true → w.Parallel s t →
    Concludes w Q ⟨.error (.escaped f), s⟩ ⟨.error (.escaped f), t⟩
  | exhausted {s t : Store} : w.Parallel s t → Concludes w Q ⟨.error .exhausted, s⟩ ⟨.error .exhausted, t⟩

/-- The stores that are left behind run in parallel. -/
theorem Concludes.parallel {α β : Type} {Q : Store → Store → α → β → Prop} {r : Run α} {r' : Run β}
    (h : w.Concludes Q r r') : w.Parallel r.store r'.store := by
  cases h with
  | done _ hst => exact hst
  | refused hst => exact hst
  | raised hst => exact hst
  | escaped _ hst => exact hst
  | exhausted hst => exact hst

theorem Matches.concludes {α β : Type} {P : Store → Store → Address → Prop} {Q : Store → Store → α → β → Prop}
    {o : Outcome α} {o' : Outcome β} (hw : w.lenient = false) (h : w.Matches false P Q s t o o') :
    w.Concludes Q (Run.ofOutcome o) (Run.ofOutcome o') := by
  cases h with
  | done hq hf => exact .done hq hf.parallel
  | raised _ hf => exact .raised hf.parallel
  | escaped hfail hf => exact .escaped (hfail.resolve_left nofun) hf.parallel
  | exhausted hf => exact .exhausted hf.parallel
  | gaveUp hw' => exact absurd hw' (by simp [hw])

theorem concludes_reading {α β γ : Type} {Q : Store → Store → β → γ → Prop} {read : Except Syntax.SyntaxError α}
    {x : α → Action β} {y : α → Action γ} (hw : w.lenient = false) (hst : w.Parallel s t)
    (h : ∀ a, read = .ok a → w.Alike false Q s t (x a) (y a)) :
    w.Concludes Q (Run.reading read x s) (Run.reading read y t) := by
  cases read with
  | error e => exact .refused hst
  | ok a => exact (h a rfl hst).concludes hw

/-- Corresponding functions with which a program begins. -/
structure Entries (w : Comparison) (s t : Store) (x y : Entry) : Prop where
  function : w.Val s t x.function y.function
  parameters : y.parameters = x.parameters

theorem Tables.parameterCount {K : Value → Prop} (h : w.Tables K s t) (v : Value) :
    parameterCount t (v.shift w.shifts) = parameterCount s v := by
  cases v with
  | closure a =>
    simp only [Value.shift, Dartlet.parameterCount]
    cases hf : s.closures[a]? with
    | none => rw [h.closures.missing hf]
    | some f =>
      obtain ⟨g, hg, hfg⟩ := h.closures.entry a f hf
      rw [hg, hfg.same]
  | _ => rfl

theorem alike_findEntry (hmain : w.hidden entryName = false) (scope : Nat) :
    w.Alike false w.Entries s t (findEntry scope) (findEntry (w.shifts.scope.apply scope)) := by
  intro hst
  unfold findEntry
  rw [Tables.lookup? hst hmain]
  cases hv : s.lookup? scope entryName with
  | none => exact alike_fail_closed rfl hst
  | some v =>
    simp only [Option.map_some, Value.isFunction_shift, Tables.parameterCount hst]
    split
    · exact .done ⟨⟨rfl, Tables.lookup?_known hst hmain hv⟩, rfl⟩ (.refl hst)
    · exact alike_fail_closed rfl hst

theorem alike_callEntry (h : w.Agrees m engine engine) {x y : Entry} (hxy : w.Entries s t x y)
    (arguments : List String) : w.Alike false w.Val s t (callEntry x arguments) (callEntry y arguments) := by
  obtain ⟨⟨hsame, hf⟩, hparameters⟩ := hxy
  unfold callEntry
  rw [hparameters, hsame]
  split
  · exact h.call hf (by simp)
  · refine (alike_newList ⟨?_, ?_⟩).bind (fun s' t' v v' hfollows hv => ?_)
    · simp [Function.comp_def, Value.shift]
    · simp [Value.Known]
    · obtain ⟨rfl, hv⟩ := hv
      exact h.call (hf.mono hfollows.first.known) (by simpa using hv)
  · exact alike_fail_closed rfl

/-- Two runs of a program whose outermost scope is the same. -/
theorem concludes_runMain (h : w.Agrees m engine engine) (hmain : w.hidden entryName = false)
    (hroot : w.shifts.scope.apply rootScope = rootScope) (hhere : m.Here s rootScope) {source : String}
    (hsource : ∀ x, Syntax.parseUnit source = .ok x → m.Tree (.stmt x)) (arguments : List String)
    (hst : w.Parallel s t) (hw : w.lenient = false) :
    w.Concludes w.Val (runMain source arguments s) (runMain source arguments t) := by
  have hload : w.Concludes w.Entries (loadMain source s) (loadMain source t) := by
    refine concludes_reading hw hst (fun x hx => ?_)
    have hunit : w.Alike false (fun _ _ a b => b = w.shifts.scope.apply a) s t (declareUnit x) (declareUnit x) := by
      have hentering := alike_entering (c := ⟨rootScope, 0⟩) (t := t) (Q := fun _ _ a b => b = w.shifts.scope.apply a)
        (f := fun scope => execIn scope x >>= fun _ => pure scope)
        (g := fun scope => execIn scope x >>= fun _ => pure scope) hhere (fun s' t' a _ hhere' => ?_)
      · rw [move_scope, hroot] at hentering
        exact hentering
      · exact h.executing (c := ⟨a, 0⟩) (hsource x hx) hhere' (fun _ _ _ _ _ _ _ => alike_pure rfl)
    exact hunit.bind (fun s' t' a b _ hab => hab ▸ alike_findEntry hmain a)
  unfold runMain
  generalize loadMain source s = r at hload ⊢
  generalize loadMain source t = r' at hload ⊢
  cases hload with
  | done hentry hparallel => exact (alike_callEntry h hentry arguments hparallel).concludes hw
  | refused hparallel => exact .refused hparallel
  | raised hparallel => exact .raised hparallel
  | escaped hf hparallel => exact .escaped hf hparallel
  | exhausted hparallel => exact .exhausted hparallel

end Comparison
end Dartlet
