import Dartlet.Host.Standard
import Dartlet.Proofs.Evaluation.Policies

/-!
# Jumps stay within loops

The check of jumps looks at a text once, and functions made from it may be called much later. Still no
run of a function body ends by a jump: the check has passed every body that is in a store, and what
has passed it completes normally or by returning, since loops end jumps and all other statements pass
on only those of their parts.
-/

namespace Dartlet

open Dartlet.Action
open Dartlet.Syntax (Enclosing Expr Node Stmt)

set_option linter.unusedSectionVars false

section

variable [Host]

namespace Syntax

/-- Inside everything that jumps may need. -/
def Enclosing.everything : Enclosing := ⟨true, true⟩

/-- Inside a catch clause, but not in a loop. -/
def Enclosing.clauseOnly : Enclosing := ⟨false, true⟩

theorem Enclosing.le_everything (c : Enclosing) : c.Le .everything := ⟨fun _ => rfl, fun _ => rfl⟩

/-- What passes the check somewhere has only parts that do. -/
theorem Node.jumpError_part {n m : Node} (h : n.jumpError .everything = none) (hm : m ∈ n.children) :
    m.jumpError .everything = none := by
  have hparts := ((n.jumpError_eq_none _).mp h).2
  exact m.jumpError_mono (Enclosing.le_everything _) (hparts m hm)

/-- The statements whose completions become those of another one are not inside a loop of it. -/
theorem Stmt.jumpError_through {x y : Stmt} (h : x.jumpError .clauseOnly = none) (hy : y ∈ x.throughParts) :
    y.jumpError .clauseOnly = none := by
  obtain ⟨-, hparts⟩ := (Stmt.jumpError_eq_none _ x).mp h
  cases x with
  | unit l xs => exact hparts (.stmt y) (List.mem_map_of_mem hy)
  | block l xs => exact hparts (.stmt y) (List.mem_map_of_mem hy)
  | conditional l condition t f =>
    exact hparts (.stmt y) (List.mem_cons_of_mem _ (List.mem_map_of_mem (f := Node.stmt) hy))
  | trying l body clauses f =>
    simp only [Stmt.throughParts, List.cons_append, List.mem_cons, List.mem_append, List.mem_map] at hy
    rcases hy with rfl | ⟨clause, hclause, rfl⟩ | hy
    · exact hparts (.stmt y) (by simp [Stmt.children])
    · obtain ⟨l', y, t, n, m⟩ := clause
      exact hparts (.clause (.mk l' y t n m)) (by simp [Stmt.children, hclause])
    · exact hparts (.stmt y) (by simp_all [Stmt.children])
  | _ => cases hy

/-- How a statement may complete: if it is a loop or has passed the check outside of one, then not by
a jump. -/
def Stmt.MayEnd (x : Stmt) (k : Completion) : Prop :=
  x.isLoop = true ∨ x.jumpError .clauseOnly = none → k.isJump = false

theorem Stmt.MayEnd.part {x y : Stmt} {k : Completion} (hy : y ∈ x.throughParts) (h : y.MayEnd k) : x.MayEnd k := by
  rintro (hloop | hlands)
  · have hnone : x.throughParts = [] := by cases x <;> first | rfl | cases hloop
    rw [hnone] at hy
    cases hy
  · exact h (.inr (Stmt.jumpError_through hlands hy))

end Syntax

/-- The policy of programs whose jumps have been checked. -/
def Policy.landing : Policy where
  Good n := n.jumpError .everything = none
  Never f := ∃ keyword, f = .jumpOutsideLoop keyword
  Ends := Stmt.MayEnd
  good_accepted {n} h := n.jumpError_mono (Enclosing.le_everything _) h.lands
  good_part := Node.jumpError_part
  ordinary hf := by
    rintro ⟨keyword, rfl⟩
    cases hf
  raises _ hf := by
    rintro ⟨keyword, rfl⟩
    cases hf
  ends_normal _ _ := rfl
  ends_returning _ _ _ := rfl
  ends_breaking l := by
    rintro (h | h)
    · cases h
    · cases h
  ends_continuing l := by
    rintro (h | h)
    · cases h
    · cases h
  ends_part hy h := h.part hy
  jumping {l x k keyword} hb hk hjump := by
    have hlands : x.jumpError .nothing = none := ((Node.jumpError_eq_none _ _).mp hb).2 (.stmt x) (by simp [Node.children])
    have hx : x.jumpError .clauseOnly = none := (Node.stmt x).jumpError_mono (Enclosing.nothing_le _) hlands
    simp [hk (.inr hx)] at hjump

/-- The policy that allows all trees and all errors, and only says how statements complete. -/
def Policy.completing : Policy :=
  { Policy.landing with
    Good := fun _ => True
    Never := fun _ => False
    good_accepted := fun _ => trivial
    good_part := fun _ _ => trivial
    ordinary := fun _ => id
    raises := fun _ _ => id
    jumping := fun _ _ _ => id }

section Completions

variable {level : Nat} {c : Context} {x : Stmt} {s t : Store} {k : Completion}

/-- In every store, statements complete as they may. -/
theorem mayEnd_of_exec (h : (interpreter level).exec c x s = .done k t) : x.MayEnd k := by
  have hinv : Policy.completing.Inv s := ⟨fun _ _ => trivial, fun _ _ => id⟩
  have hmeets := (Policy.completing.discipline.obeyed level).exec c x trivial trivial s hinv
  rw [h] at hmeets
  exact hmeets.1

theorem keeps_true {α : Type} (x : Action α) : Keeps (fun _ => True) x := by
  intro s _
  cases x s <;> simp [Outcome.Meets]

/-- A declaration completes normally. -/
theorem exec_declaration (level : Nat) (c : Context) (hx : x.isDeclaration = true) :
    Ensures (fun _ => True) (· = .normal) ((interpreter level).exec c x) := by
  cases level with
  | zero => exact ensures_exhaust
  | succ level =>
    refine Ensures.within ?_ (fun _ => keeps_true _)
    cases x with
    | «variables» l vs keyword type => exact (keeps_true _).bind (fun _ => ensures_pure rfl)
    | function l name parameters body type =>
      exact (keeps_true _).bind (fun _ => (keeps_true _).bind (fun _ => ensures_pure rfl))
    | _ => cases hx

theorem execAll_normal {e : Engine} {xs : List Stmt}
    (h : ∀ x ∈ xs, Ensures (fun _ => True) (· = .normal) (e.exec c x)) :
    Ensures (fun _ => True) (· = .normal) (execAll e c xs) := by
  induction xs with
  | nil => exact ensures_pure rfl
  | cons x xs ih =>
    refine (h x List.mem_cons_self).bind (fun k hk => ?_)
    subst hk
    exact ih (fun y hy => h y (List.mem_cons_of_mem x hy))

/-- A program consists of declarations, so it completes normally. -/
theorem exec_unit {text : String} (hx : Syntax.parseUnit text = .ok x)
    (h : (interpreter level).exec c x s = .done k t) : k = .normal := by
  obtain ⟨-, l, xs, rfl, hxs⟩ := Syntax.parseUnit_accepted hx
  have hexec : Ensures (fun _ => True) (· = .normal) ((interpreter level).exec c (.unit l xs)) := by
    cases level with
    | zero => exact ensures_exhaust
    | succ level =>
      refine Ensures.within ?_ (fun _ => keeps_true _)
      exact execAll_normal (fun y hy => exec_declaration level c (hxs y hy))
  have hmeets := hexec s trivial
  rw [h] at hmeets
  exact hmeets.1

end Completions

/-- Whatever a host runs, no error ever says that a jump is outside of a loop, and running the body of
any function in the store, wherever and whenever, does not complete by a jump. All loops complete
normally or by returning, and so do the statements of accepted inputs; accepted programs complete
normally. -/
theorem jumps_stay_within_loops :
    (∀ s : Store, s.Reached →
      (∀ keyword, Fault.jumpOutsideLoop keyword ∉ s.faults) ∧
      ∀ f ∈ s.closures, ∀ l x, f.body = .block l x → ∀ level c s' k t,
        (interpreter level).exec c x s' = .done k t → k.isJump = false) ∧
    (∀ x : Stmt, x.isLoop = true → ∀ level c s k t,
      (interpreter level).exec c x s = .done k t → k.isJump = false) ∧
    (∀ text x, Syntax.parseUnit text = .ok x → ∀ level c s k t,
      (interpreter level).exec c x s = .done k t → k = .normal) ∧
    ∀ text xs, Syntax.parseStatements text = .ok xs → ∀ x ∈ xs, ∀ level c s k t,
      (interpreter level).exec c x s = .done k t → k.isJump = false := by
  refine ⟨fun s hs => ⟨fun keyword hkeyword => ?_, ?_⟩, ?_, ?_, ?_⟩
  · exact (Policy.landing.reached hs).faults _ hkeyword ⟨keyword, rfl⟩
  · intro f hf l x hbody level c s' k t h
    have hgood := (Policy.landing.reached hs).closures f hf
    rw [hbody] at hgood
    have hlands := ((Node.jumpError_eq_none _ _).mp hgood).2 (.stmt x) (by simp [Node.children])
    exact mayEnd_of_exec h (.inr ((Node.stmt x).jumpError_mono (Enclosing.nothing_le _) hlands))
  · exact fun x hx level c s k t h => mayEnd_of_exec h (.inl hx)
  · exact fun text x hx level c s k t h => exec_unit hx h
  · intro text xs hxs x hx level c s k t h
    have hlands := (Syntax.parseStatements_accepted hxs x hx).lands
    exact mayEnd_of_exec h (.inr ((Node.stmt x).jumpError_mono (Enclosing.nothing_le _) hlands))

end

/-- A program whose loop ends by a jump and whose functions are called from outside. -/
theorem jumps_stay_within_loops_main :
    ∀ keyword, Fault.jumpOutsideLoop keyword ∉
      (runMain "f() \x7b while (true) break; \x7d main() => [1].forEach((x) => f());" [] Store.initial).store.faults :=
  (jumps_stay_within_loops.1 _ (.main _ _ (.fresh rfl rfl))).1

end Dartlet
