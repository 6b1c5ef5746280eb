import Dartlet.Host.Standard
import Dartlet.Proofs.Evaluation.Endings

/-!
# What a try statement does

A try statement is told here by what its parts do, in the manner of a natural semantics: which of them runs,
from which store, and what becomes of a completion or an error that is pending meanwhile. The interpreter
does just this, whatever executes the parts, and so does the language, in which levels do not count.
-/

namespace Dartlet

open Dartlet.Action
open Dartlet.Syntax (CatchClause Expr Location Stmt)

set_option linter.unusedSectionVars false

section

variable [Host]

/-- How a statement ends: with a completion or with an error. -/
inductive Signal where
  | completed (completion : Completion)
  | raised (error : Address)

namespace Signal

/-- The outcome that leaves a store with a signal. -/
def outcome (t : Store) : Signal → Outcome Completion
  | .completed k => .done k t
  | .raised a => .raised a t

/-- End with a signal. -/
def resume : Signal → Action Completion
  | .completed k => pure k
  | .raised a => raise a

/-- The store in which the error of a signal has got a place, unless it had one before. -/
def located (t : Store) (l : Location) : Signal → Store
  | .completed _ => t
  | .raised a => t.locate a l

section

variable {k : Signal} {s t : Store}

@[simp] theorem done_eq_outcome {completion : Completion} :
    .done completion s = k.outcome t ↔ k = .completed completion ∧ t = s := by
  cases k <;> simp only [outcome, Outcome.done.injEq, completed.injEq, reduceCtorEq, false_and]
  exact and_congr eq_comm eq_comm

@[simp] theorem raised_eq_outcome {error : Address} :
    .raised error s = k.outcome t ↔ k = .raised error ∧ t = s := by
  cases k <;> simp only [outcome, Outcome.raised.injEq, raised.injEq, reduceCtorEq, false_and]
  exact and_congr eq_comm eq_comm

@[simp] theorem escaped_eq_outcome {failure : HostFailure} : .escaped failure s = k.outcome t ↔ False := by
  cases k <;> simp only [outcome, reduceCtorEq]

@[simp] theorem exhausted_eq_outcome : .exhausted s = k.outcome t ↔ False := by
  cases k <;> simp only [outcome, reduceCtorEq]

end

theorem resume_eq_outcome (k : Signal) (t : Store) : k.resume t = k.outcome t := by cases k <;> rfl

theorem outcome_inj {k k' : Signal} {t t' : Store} (h : k.outcome t = k'.outcome t') : k = k' ∧ t = t' := by
  cases k with
  | completed completion => exact (done_eq_outcome.mp h).imp Eq.symm Eq.symm
  | raised error => exact (raised_eq_outcome.mp h).imp Eq.symm Eq.symm

@[simp] theorem located_none (k : Signal) (t : Store) : k.located t none = t := by cases k <;> rfl

end Signal

/-- Whether the error of a signal has the method of its own that is told places. -/
def Signal.Unhooked (s : Store) (k : Signal) : Prop := ∀ a, k = .raised a → s.hook? a = none

/-- Whether a signal is the same after a statement at a place: an error has the method of its own, and has a place
unless the statement has none. -/
def Signal.Keeps (s : Store) (l : Location) (k : Signal) : Prop := k.Unhooked s ∧ k.located s l = s

/-- Which signals statements end with: from a context and a store, with a signal and in a store. -/
abbrev Execution := Context → Stmt → Store → Signal → Store → Prop

/-- The signals with which statements end when an engine executes them. -/
def Engine.Ends (e : Engine) : Execution := fun c x s k t => e.exec c x s = k.outcome t

/-- The signals with which statements end, whatever number of levels that takes. -/
def Executes : Execution := fun c x s k t => ∃ level, (interpreter level).Ends c x s k t

/-- What signals become on the way out of statements: in a context, at the place of the statement, from a signal in a
store to a signal in a store. -/
abbrev Passage := Context → Location → Signal → Store → Signal → Store → Prop

/-- How an engine lets signals out of statements. A completion passes as it is; an error is told the place first. -/
def Engine.Passes (e : Engine) : Passage := fun c l k s k' t =>
  (∃ completion, k = .completed completion ∧ k' = k ∧ t = s) ∨
    ∃ a, k = .raised a ∧ (raiseFrom (e.caller c.depth) l a : Action Completion) s = k'.outcome t

/-- How signals get out of statements, whatever number of levels that takes. -/
def Passes : Passage := fun c l k s k' t => ∃ level, (interpreter level).Passes c l k s k' t

/-! ### The parts of a try statement -/

section Parts

variable (R : Execution) (T : Passage) (c : Context)

/-- What a clause makes of an error. Its body runs in a scope of its own; a clause for one type of errors
is not supported, and the error that says so takes the place of the other one. -/
inductive Handles (error : Address) (s : Store) : CatchClause → Signal → Store → Prop where
  | untyped {l body x y k t} (run : R (c.at (s.enter c.scope).1) body (openClause s c.scope error x y) k t) :
      Handles error s (.mk l body none x y) k t
  | typed {l body type x y} :
      Handles error s (.mk l body (some type) x y) (.raised (s.addError (.unsupported (.typedCatch type))).1)
        (s.addError (.unsupported (.typedCatch type))).2

/-- What the body and the clauses of a try statement end with. Only an error of the body reaches a clause,
and only the first one, in the store that the body left. -/
inductive Attempts (body : Stmt) (s : Store) : List CatchClause → Signal → Store → Prop where
  | completes {clauses k t} (run : R c body s (.completed k) t) : Attempts body s clauses (.completed k) t
  | uncaught {error t} (run : R c body s (.raised error) t) : Attempts body s [] (.raised error) t
  | caught {error s' clause rest k t} (run : R c body s (.raised error) s')
      (handles : Handles R c error s' clause k t) : Attempts body s (clause :: rest) k t

/-- What a pending signal becomes by the block after it. The block runs in the store that the signal came
with. If it completes normally, the signal is what it was; otherwise the block's own signal replaces it. -/
inductive Concludes (pending : Signal) (s : Store) : Option Stmt → Signal → Store → Prop where
  | absent : Concludes pending s none pending s
  | passes {block t} (run : R c block s (.completed .normal) t) : Concludes pending s (some block) pending t
  | overrides {block k t} (abrupt : k.isAbrupt = true) (run : R c block s (.completed k) t) :
      Concludes pending s (some block) (.completed k) t
  | raises {block error t} (run : R c block s (.raised error) t) : Concludes pending s (some block) (.raised error) t

/-- What a try statement ends with: its body and its clauses, then the block after them, then the way out of the
statement. -/
def Tries (l : Location) (body : Stmt) (clauses : List CatchClause) (block : Option Stmt) (s : Store) (k : Signal)
    (t : Store) : Prop :=
  ∃ pending s' last t', Attempts R c body s clauses pending s' ∧ Concludes R c pending s' block last t' ∧
    T c l last t' k t

end Parts

/-! ### What an engine does with a try statement -/

section Engines

variable {e : Engine} {c : Context} {s t : Store} {k : Signal}

theorem Engine.passes_completed {l : Location} {completion : Completion} :
    e.Passes c l (.completed completion) s k t ↔ k = .completed completion ∧ t = s := by
  constructor
  · rintro (⟨_, -, hk⟩ | ⟨_, hcompleted, -⟩)
    · exact hk
    · cases hcompleted
  · exact fun hk => .inl ⟨completion, rfl, hk⟩

theorem Engine.passes_raised {l : Location} {a : Address} :
    e.Passes c l (.raised a) s k t ↔ (raiseFrom (e.caller c.depth) l a : Action Completion) s = k.outcome t := by
  constructor
  · rintro (⟨_, hraised, -⟩ | ⟨_, hraised, htold⟩)
    · cases hraised
    · cases hraised
      exact htold
  · exact fun htold => .inr ⟨a, rfl, htold⟩

theorem within_eq_outcome {l : Location} {x : Action Completion} :
    within (e.caller c.depth) l x s = k.outcome t ↔ ∃ k' t', x s = k'.outcome t' ∧ e.Passes c l k' t' k t := by
  unfold within
  constructor
  · intro h
    cases hx : x s with
    | done completion s' =>
      rw [hx] at h
      exact ⟨.completed completion, s', rfl, Engine.passes_completed.mpr (Signal.done_eq_outcome.mp h)⟩
    | raised error s' =>
      rw [hx] at h
      exact ⟨.raised error, s', rfl, Engine.passes_raised.mpr h⟩
    | escaped failure s' =>
      rw [hx] at h
      exact (Signal.escaped_eq_outcome.mp h).elim
    | exhausted s' =>
      rw [hx] at h
      exact (Signal.exhausted_eq_outcome.mp h).elim
  · rintro ⟨k', t', hx, hpasses⟩
    cases k' with
    | completed completion =>
      obtain ⟨rfl, rfl⟩ := Engine.passes_completed.mp hpasses
      rw [hx]
      rfl
    | raised error =>
      rw [hx]
      exact Engine.passes_raised.mp hpasses

theorem handles_iff {error : Address} {clause : CatchClause} :
    runClause e c error clause s = k.outcome t ↔ Handles e.Ends c error s clause k t := by
  obtain ⟨l, body, type?, x, y⟩ := clause
  constructor
  · intro h
    cases type? with
    | none => exact .untyped h
    | some type =>
      obtain ⟨rfl, rfl⟩ := Signal.raised_eq_outcome.mp h
      exact .typed
  · rintro (run | -)
    · exact run
    · rfl

theorem attempts_iff {body : Stmt} {clauses : List CatchClause} :
    handling e c clauses (e.exec c body) s = k.outcome t ↔ Attempts e.Ends c body s clauses k t := by
  unfold handling
  constructor
  · intro h
    cases hbody : e.exec c body s with
    | done completion s' =>
      simp only [hbody, Signal.done_eq_outcome] at h
      obtain ⟨rfl, rfl⟩ := h
      exact .completes hbody
    | raised error s' =>
      rw [hbody] at h
      cases clauses with
      | nil =>
        obtain ⟨rfl, rfl⟩ := Signal.raised_eq_outcome.mp h
        exact .uncaught hbody
      | cons clause rest => exact .caught hbody (handles_iff.mp h)
    | escaped failure s' => simp only [hbody, Signal.escaped_eq_outcome] at h
    | exhausted s' => simp only [hbody, Signal.exhausted_eq_outcome] at h
  · rintro (run | run | ⟨run, handles⟩)
    all_goals simp only [show e.exec c body s = _ from run, Signal.outcome]
    exact handles_iff.mpr handles

/-- The block after a pending signal: the signal waits until the block has run. -/
theorem concludes_iff {pending : Signal} {block : Stmt} :
    (e.exec c block >>= fun last => if last.isAbrupt then pure last else pending.resume) s = k.outcome t ↔
      Concludes e.Ends c pending s (some block) k t := by
  change Action.bind _ _ _ = _ ↔ _
  unfold Action.bind
  constructor
  · intro h
    cases hblock : e.exec c block s with
    | done last s' =>
      rw [hblock] at h
      cases last with
      | normal =>
        obtain ⟨rfl, rfl⟩ := Signal.outcome_inj ((pending.resume_eq_outcome s').symm.trans h)
        exact .passes hblock
      | _ =>
        obtain ⟨rfl, rfl⟩ := Signal.done_eq_outcome.mp h
        exact .overrides rfl hblock
    | raised error s' =>
      simp only [hblock, Signal.raised_eq_outcome] at h
      obtain ⟨rfl, rfl⟩ := h
      exact .raises hblock
    | escaped failure s' => simp only [hblock, Signal.escaped_eq_outcome] at h
    | exhausted s' => simp only [hblock, Signal.exhausted_eq_outcome] at h
  · rintro (_ | run | ⟨abrupt, run⟩ | run)
    all_goals rw [show e.exec c block s = _ from run]
    · exact k.resume_eq_outcome t
    · simp only [Signal.outcome, if_pos abrupt]
      rfl
    · rfl

/-- The block runs once the rest has ended. -/
theorem ensuring_iff {block : Option Stmt} {x : Action Completion} :
    ensuring e c block x s = k.outcome t ↔
      ∃ pending s', x s = pending.outcome s' ∧ Concludes e.Ends c pending s' block k t := by
  cases block with
  | none =>
    constructor
    · exact fun h => ⟨k, t, h, .absent⟩
    · rintro ⟨pending, s', hx, ⟨⟩⟩
      exact hx
  | some block =>
    simp only [ensuring]
    cases hx : x s with
    | done completion s' =>
      simp only [Signal.done_eq_outcome]
      have hwaits : (do let last ← e.exec c block; pure (if last.isAbrupt then last else completion)) =
          (e.exec c block >>= fun last => if last.isAbrupt then pure last else (Signal.completed completion).resume) :=
        congrArg _ (funext fun last => apply_ite pure _ _ _)
      rw [hwaits, concludes_iff]
      exact ⟨fun h => ⟨_, _, ⟨rfl, rfl⟩, h⟩, fun ⟨_, _, ⟨hk, hs⟩, h⟩ => hk ▸ hs ▸ h⟩
    | raised error s' =>
      simp only [Signal.raised_eq_outcome]
      rw [← Signal.resume, concludes_iff]
      exact ⟨fun h => ⟨_, _, ⟨rfl, rfl⟩, h⟩, fun ⟨_, _, ⟨hk, hs⟩, h⟩ => hk ▸ hs ▸ h⟩
    | escaped failure s' => simp only [Signal.escaped_eq_outcome, false_and, exists_false]
    | exhausted s' => simp only [Signal.exhausted_eq_outcome, false_and, exists_false]

theorem execStmt_trying_iff {l : Location} {body : Stmt} {clauses : List CatchClause} {block : Option Stmt} :
    execStmt e c (.trying l body clauses block) s = k.outcome t ↔
      Tries e.Ends e.Passes c l body clauses block s k t := by
  unfold execStmt
  rw [within_eq_outcome]
  simp only [execForm, ensuring_iff, attempts_iff, Tries]
  constructor
  · rintro ⟨last, t', ⟨pending, s', hbefore, hafter⟩, hpasses⟩
    exact ⟨pending, s', last, t', hbefore, hafter, hpasses⟩
  · rintro ⟨pending, s', last, t', hbefore, hafter, hpasses⟩
    exact ⟨last, t', ⟨pending, s', hbefore, hafter⟩, hpasses⟩

end Engines

/-! ### Without regard to levels -/

section Levels

variable {c : Context} {s t : Store} {k : Signal} {R R' : Execution}

/-- What has ended stays as it is with more levels. -/
theorem Executes.settled {x : Stmt} (h : Executes c x s k t) :
    ∃ level, ∀ more, level ≤ more → (interpreter more).Ends c x s k t := by
  obtain ⟨level, hlevel⟩ := h
  refine ⟨level, fun more hmore => ?_⟩
  rcases (more_levels_change_nothing hmore c s).2.1 x with ⟨s', hexhausted⟩ | hsame
  · exact (Signal.exhausted_eq_outcome.mp (hexhausted.symm.trans hlevel)).elim
  · exact hsame.trans hlevel

/-- What executes by one more level is what a statement does. -/
theorem executes_iff {x : Stmt} : Executes c x s k t ↔ ∃ level, execStmt (interpreter level) c x s = k.outcome t := by
  constructor
  · rintro ⟨_ | level, h⟩
    · exact (Signal.exhausted_eq_outcome.mp h).elim
    · exact ⟨level, h⟩
  · rintro ⟨level, h⟩
    exact ⟨level + 1, h⟩

theorem Handles.mono (hR : ∀ {c x s k t}, R c x s k t → R' c x s k t) {error : Address} {clause : CatchClause}
    (h : Handles R c error s clause k t) : Handles R' c error s clause k t := by
  cases h with
  | untyped run => exact .untyped (hR run)
  | typed => exact .typed

theorem Attempts.mono (hR : ∀ {c x s k t}, R c x s k t → R' c x s k t) {body : Stmt} {clauses : List CatchClause}
    (h : Attempts R c body s clauses k t) : Attempts R' c body s clauses k t := by
  cases h with
  | completes run => exact .completes (hR run)
  | uncaught run => exact .uncaught (hR run)
  | caught run handles => exact .caught (hR run) (handles.mono hR)

theorem Concludes.mono (hR : ∀ {c x s k t}, R c x s k t → R' c x s k t) {pending : Signal} {block : Option Stmt}
    (h : Concludes R c pending s block k t) : Concludes R' c pending s block k t := by
  cases h with
  | absent => exact .absent
  | passes run => exact .passes (hR run)
  | overrides abrupt run => exact .overrides abrupt (hR run)
  | raises run => exact .raises (hR run)

/-- A clause ends at all levels from some one on. -/
theorem Handles.settled {error : Address} {clause : CatchClause} (h : Handles Executes c error s clause k t) :
    ∃ level, ∀ more, level ≤ more → Handles (interpreter more).Ends c error s clause k t := by
  cases h with
  | untyped run => exact run.settled.imp fun _ hrun more hmore => .untyped (hrun more hmore)
  | typed => exact ⟨0, fun _ _ => .typed⟩

theorem Attempts.settled {body : Stmt} {clauses : List CatchClause} (h : Attempts Executes c body s clauses k t) :
    ∃ level, ∀ more, level ≤ more → Attempts (interpreter more).Ends c body s clauses k t := by
  cases h with
  | completes run => exact run.settled.imp fun _ hrun more hmore => .completes (hrun more hmore)
  | uncaught run => exact run.settled.imp fun _ hrun more hmore => .uncaught (hrun more hmore)
  | caught run handles =>
    obtain ⟨first, hrun⟩ := run.settled
    obtain ⟨second, hhandles⟩ := handles.settled
    exact ⟨max first second, fun more hmore => .caught (hrun more (Nat.le_trans (Nat.le_max_left _ _) hmore))
      (hhandles more (Nat.le_trans (Nat.le_max_right _ _) hmore))⟩

theorem Concludes.settled {pending : Signal} {block : Option Stmt} (h : Concludes Executes c pending s block k t) :
    ∃ level, ∀ more, level ≤ more → Concludes (interpreter more).Ends c pending s block k t := by
  cases h with
  | absent => exact ⟨0, fun _ _ => .absent⟩
  | passes run => exact run.settled.imp fun _ hrun more hmore => .passes (hrun more hmore)
  | overrides abrupt run => exact run.settled.imp fun _ hrun more hmore => .overrides abrupt (hrun more hmore)
  | raises run => exact run.settled.imp fun _ hrun more hmore => .raises (hrun more hmore)

theorem Passes.settled {l : Location} {k' : Signal} (h : Passes c l k s k' t) :
    ∃ level, ∀ more, level ≤ more → (interpreter more).Passes c l k s k' t := by
  obtain ⟨level, ⟨completion, rfl, hsame⟩ | ⟨a, rfl, htold⟩⟩ := h
  · exact ⟨0, fun _ _ => .inl ⟨completion, rfl, hsame⟩⟩
  · refine ⟨level, fun more hmore => .inr ⟨a, rfl, ?_⟩⟩
    rcases Persistent.raiseFrom c.depth l a level more hmore s with ⟨s', hexhausted⟩ | hsame
    · exact (Signal.exhausted_eq_outcome.mp (hexhausted.symm.trans htold)).elim
    · exact hsame.trans htold

theorem passes_completed {l : Location} {completion : Completion} :
    Passes c l (.completed completion) s k t ↔ k = .completed completion ∧ t = s :=
  ⟨fun ⟨_, h⟩ => Engine.passes_completed.mp h, fun h => ⟨0, Engine.passes_completed.mpr h⟩⟩

/-- A signal whose error has the method of its own gets out as it is, with a place. -/
theorem passes_iff_of_unhooked {l : Location} {k' : Signal} (h : k.Unhooked s) :
    Passes c l k s k' t ↔ k' = k ∧ t = k.located s l := by
  cases k with
  | completed completion => exact passes_completed
  | raised a =>
    have htold (level : Nat) : (raiseFrom ((interpreter level).caller c.depth) l a : Action Completion) s =
        (Signal.raised a).outcome (s.locate a l) := raiseFrom_of_unhooked (h a rfl)
    constructor
    · rintro ⟨level, hpasses⟩
      obtain ⟨hk, ht⟩ := Signal.outcome_inj ((htold level).symm.trans (Engine.passes_raised.mp hpasses))
      exact ⟨hk.symm, ht.symm⟩
    · rintro ⟨rfl, rfl⟩
      exact ⟨0, Engine.passes_raised.mpr (htold 0)⟩

/-- A statement ends with at most one signal. -/
theorem Executes.unique {x : Stmt} {k' : Signal} {t' : Store} (h : Executes c x s k t) (h' : Executes c x s k' t') :
    k = k' ∧ t = t' := by
  obtain ⟨first, hfirst⟩ := h.settled
  obtain ⟨second, hsecond⟩ := h'.settled
  exact Signal.outcome_inj ((hfirst _ (Nat.le_max_left first second)).symm.trans (hsecond _ (Nat.le_max_right first second)))

theorem Attempts.unique {body : Stmt} {clauses : List CatchClause} {k' : Signal} {t' : Store}
    (h : Attempts Executes c body s clauses k t) (h' : Attempts Executes c body s clauses k' t') : k = k' ∧ t = t' := by
  obtain ⟨first, hfirst⟩ := h.settled
  obtain ⟨second, hsecond⟩ := h'.settled
  exact Signal.outcome_inj ((attempts_iff.mpr (hfirst _ (Nat.le_max_left first second))).symm.trans
    (attempts_iff.mpr (hsecond _ (Nat.le_max_right first second))))

/-- A try statement ends as its parts say, if its parts end. -/
theorem executes_trying_iff {l : Location} {body : Stmt} {clauses : List CatchClause} {block : Option Stmt} :
    Executes c (.trying l body clauses block) s k t ↔ Tries Executes Passes c l body clauses block s k t := by
  rw [executes_iff]
  simp only [execStmt_trying_iff]
  constructor
  · rintro ⟨level, pending, s', last, t', hattempts, hconcludes, hpasses⟩
    exact ⟨pending, s', last, t', hattempts.mono (fun h => ⟨level, h⟩), hconcludes.mono (fun h => ⟨level, h⟩), level,
      hpasses⟩
  · rintro ⟨pending, s', last, t', hattempts, hconcludes, hpasses⟩
    obtain ⟨first, hfirst⟩ := hattempts.settled
    obtain ⟨second, hsecond⟩ := hconcludes.settled
    obtain ⟨third, hthird⟩ := hpasses.settled
    exact ⟨max (max first second) third, pending, s', last, t', hfirst _ (by omega), hsecond _ (by omega),
      hthird _ (by omega)⟩

end Levels

/-! ### One statement inside the other -/

section Nesting

variable {c : Context} {s t : Store} {k : Signal} {body : Stmt} {clauses : List CatchClause} {block : Option Stmt}
  {l l' : Location}

theorem attempts_nil {R : Execution} : Attempts R c body s [] k t ↔ R c body s k t := by
  constructor
  · rintro (run | run | -) <;> exact run
  · intro run
    cases k with
    | completed => exact .completes run
    | raised => exact .uncaught run

/-- A try statement without a block at its end. -/
theorem executes_trying_without_block :
    Executes c (.trying l' body clauses none) s k t ↔
      ∃ pending s', Attempts Executes c body s clauses pending s' ∧ Passes c l' pending s' k t := by
  rw [executes_trying_iff]
  constructor
  · rintro ⟨pending, s', _, _, hattempts, ⟨⟩, hpasses⟩
    exact ⟨_, _, hattempts, hpasses⟩
  · rintro ⟨pending, s', hattempts, hpasses⟩
    exact ⟨pending, s', pending, s', hattempts, .absent, hpasses⟩

/-- A try statement inside another one that has no clauses: the same, but an error that is pending gets out of the
inner one before the block runs. -/
theorem executes_nested_iff :
    Executes c (.trying l (.trying l' body clauses none) [] block) s k t ↔
      ∃ first r pending s', Attempts Executes c body s clauses first r ∧ Passes c l' first r pending s' ∧
        ∃ last t', Concludes Executes c pending s' block last t' ∧ Passes c l last t' k t := by
  rw [executes_trying_iff]
  simp only [Tries, attempts_nil, executes_trying_without_block]
  constructor
  · rintro ⟨pending, s', last, t', ⟨first, r, hattempts, hinner⟩, hconcludes, houter⟩
    exact ⟨first, r, pending, s', hattempts, hinner, last, t', hconcludes, houter⟩
  · rintro ⟨first, r, pending, s', hattempts, hinner, last, t', hconcludes, houter⟩
    exact ⟨pending, s', last, t', ⟨first, r, hattempts, hinner⟩, hconcludes, houter⟩

theorem execAll_singleton (e : Engine) (c : Context) (x : Stmt) : execAll e c [x] = e.exec c x := by
  funext s
  change Action.bind _ _ _ = _
  unfold Action.bind
  cases e.exec c x s with
  | done completion t => cases completion <;> rfl
  | _ => rfl

/-- A block with one statement does what the statement does in a scope of its own. -/
theorem executes_braces_iff {x : Stmt} :
    Executes c (.block l [x]) s k t ↔
      ∃ k' t', Executes (c.at (s.enter c.scope).1) x (s.enter c.scope).2 k' t' ∧ Passes c l k' t' k t := by
  have hlevel (level : Nat) : execStmt (interpreter level) c (.block l [x]) s = k.outcome t ↔
      ∃ k' t', (interpreter level).Ends (c.at (s.enter c.scope).1) x (s.enter c.scope).2 k' t' ∧
        (interpreter level).Passes c l k' t' k t := by
    unfold execStmt
    rw [within_eq_outcome]
    change (∃ k' t', execAll (interpreter level) (c.at (s.enter c.scope).1) [x] (s.enter c.scope).2 = _ ∧ _) ↔ _
    rw [execAll_singleton]
    rfl
  rw [executes_iff]
  simp only [hlevel]
  constructor
  · rintro ⟨level, k', t', h, hpasses⟩
    exact ⟨k', t', ⟨level, h⟩, level, hpasses⟩
  · rintro ⟨k', t', h, hpasses⟩
    obtain ⟨first, hfirst⟩ := h.settled
    obtain ⟨second, hsecond⟩ := hpasses.settled
    exact ⟨max first second, k', t', hfirst _ (Nat.le_max_left _ _), hsecond _ (Nat.le_max_right _ _)⟩

/-- The same with braces around the inner statement: body and clauses run in one more scope. -/
theorem executes_nested_braces_iff {l'' : Location} :
    Executes c (.trying l (.block l'' [.trying l' body clauses none]) [] block) s k t ↔
      ∃ first q second r pending s',
        Attempts Executes (c.at (s.enter c.scope).1) body (s.enter c.scope).2 clauses first q ∧
        Passes (c.at (s.enter c.scope).1) l' first q second r ∧ Passes c l'' second r pending s' ∧
        ∃ last t', Concludes Executes c pending s' block last t' ∧ Passes c l last t' k t := by
  rw [executes_trying_iff]
  simp only [Tries, attempts_nil, executes_braces_iff, executes_trying_without_block]
  constructor
  · rintro ⟨pending, s', last, t', ⟨second, r, ⟨first, q, hattempts, hinner⟩, hbraces⟩, hconcludes, houter⟩
    exact ⟨first, q, second, r, pending, s', hattempts, hinner, hbraces, last, t', hconcludes, houter⟩
  · rintro ⟨first, q, second, r, pending, s', hattempts, hinner, hbraces, last, t', hconcludes, houter⟩
    exact ⟨pending, s', last, t', ⟨second, r, ⟨first, q, hattempts, hinner⟩, hbraces⟩, hconcludes, houter⟩

end Nesting

/-- A try statement ends as its parts say, whatever executes them: the first clause runs if and only if the
body raises an error, the block at the end runs once after everything else, and what was pending stays as it
was unless the block ends abruptly or raises an error. What the statement ends with then gets out of it: a completion as
it is, and an error with the place of the statement, if it has none, unless a program has assigned the method of it that
is told places. So the block may as well be that of a try statement without clauses around the body and the clauses:
the same signals end both in the same stores, if what is pending is the same after the inner one. In braces, the inner
one has a scope of its own. -/
theorem try_statements_end_as_their_parts_say :
    (∀ (e : Engine) c l body clauses block s k t,
      execStmt e c (.trying l body clauses block) s = k.outcome t ↔ Tries e.Ends e.Passes c l body clauses block s k t) ∧
    (∀ c l body clauses block s k t,
      Executes c (.trying l body clauses block) s k t ↔ Tries Executes Passes c l body clauses block s k t) ∧
    (∀ c l (k : Signal) s k' t, k.Unhooked s → (Passes c l k s k' t ↔ k' = k ∧ t = k.located s l)) ∧
    (∀ c l l' body clauses block s k t,
      (∀ pending s', Attempts Executes c body s clauses pending s' → pending.Keeps s' l') →
      (Executes c (.trying l (.trying l' body clauses none) [] block) s k t ↔
        Executes c (.trying l body clauses block) s k t)) ∧
    (∀ c l l' body clauses block s k t,
      Executes c (.trying l (.trying l' body clauses none) [] block) s k t ↔
        ∃ first r pending s', Attempts Executes c body s clauses first r ∧ Passes c l' first r pending s' ∧
          ∃ last t', Concludes Executes c pending s' block last t' ∧ Passes c l last t' k t) ∧
    ∀ c l l' l'' body clauses block s k t,
      Executes c (.trying l (.block l'' [.trying l' body clauses none]) [] block) s k t ↔
        ∃ first q second r pending s',
          Attempts Executes (c.at (s.enter c.scope).1) body (s.enter c.scope).2 clauses first q ∧
          Passes (c.at (s.enter c.scope).1) l' first q second r ∧ Passes c l'' second r pending s' ∧
          ∃ last t', Concludes Executes c pending s' block last t' ∧ Passes c l last t' k t := by
  refine ⟨fun _ _ _ _ _ _ _ _ _ => execStmt_trying_iff, fun _ _ _ _ _ _ _ _ => executes_trying_iff,
    fun _ _ _ _ _ _ => passes_iff_of_unhooked, ?_, fun _ _ _ _ _ _ _ _ _ => executes_nested_iff,
    fun _ _ _ _ _ _ _ _ _ _ => executes_nested_braces_iff⟩
  intro c l l' body clauses block s k t hkeeps
  -- what is pending gets out of the inner statement as it is
  have hinner {first pending : Signal} {r s' : Store} (h : Attempts Executes c body s clauses first r) :
      Passes c l' first r pending s' ↔ pending = first ∧ s' = r := by
    rw [passes_iff_of_unhooked (hkeeps first r h).1, (hkeeps first r h).2]
  rw [executes_nested_iff, executes_trying_iff]
  constructor
  · rintro ⟨first, r, pending, s', hattempts, hpasses, last, t', hconcludes, houter⟩
    obtain ⟨rfl, rfl⟩ := (hinner hattempts).mp hpasses
    exact ⟨pending, s', last, t', hattempts, hconcludes, houter⟩
  · rintro ⟨pending, s', last, t', hattempts, hconcludes, houter⟩
    exact ⟨pending, s', pending, s', hattempts, (hinner hattempts).mpr ⟨rfl, rfl⟩, last, t', hconcludes, houter⟩

end

/-- In `try { rethrow; } catch (e) {} finally { return; }` the block at the end replaces what is pending. -/
theorem try_statements_end_as_their_parts_say_returning :
    let c : Context := ⟨rootScope, 0⟩
    let body : Stmt := .block (some ⟨1, 5⟩) [.rethrowing (some ⟨1, 7⟩)]
    let clauses : List CatchClause := [.mk (some ⟨1, 18⟩) (.block (some ⟨1, 28⟩) []) none (some "e") none]
    let last : Option Stmt := some (.block (some ⟨1, 39⟩) [.returning (some ⟨1, 41⟩) none])
    (Signal.completed .normal).Unhooked Store.initial ∧
    (∀ pending s', Attempts Executes c body Store.initial clauses pending s' → pending.Keeps s' (some ⟨1, 1⟩)) ∧
    Passes c none (.completed .normal) Store.initial (.completed .normal) Store.initial ∧
    ∃ t, Executes c (.trying (some ⟨1, 1⟩) body clauses last) Store.initial (.completed (.returning .null)) t ∧
      Executes c (.trying (some ⟨1, 1⟩) (.trying (some ⟨1, 1⟩) body clauses none) [] last) Store.initial
        (.completed (.returning .null)) t := by
  intro c body clauses last
  have hunhooked (s : Store) : (Signal.completed .normal).Unhooked s := nofun
  have hkeeps : ∀ pending s', Attempts Executes c body Store.initial clauses pending s' → pending.Keeps s' (some ⟨1, 1⟩) := by
    intro pending s' h
    have hattempts : Attempts Executes c body Store.initial clauses (.completed .normal)
        (handling (interpreter 4) c clauses ((interpreter 4).exec c body) Store.initial).store :=
      (attempts_iff.mp rfl).mono fun h => ⟨4, h⟩
    obtain ⟨rfl, rfl⟩ := h.unique hattempts
    exact ⟨hunhooked _, rfl⟩
  have hruns : ∃ t, Executes c (.trying (some ⟨1, 1⟩) body clauses last) Store.initial
      (.completed (.returning .null)) t :=
    ⟨((interpreter 4).exec c (.trying (some ⟨1, 1⟩) body clauses last) Store.initial).store, 4, rfl⟩
  refine ⟨hunhooked _, hkeeps, ?_, hruns.imp fun t h => ⟨h, ?_⟩⟩
  · exact (try_statements_end_as_their_parts_say.2.2.1 c none (.completed .normal) Store.initial _ _ (hunhooked _)).mpr
      ⟨rfl, rfl⟩
  · exact (try_statements_end_as_their_parts_say.2.2.2.1 c (some ⟨1, 1⟩) (some ⟨1, 1⟩) body clauses last Store.initial _ t
      hkeeps).mpr h

/-- The error that a statement raises, if it does not complete normally. -/
def Outcome.verdict? : Outcome Completion → Option (Option Address)
  | .done .normal _ => some none
  | .raised a _ => some (some a)
  | _ => none

theorem Outcome.eq_of_verdict {o : Outcome Completion} {a : Address} (h : o.verdict? = some (some a)) :
    o = (Signal.raised a).outcome o.store := by
  cases o with
  | done completion t => cases completion <;> cases h
  | raised b t =>
    cases h
    rfl
  | _ => cases h

theorem Outcome.eq_of_verdict_none {o : Outcome Completion} (h : o.verdict? = some none) :
    o = (Signal.completed .normal).outcome o.store := by
  cases o with
  | done completion t =>
    cases completion with
    | normal => rfl
    | _ => cases h
  | _ => cases h

/-- A block at the end that assigns the method of the pending error that is told places: the statement tells the error its
place, and raises what the assigned function throws. -/
theorem assigned_methods_replace_pending_errors :
    let c : Context := ⟨rootScope, 0⟩
    let s := Store.initial.declare rootScope "error" .null
    let keeping : Expr := .assignment none .plain (.identifier none "error") (.identifier none "e")
    let clauses : List CatchClause :=
      [.mk none (.block none [.expression none keeping, .rethrowing none]) none (some "e") none]
    let last : Stmt := .block none [.expression none (telling "error" (.throwing none (.stringLiteral none "x")))]
    ∃ pending s' t' k t, Attempts Executes c lookingUp s clauses pending s' ∧
      Concludes Executes c pending s' (some last) pending t' ∧
      Executes c (.trying none lookingUp clauses (some last)) s k t ∧ k ≠ pending := by
  intro c s keeping clauses last
  have hruns : (handling (interpreter 12) c clauses ((interpreter 12).exec c lookingUp) s).verdict? = some (some 0) ∧
      ((interpreter 12).exec c last
        (handling (interpreter 12) c clauses ((interpreter 12).exec c lookingUp) s).store).verdict? = some none ∧
      ((interpreter 12).exec c (.trying none lookingUp clauses (some last)) s).verdict? = some (some 1) := by
    decide +kernel
  obtain ⟨hbefore, hblock, hwhole⟩ := hruns
  exact ⟨.raised 0, _, _, .raised 1, _, (attempts_iff.mp (Outcome.eq_of_verdict hbefore)).mono fun h => ⟨12, h⟩,
    .passes ⟨12, Outcome.eq_of_verdict_none hblock⟩, ⟨12, Outcome.eq_of_verdict hwhole⟩, by simp⟩

end Dartlet
