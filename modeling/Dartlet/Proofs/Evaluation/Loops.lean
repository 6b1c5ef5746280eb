import Dartlet.Host.Standard
import Dartlet.Proofs.Evaluation.Attempts
import Dartlet.Proofs.Evaluation.Endings

/-!
# What loops do

A counting loop runs full rounds, each of which tests the condition, runs the body and evaluates the updaters, until
a round ends it. The rounds are told here by what happens in them, without regard to levels: a relation for what
follows the body, one for what follows the condition, and one for a round. The other loops are compared with each
other: a counting loop that only has a condition is a loop that tests first, and a loop that tests last is its body
followed by the loop that tests first.
-/

namespace Dartlet

open Dartlet.Action
open Dartlet.Syntax (Expr Location LoopStart Stmt)

set_option linter.unusedSectionVars false

section

variable [Host]

/-- How the evaluation of an expression ends, whatever number of levels that takes. -/
abbrev Evaluates (c : Context) (x : Expr) : Store → Outcome Value → Prop := EndsWith (fun e => e.eval c x)

/-- How the execution of a statement ends, whatever number of levels that takes. -/
abbrev Performs (c : Context) (x : Stmt) : Store → Outcome Completion → Prop := EndsWith (fun e => e.exec c x)

/-! ### The rounds of a counting loop -/

/-- Why a counting loop ends. -/
inductive LoopEnding where
  | conditionFalse
  | conditionError
  | breaking
  | returning (v : Value)
  | bodyError
  | updaterError

/-- What a round leads to: the next round, or the end of the loop with an outcome. -/
inductive RoundEnd where
  | next (store : Store)
  | last (ending : LoopEnding) (outcome : Outcome Completion)

/-- What a round leads to, in all: the next round may be followed by others. -/
def RoundEnd.LeadsTo (next : Store → Outcome Completion → Prop) (o : Outcome Completion) : RoundEnd → Prop
  | .next t => next t o
  | .last _ o' => o = o'

section Rounds

variable (c : Context) (condition : Option Expr) (updaters : List Expr) (body : Stmt)

/-- Whether the condition of a counting loop holds: there is none, its value is that truth value, or there is an
error because it has another value or none. -/
inductive Tests : Option Expr → Store → Outcome Bool → Prop where
  | absent {s} : Tests none s (.done true s)
  | bool {x s b t} (value : Evaluates c x s (.done (.bool b) t)) : Tests (some x) s (.done b t)
  | notBool {x s v t} (value : Evaluates c x s (.done v t)) (other : ∀ b, v ≠ .bool b) :
      Tests (some x) s (mismatch (.notBool "for condition" (v.typeName t)) t)
  | fails {x s f t} (value : Evaluates c x s (Failure.outcome t f)) : Tests (some x) s (f.outcome t)

/-- The evaluation of expressions in order, up to the first one that fails. -/
inductive EvaluatesAll : List Expr → Store → Outcome Unit → Prop where
  | nil {s} : EvaluatesAll [] s (.done () s)
  | cons {x xs s v t o} (first : Evaluates c x s (.done v t)) (rest : EvaluatesAll xs t o) : EvaluatesAll (x :: xs) s o
  | fails {x xs s f t} (first : Evaluates c x s (Failure.outcome t f)) : EvaluatesAll (x :: xs) s (f.outcome t)

/-- What a counting loop does before its first round. -/
inductive Begins : LoopStart → Store → Outcome Unit → Prop where
  | nothing {s} : Begins .nothing s (.done () s)
  | declarations {declared s k t} (run : Performs c declared s (.done k t)) : Begins (.declarations declared) s (.done () t)
  | declarationsFail {declared s f t} (run : Performs c declared s (Failure.outcome t f)) :
      Begins (.declarations declared) s (f.outcome t)
  | expressions {xs s o} (values : EvaluatesAll c xs s o) : Begins (.expressions xs) s o

/-- The end of a round after its body: all updaters are evaluated, or one of them fails. -/
inductive RoundAfterBody (s : Store) : RoundEnd → Prop where
  | next {t} (update : EvaluatesAll c updaters s (.done () t)) : RoundAfterBody s (.next t)
  | fails {f t} (update : EvaluatesAll c updaters s (Failure.outcome t f)) :
      RoundAfterBody s (.last .updaterError (f.outcome t))

/-- The end of a round after its condition: the body runs, and then the updaters, unless the body leaves the
loop. -/
inductive RoundAfterCondition (s : Store) : RoundEnd → Prop where
  | goesOn {k t r} (run : Performs c body s (.done k t)) (going : k = .normal ∨ k = .continuing)
      (rest : RoundAfterBody c updaters t r) : RoundAfterCondition s r
  | breaks {t} (run : Performs c body s (.done .breaking t)) : RoundAfterCondition s (.last .breaking (.done .normal t))
  | returns {v t} (run : Performs c body s (.done (.returning v) t)) :
      RoundAfterCondition s (.last (.returning v) (.done (.returning v) t))
  | fails {f t} (run : Performs c body s (Failure.outcome t f)) : RoundAfterCondition s (.last .bodyError (f.outcome t))

/-- A round: the body runs if the condition holds. -/
inductive Round (s : Store) : RoundEnd → Prop where
  | holds {t r} (test : Tests c condition s (.done true t)) (rest : RoundAfterCondition c updaters body t r) : Round s r
  | ends {t} (test : Tests c condition s (.done false t)) : Round s (.last .conditionFalse (.done .normal t))
  | fails {f t} (test : Tests c condition s (Failure.outcome t f)) : Round s (.last .conditionError (f.outcome t))

/-- So many full rounds, and then one that ends the loop. -/
inductive Rounds : Nat → Store → LoopEnding → Outcome Completion → Prop where
  | last {s ending o} (round : Round c condition updaters body s (.last ending o)) : Rounds 0 s ending o
  | next {n s t ending o} (round : Round c condition updaters body s (.next t)) (rest : Rounds n t ending o) :
      Rounds (n + 1) s ending o

end Rounds

/-! ### What the interpreter does -/

/-- The body of a loop, and what follows if it goes on. -/
def bodyThen (e : Engine) (c : Context) (body : Stmt) (next : Action Completion) : Action Completion := do
  let k ← e.exec c body
  match loopExit? k with
  | some done => pure done
  | none => next

/-- The condition of a loop, and what follows if it holds. -/
def testThen (e : Engine) (c : Context) (condition : Expr) (words : String) (next : Action Completion) :
    Action Completion := do
  let v ← e.eval c condition
  if ← requireBool v words then next else pure .normal

theorem whileRounds_succ (e : Engine) (c : Context) (condition : Expr) (body : Stmt) (rounds : Nat) :
    whileRounds e c condition body (rounds + 1) =
      testThen e c condition "while condition" (bodyThen e c body (whileRounds e c condition body rounds)) := rfl

theorem doRounds_succ (e : Engine) (c : Context) (body : Stmt) (condition : Expr) (rounds : Nat) :
    doRounds e c body condition (rounds + 1) =
      bodyThen e c body (testThen e c condition "do-while condition" (doRounds e c body condition rounds)) := rfl

/-- A counting loop that only has a condition. -/
theorem forRounds_succ (e : Engine) (c : Context) (condition : Expr) (body : Stmt) (rounds : Nat) :
    forRounds e c (some condition) [] body (rounds + 1) =
      testThen e c condition "for condition" (bodyThen e c body (forRounds e c (some condition) [] body rounds)) := by
  simp only [forRounds, forCondition, evalAll, pure_bind, bind_assoc]
  rfl

namespace Persistent

variable {c : Context}

theorem forCondition (condition : Option Expr) : Persistent (fun e => forCondition e c condition) := by
  cases condition with
  | none => exact .const _
  | some x => exact (Persistent.eval c x).bind fun _ => .const _

theorem evalAll (xs : List Expr) : Persistent (fun e => evalAll e c xs) := by
  induction xs with
  | nil => exact .const _
  | cons x xs ih => exact (Persistent.eval c x).bind fun _ => ih

theorem startLoop (start : LoopStart) : Persistent (fun e => startLoop e c start) := by
  cases start with
  | nothing => exact .const _
  | declarations declared => exact (Persistent.exec c declared).bind fun _ => .const _
  | expressions xs => exact evalAll xs

/-- What follows the body of a loop, if it goes on. -/
theorem loopExit {next : Engine → Action Completion} (hnext : Persistent next) (k : Completion) :
    Persistent (fun e => match loopExit? k with
      | some done => pure done
      | none => next e) := by
  cases k with
  | normal => exact hnext
  | continuing => exact hnext
  | breaking => exact .const _
  | returning v => exact .const _

theorem bodyThen {next : Engine → Action Completion} (hnext : Persistent next) (body : Stmt) :
    Persistent (fun e => bodyThen e c body (next e)) :=
  (Persistent.exec c body).bind fun k => .loopExit hnext k

theorem testThen {next : Engine → Action Completion} (hnext : Persistent next) (condition : Expr) (words : String) :
    Persistent (fun e => testThen e c condition words (next e)) :=
  (Persistent.eval c condition).bind fun _ => (Persistent.const _).bind fun _ => .ite hnext (.const _)

theorem forRounds (condition : Option Expr) (updaters : List Expr) (body : Stmt) (rounds : Nat) :
    Persistent (fun e => forRounds e c condition updaters body rounds) := by
  induction rounds with
  | zero => exact .const _
  | succ rounds ih =>
    exact (forCondition condition).bind fun b => .ite (bodyThen ((evalAll updaters).bind fun _ => ih) body) (.const _)

theorem whileRounds (condition : Expr) (body : Stmt) (rounds : Nat) :
    Persistent (fun e => whileRounds e c condition body rounds) := by
  induction rounds with
  | zero => exact .const _
  | succ rounds ih =>
    exact testThen (bodyThen ih body) condition _

theorem doRounds (body : Stmt) (condition : Expr) (rounds : Nat) :
    Persistent (fun e => doRounds e c body condition rounds) := by
  induction rounds with
  | zero => exact .const _
  | succ rounds ih =>
    exact bodyThen (testThen ih condition _) body

end Persistent

section Limits

variable {e : Engine} {c : Context} {s : Store} {rounds more : Nat}

/-- More rounds after a body change nothing if they change nothing later. -/
theorem bodyThen_persists {body : Stmt} {next next' : Action Completion} (h : ∀ t, (next t).Persists (next' t)) (s : Store) :
    (bodyThen e c body next s).Persists (bodyThen e c body next' s) := by
  refine Outcome.Persists.bind fun k t _ => ?_
  have h := h t
  cases k with
  | normal => exact h
  | continuing => exact h
  | breaking => exact .refl _
  | returning v => exact .refl _

theorem forRounds_persists {condition : Option Expr} {updaters : List Expr} {body : Stmt} (h : rounds ≤ more) (s : Store) :
    (forRounds e c condition updaters body rounds s).Persists (forRounds e c condition updaters body more s) := by
  induction rounds generalizing more s with
  | zero => exact .inl ⟨s, rfl⟩
  | succ rounds ih =>
    obtain ⟨more, rfl⟩ : ∃ n, more = n + 1 := ⟨more - 1, by omega⟩
    refine Outcome.Persists.bind fun b t _ => ?_
    cases b with
    | false => exact .refl _
    | true =>
      exact bodyThen_persists (fun t' => Outcome.Persists.bind fun _ t'' _ => ih (Nat.le_of_succ_le_succ h) t'') t

theorem whileRounds_persists {condition : Expr} {body : Stmt} (h : rounds ≤ more) (s : Store) :
    (whileRounds e c condition body rounds s).Persists (whileRounds e c condition body more s) := by
  induction rounds generalizing more s with
  | zero => exact .inl ⟨s, rfl⟩
  | succ rounds ih =>
    obtain ⟨more, rfl⟩ : ∃ n, more = n + 1 := ⟨more - 1, by omega⟩
    refine Outcome.Persists.bind fun v t _ => Outcome.Persists.bind fun b t' _ => ?_
    cases b with
    | false => exact .refl _
    | true => exact bodyThen_persists (ih (Nat.le_of_succ_le_succ h)) t'

theorem doRounds_persists {body : Stmt} {condition : Expr} (h : rounds ≤ more) (s : Store) :
    (doRounds e c body condition rounds s).Persists (doRounds e c body condition more s) := by
  induction rounds generalizing more s with
  | zero => exact .inl ⟨s, rfl⟩
  | succ rounds ih =>
    obtain ⟨more, rfl⟩ : ∃ n, more = n + 1 := ⟨more - 1, by omega⟩
    refine bodyThen_persists (fun t => Outcome.Persists.bind fun v t' _ => Outcome.Persists.bind fun b t'' _ => ?_) s
    cases b with
    | false => exact .refl _
    | true => exact ih (Nat.le_of_succ_le_succ h) t''

/-- What may run as many rounds as there are levels ends as it does with some number of rounds. -/
theorem endsWith_rounds_iff {α : Type} {loop : Engine → Nat → Action α} {o : Outcome α}
    (hlevels : ∀ rounds, Persistent (fun e => loop e rounds))
    (hrounds : ∀ {e rounds more}, rounds ≤ more → ∀ s, (loop e rounds s).Persists (loop e more s)) :
    EndsWith (fun e => loop e e.rounds) s o ↔ ∃ rounds, EndsWith (fun e => loop e rounds) s o := by
  constructor
  · rintro ⟨hended, level, hlevel⟩
    exact ⟨(interpreter level).rounds, hended, level, hlevel⟩
  · rintro ⟨rounds, hends⟩
    obtain ⟨level, hlevel⟩ := hends.settled (hlevels rounds)
    refine ⟨hends.1, max level rounds + 1, ?_⟩
    have hsame := hlevel (max level rounds + 1) (by omega)
    exact hsame ▸ (hsame ▸ hends.1 : Outcome.Ended _).persists (hrounds (Nat.le_max_right level rounds) s)

/-- A loop that ends the same way with more levels and more rounds, if it ends. -/
structure Repeating (loop : Engine → Nat → Action Completion) : Prop where
  levels : ∀ rounds, Persistent (fun e => loop e rounds)
  rounds : ∀ {e rounds more}, rounds ≤ more → ∀ s, (loop e rounds s).Persists (loop e more s)

theorem repeating_for (c : Context) (condition : Option Expr) (updaters : List Expr) (body : Stmt) :
    Repeating (fun e => forRounds e c condition updaters body) :=
  ⟨.forRounds condition updaters body, forRounds_persists⟩

theorem repeating_while (c : Context) (condition : Expr) (body : Stmt) :
    Repeating (fun e => whileRounds e c condition body) :=
  ⟨.whileRounds condition body, whileRounds_persists⟩

theorem repeating_do (c : Context) (body : Stmt) (condition : Expr) : Repeating (fun e => doRounds e c body condition) :=
  ⟨.doRounds body condition, doRounds_persists⟩

/-- A body before a loop. -/
theorem Repeating.bodyThen {loop : Engine → Nat → Action Completion} (h : Repeating loop) (body : Stmt) :
    Repeating (fun e rounds => bodyThen e c body (loop e rounds)) :=
  ⟨fun rounds => .bodyThen (h.levels rounds) body, fun hmore => bodyThen_persists (h.rounds hmore)⟩

/-- A loop that may run as many rounds as there are levels ends as it does with some number of rounds. -/
theorem Repeating.endsWith_iff {loop : Engine → Nat → Action Completion} {o : Outcome Completion} (h : Repeating loop) :
    EndsWith (fun e => loop e e.rounds) s o ↔ ∃ rounds, EndsWith (fun e => loop e rounds) s o :=
  endsWith_rounds_iff h.levels h.rounds

theorem Repeating.persistent {loop : Engine → Nat → Action Completion} (h : Repeating loop) :
    Persistent (fun e => loop e e.rounds) := by
  intro level more hmore s
  have hrounds : (interpreter level).rounds ≤ (interpreter more).rounds := by
    rcases level with _ | level
    · exact Nat.zero_le _
    · obtain ⟨more, rfl⟩ : ∃ n, more = n + 1 := ⟨more - 1, by omega⟩
      exact Nat.le_of_succ_le_succ hmore
  rcases h.levels _ level more hmore s with hexhausted | hsame
  · exact .inl hexhausted
  · exact hsame ▸ h.rounds hrounds s

/-- Loops end alike if each number of rounds of the one corresponds to some number of rounds of the other. -/
theorem Repeating.endsLike {κ : Type} {key : ErrorRecord → κ} {loop loop' : Engine → Nat → Action Completion}
    (h : Repeating loop) (h' : Repeating loop')
    (hlike : ∀ rounds, ∃ rounds', EndsLike key (fun e => loop e rounds) (fun e => loop' e rounds') s) :
    EndsLike key (fun e => loop e e.rounds) (fun e => loop' e e.rounds) s := by
  intro o ho
  obtain ⟨rounds, hends⟩ := h.endsWith_iff.mp ho
  obtain ⟨rounds', hlike⟩ := hlike rounds
  obtain ⟨o', ho', hsame⟩ := hlike o hends
  exact ⟨o', h'.endsWith_iff.mpr ⟨rounds', ho'⟩, hsame⟩

end Limits

section Runs

variable {c : Context} {s : Store} {condition : Option Expr} {updaters : List Expr} {body : Stmt}

theorem requireBool_of_ne {v : Value} (h : ∀ b, v ≠ .bool b) (words : String) (s : Store) :
    requireBool v words s = mismatch (.notBool words (v.typeName s)) s := by
  cases v with
  | bool b => exact absurd rfl (h b)
  | _ => rfl

theorem tests_iff {o : Outcome Bool} : EndsWith (fun e => forCondition e c condition) s o ↔ Tests c condition s o := by
  cases condition with
  | none =>
    rw [show (fun e => forCondition e c none) = fun _ => pure true from rfl, EndsWith.const_iff]
    constructor
    · rintro ⟨rfl, -⟩
      exact .absent
    · rintro ⟨⟩
      exact ⟨rfl, nofun⟩
  | some x =>
    refine (EndsWith.bind_iff (G := fun _ v => requireBool v "for condition") (.eval c x) fun _ => .const _).trans ?_
    simp only [EndsWith.const_iff]
    constructor
    · rintro (⟨v, t, hvalue, rfl, hended⟩ | ⟨f, t, hfails, rfl⟩)
      · by_cases hv : ∃ b, v = .bool b
        · obtain ⟨b, rfl⟩ := hv
          exact .bool hvalue
        · rw [requireBool_of_ne (not_exists.mp hv)]
          exact .notBool hvalue (not_exists.mp hv)
      · exact .fails hfails
    · rintro (_ | hvalue | ⟨hvalue, hother⟩ | hfails)
      · exact .inl ⟨_, _, hvalue, rfl, nofun⟩
      · exact .inl ⟨_, _, hvalue, requireBool_of_ne hother _ _, nofun⟩
      · exact .inr ⟨_, _, hfails, rfl⟩

theorem evaluatesAll_iff {xs : List Expr} {o : Outcome Unit} :
    EndsWith (fun e => evalAll e c xs) s o ↔ EvaluatesAll c xs s o := by
  induction xs generalizing s with
  | nil =>
    rw [show (fun e => evalAll e c []) = fun _ => pure () from rfl, EndsWith.const_iff]
    constructor
    · rintro ⟨rfl, -⟩
      exact .nil
    · rintro ⟨⟩
      exact ⟨rfl, nofun⟩
  | cons x xs ih =>
    refine (EndsWith.bind_iff (G := fun e _ => evalAll e c xs) (.eval c x) fun _ => .evalAll xs).trans ?_
    constructor
    · rintro (⟨v, t, hvalue, hrest⟩ | ⟨f, t, hfails, rfl⟩)
      · exact .cons hvalue (ih.mp hrest)
      · exact .fails hfails
    · rintro (_ | ⟨hvalue, hrest⟩ | hfails)
      · exact .inl ⟨_, _, hvalue, ih.mpr hrest⟩
      · exact .inr ⟨_, _, hfails, rfl⟩

theorem begins_iff {start : LoopStart} {o : Outcome Unit} :
    EndsWith (fun e => startLoop e c start) s o ↔ Begins c start s o := by
  cases start with
  | nothing =>
    rw [show (fun e => startLoop e c .nothing) = fun _ => pure () from rfl, EndsWith.const_iff]
    constructor
    · rintro ⟨rfl, -⟩
      exact .nothing
    · rintro ⟨⟩
      exact ⟨rfl, nofun⟩
  | declarations declared =>
    refine (EndsWith.bind_iff (G := fun _ _ => pure ()) (.exec c declared) fun _ => .const _).trans ?_
    simp only [EndsWith.const_iff]
    constructor
    · rintro (⟨k, t, hrun, rfl, -⟩ | ⟨f, t, hfails, rfl⟩)
      · exact .declarations hrun
      · exact .declarationsFail hfails
    · rintro (_ | hrun | hfails)
      · exact .inl ⟨_, _, hrun, rfl, nofun⟩
      · exact .inr ⟨_, _, hfails, rfl⟩
  | expressions xs =>
    refine evaluatesAll_iff.trans ⟨.expressions, ?_⟩
    rintro (_ | _ | _ | hvalues)
    exact hvalues

variable {next : Engine → Action Completion} {o : Outcome Completion}

theorem roundAfterBody_iff (hnext : Persistent next) :
    EndsWith (fun e => evalAll e c updaters >>= fun _ => next e) s o ↔
      ∃ r, RoundAfterBody c updaters s r ∧ r.LeadsTo (EndsWith next) o := by
  rw [EndsWith.bind_iff (.evalAll updaters) fun _ => hnext]
  simp only [evaluatesAll_iff]
  constructor
  · rintro (⟨_, t, hupdate, hrest⟩ | ⟨f, t, hfails, rfl⟩)
    · exact ⟨_, .next hupdate, hrest⟩
    · exact ⟨_, .fails hfails, rfl⟩
  · rintro ⟨_, hupdate | hfails, hleads⟩
    · exact .inl ⟨_, _, hupdate, hleads⟩
    · exact .inr ⟨_, _, hfails, hleads⟩

theorem roundAfterCondition_iff (hnext : Persistent next) :
    EndsWith (fun e => bodyThen e c body (evalAll e c updaters >>= fun _ => next e)) s o ↔
      ∃ r, RoundAfterCondition c updaters body s r ∧ r.LeadsTo (EndsWith next) o := by
  unfold bodyThen
  rw [EndsWith.bind_iff (.exec c body) (.loopExit ((Persistent.evalAll updaters).bind fun _ => hnext))]
  constructor
  · rintro (⟨k, t, hrun, hrest⟩ | ⟨f, t, hfails, rfl⟩)
    · cases k with
      | normal =>
        obtain ⟨r, hround, hleads⟩ := (roundAfterBody_iff hnext).mp hrest
        exact ⟨r, .goesOn hrun (.inl rfl) hround, hleads⟩
      | continuing =>
        obtain ⟨r, hround, hleads⟩ := (roundAfterBody_iff hnext).mp hrest
        exact ⟨r, .goesOn hrun (.inr rfl) hround, hleads⟩
      | breaking => exact ⟨_, .breaks hrun, (EndsWith.const_iff.mp hrest).1.symm⟩
      | returning v => exact ⟨_, .returns hrun, (EndsWith.const_iff.mp hrest).1.symm⟩
    · exact ⟨_, .fails hfails, rfl⟩
  · rintro ⟨_, ⟨hrun, hgoing, hround⟩ | hrun | hrun | hfails, hleads⟩
    · have hrest := (roundAfterBody_iff hnext).mpr ⟨_, hround, hleads⟩
      rcases hgoing with rfl | rfl <;> exact .inl ⟨_, _, hrun, hrest⟩
    · obtain rfl := hleads
      exact .inl ⟨_, _, hrun, EndsWith.const_iff.mpr ⟨rfl, nofun⟩⟩
    · obtain rfl := hleads
      exact .inl ⟨_, _, hrun, EndsWith.const_iff.mpr ⟨rfl, nofun⟩⟩
    · exact .inr ⟨_, _, hfails, hleads⟩

theorem round_iff {rounds : Nat} :
    EndsWith (fun e => forRounds e c condition updaters body (rounds + 1)) s o ↔
      ∃ r, Round c condition updaters body s r ∧
        r.LeadsTo (EndsWith (fun e => forRounds e c condition updaters body rounds)) o := by
  have hnext : Persistent (fun e => forRounds e c condition updaters body rounds) :=
    .forRounds condition updaters body rounds
  have hround (b : Bool) : Persistent (fun e => if b then
      bodyThen e c body (evalAll e c updaters >>= fun _ => forRounds e c condition updaters body rounds)
      else pure .normal) :=
    .ite (.bodyThen ((Persistent.evalAll updaters).bind fun _ => hnext) body) (.const _)
  refine (EndsWith.bind_iff (.forCondition condition) hround).trans ?_
  simp only [tests_iff]
  constructor
  · rintro (⟨b, t, htest, hrest⟩ | ⟨f, t, hfails, rfl⟩)
    · cases b with
      | false => exact ⟨_, .ends htest, (EndsWith.const_iff.mp hrest).1.symm⟩
      | true =>
        obtain ⟨r, hround, hleads⟩ := (roundAfterCondition_iff hnext).mp hrest
        exact ⟨r, .holds htest hround, hleads⟩
    · exact ⟨_, .fails hfails, rfl⟩
  · rintro ⟨_, ⟨htest, hround⟩ | htest | hfails, hleads⟩
    · exact .inl ⟨true, _, htest, (roundAfterCondition_iff hnext).mpr ⟨_, hround, hleads⟩⟩
    · obtain rfl := hleads
      exact .inl ⟨false, _, htest, EndsWith.const_iff.mpr ⟨rfl, nofun⟩⟩
    · exact .inr ⟨_, _, hfails, hleads⟩

/-- A run of a counting loop consists of full rounds and a last one. -/
theorem rounds_iff : EndsWith (fun e => forRounds e c condition updaters body e.rounds) s o ↔
    ∃ n ending, Rounds c condition updaters body n s ending o := by
  rw [(repeating_for c condition updaters body).endsWith_iff]
  constructor
  · rintro ⟨rounds, hends⟩
    induction rounds generalizing s with
    | zero => exact absurd (EndsWith.const_iff.mp hends).1.symm (hends.1 s)
    | succ rounds ih =>
      obtain ⟨r | ⟨ending, o'⟩, hround, hleads⟩ := round_iff.mp hends
      · obtain ⟨n, ending, hrest⟩ := ih hleads
        exact ⟨n + 1, ending, .next hround hrest⟩
      · obtain rfl := hleads
        exact ⟨0, ending, .last hround⟩
  · rintro ⟨n, ending, hrounds⟩
    induction hrounds with
    | last round => exact ⟨1, round_iff.mpr ⟨_, round, rfl⟩⟩
    | next round _ ih =>
      obtain ⟨rounds, hrest⟩ := ih
      exact ⟨rounds + 1, round_iff.mpr ⟨_, round, hrest⟩⟩

/-! ### There is one way through a loop -/

theorem Tests.unique {o o' : Outcome Bool} (h : Tests c condition s o) (h' : Tests c condition s o') : o = o' :=
  (tests_iff.mpr h).unique (.forCondition condition) (tests_iff.mpr h')

theorem EvaluatesAll.unique {xs : List Expr} {o o' : Outcome Unit} (h : EvaluatesAll c xs s o)
    (h' : EvaluatesAll c xs s o') : o = o' :=
  (evaluatesAll_iff.mpr h).unique (.evalAll xs) (evaluatesAll_iff.mpr h')

variable {r r' : RoundEnd}

theorem RoundAfterBody.unique (h : RoundAfterBody c updaters s r) (h' : RoundAfterBody c updaters s r') : r = r' := by
  cases h with
  | next update =>
    cases h' with
    | next update' =>
      cases update.unique update'
      rfl
    | @fails f _ update' => exact absurd (update'.unique update) f.outcome_ne_done
  | @fails f _ update =>
    cases h' with
    | next update' => exact absurd (update.unique update') f.outcome_ne_done
    | fails update' =>
      obtain ⟨rfl, rfl⟩ := Failure.outcome_inj (update.unique update')
      rfl

theorem RoundAfterCondition.unique (h : RoundAfterCondition c updaters body s r)
    (h' : RoundAfterCondition c updaters body s r') : r = r' := by
  have hsame {o o' : Outcome Completion} (run : Performs c body s o) (run' : Performs c body s o') : o = o' :=
    run.unique (.exec c body) run'
  cases h with
  | goesOn run going rest =>
    cases h' with
    | goesOn run' _ rest' =>
      obtain ⟨-, rfl⟩ := Outcome.done.inj (hsame run run')
      exact rest.unique rest'
    | breaks run' => rcases going with rfl | rfl <;> cases hsame run run'
    | returns run' => rcases going with rfl | rfl <;> cases hsame run run'
    | @fails f _ run' => exact absurd (hsame run' run) f.outcome_ne_done
  | breaks run =>
    cases h' with
    | goesOn run' going _ => rcases going with rfl | rfl <;> cases hsame run run'
    | breaks run' =>
      cases hsame run run'
      rfl
    | returns run' => cases hsame run run'
    | @fails f _ run' => exact absurd (hsame run' run) f.outcome_ne_done
  | returns run =>
    cases h' with
    | goesOn run' going _ => rcases going with rfl | rfl <;> cases hsame run run'
    | breaks run' => cases hsame run run'
    | returns run' =>
      cases hsame run run'
      rfl
    | @fails f _ run' => exact absurd (hsame run' run) f.outcome_ne_done
  | @fails f _ run =>
    cases h' with
    | goesOn run' _ _ => exact absurd (hsame run run') f.outcome_ne_done
    | breaks run' => exact absurd (hsame run run') f.outcome_ne_done
    | returns run' => exact absurd (hsame run run') f.outcome_ne_done
    | fails run' =>
      obtain ⟨rfl, rfl⟩ := Failure.outcome_inj (hsame run run')
      rfl

theorem Round.unique (h : Round c condition updaters body s r) (h' : Round c condition updaters body s r') : r = r' := by
  cases h with
  | holds test rest =>
    cases h' with
    | holds test' rest' =>
      obtain ⟨-, rfl⟩ := Outcome.done.inj (test.unique test')
      exact rest.unique rest'
    | ends test' => cases test.unique test'
    | @fails f _ test' => exact absurd (test'.unique test) f.outcome_ne_done
  | ends test =>
    cases h' with
    | holds test' _ => cases test.unique test'
    | ends test' =>
      cases test.unique test'
      rfl
    | @fails f _ test' => exact absurd (test'.unique test) f.outcome_ne_done
  | @fails f _ test =>
    cases h' with
    | holds test' _ => exact absurd (test.unique test') f.outcome_ne_done
    | ends test' => exact absurd (test.unique test') f.outcome_ne_done
    | fails test' =>
      obtain ⟨rfl, rfl⟩ := Failure.outcome_inj (test.unique test')
      rfl

theorem Rounds.unique {n n' : Nat} {ending ending' : LoopEnding} {o o' : Outcome Completion}
    (h : Rounds c condition updaters body n s ending o) (h' : Rounds c condition updaters body n' s ending' o') :
    n = n' ∧ ending = ending' := by
  induction h generalizing n' with
  | last round =>
    cases h' with
    | last round' =>
      cases round.unique round'
      exact ⟨rfl, rfl⟩
    | next round' _ => cases round.unique round'
  | next round _ ih =>
    cases h' with
    | last round' => cases round.unique round'
    | next round' rest' =>
      cases round.unique round'
      obtain ⟨rfl, rfl⟩ := ih rest'
      exact ⟨rfl, rfl⟩

end Runs

/-! ### One loop and another -/

/-- A fault without the words for what had to be a truth value. -/
def Fault.unworded : Fault → Fault
  | .mismatch (.notBool _ got) => .mismatch (.notBool "" got)
  | f => f

/-- What remains of the record of an error without the words for what had to be a truth value. -/
def ErrorRecord.unworded (r : ErrorRecord) : ErrorRecord := { r with fault := r.fault.unworded }

theorem ErrorRecord.unworded_placedAt (p : Syntax.Position) (r : ErrorRecord) :
    (r.placedAt p).unworded = r.unworded.placedAt p := by
  obtain ⟨fault, line, column, located, assigned⟩ := r
  cases located <;> rfl

theorem ErrorRecord.placedAt_congr_unworded (p : Syntax.Position) {r r' : ErrorRecord} (h : r.unworded = r'.unworded) :
    (r.placedAt p).unworded = (r'.placedAt p).unworded := by
  rw [unworded_placedAt, unworded_placedAt, h]

section Comparisons

variable {c : Context} {s : Store} {condition : Expr} {body : Stmt}

theorem requireBool_sameUpTo (v : Value) (words words' : String) (s : Store) :
    (requireBool v words s).SameUpTo ErrorRecord.unworded (requireBool v words' s) := by
  cases v with
  | bool b => exact .same _
  | _ => exact Outcome.SameUpTo.fail (by rfl) s

theorem EndsLike.bodyThen {next next' : Engine → Action Completion} (hnext : Persistent next) (hnext' : Persistent next')
    (h : ∀ t, EndsLike ErrorRecord.unworded next next' t) (body : Stmt) (s : Store) :
    EndsLike ErrorRecord.unworded (fun e => bodyThen e c body (next e)) (fun e => bodyThen e c body (next' e)) s := by
  refine .bind (.exec c body) (.exec c body) (.loopExit hnext) (.loopExit hnext') (.of_imp fun _ => id) fun k t _ => ?_
  cases k with
  | normal => exact h t
  | continuing => exact h t
  | breaking => exact .of_imp fun _ => id
  | returning v => exact .of_imp fun _ => id

/-- Conditions end alike, whatever is said of a value that is no truth value. -/
theorem EndsLike.testThen {next next' : Engine → Action Completion} (hnext : Persistent next) (hnext' : Persistent next')
    (h : ∀ t, EndsLike ErrorRecord.unworded next next' t) (condition : Expr) (words words' : String) (s : Store) :
    EndsLike ErrorRecord.unworded (fun e => testThen e c condition words (next e))
      (fun e => testThen e c condition words' (next' e)) s := by
  have hif {next : Engine → Action Completion} (hnext : Persistent next) (b : Bool) :
      Persistent (fun e => if b then next e else pure .normal) := .ite hnext (.const _)
  refine .bind (.eval c condition) (.eval c condition) (fun _ => (Persistent.const _).bind (hif hnext))
    (fun _ => (Persistent.const _).bind (hif hnext')) (.of_imp fun _ => id) fun v t _ => ?_
  refine .bind (.const _) (.const _) (hif hnext) (hif hnext') (.const (requireBool_sameUpTo v words words' t)) fun b t' _ => ?_
  cases b with
  | false => exact .of_imp fun _ => id
  | true => exact h t'

/-- So many rounds of a counting loop that only has a condition, and as many of a loop that tests first. -/
theorem sameEnds_for_while (rounds : Nat) (s : Store) :
    SameEnds ErrorRecord.unworded (fun e => forRounds e c (some condition) [] body rounds)
      (fun e => whileRounds e c condition body rounds) s := by
  induction rounds generalizing s with
  | zero => exact ⟨.exhaust, .exhaust⟩
  | succ rounds ih =>
    have hfor := Persistent.forRounds (c := c) (some condition) [] body rounds
    have hwhile := Persistent.whileRounds (c := c) condition body rounds
    simp only [forRounds_succ, whileRounds_succ]
    constructor
    · exact .testThen (.bodyThen hfor body) (.bodyThen hwhile body) (.bodyThen hfor hwhile (fun t => (ih t).forth) body) _ _ _ s
    · exact .testThen (.bodyThen hwhile body) (.bodyThen hfor body) (.bodyThen hwhile hfor (fun t => (ih t).back) body) _ _ _ s

/-- So many rounds of a loop that tests last are a body and then as many rounds of a loop that tests first, of which
the last one is not needed. -/
theorem doRounds_endsLike (rounds : Nat) (s : Store) :
    EndsLike ErrorRecord.unworded (fun e => doRounds e c body condition rounds)
      (fun e => bodyThen e c body (whileRounds e c condition body rounds)) s := by
  induction rounds generalizing s with
  | zero => exact .exhaust
  | succ rounds ih =>
    have hdo := Persistent.doRounds (c := c) body condition rounds
    have hwhile := (Persistent.whileRounds (c := c) condition body rounds).bodyThen (c := c) body
    simp only [doRounds_succ, whileRounds_succ]
    exact .bodyThen (.testThen hdo _ _) (.testThen hwhile _ _) (.testThen hdo hwhile ih _ _ _) body s

/-- A body and then so many rounds of a loop that tests first are one round more of a loop that tests last. -/
theorem endsLike_doRounds (rounds : Nat) (s : Store) :
    EndsLike ErrorRecord.unworded (fun e => bodyThen e c body (whileRounds e c condition body rounds))
      (fun e => doRounds e c body condition (rounds + 1)) s := by
  induction rounds generalizing s with
  | zero => exact .bodyThen (.const _) (.testThen (.const _) _ _) (fun _ => .exhaust) body s
  | succ rounds ih =>
    have hdo := Persistent.doRounds (c := c) body condition (rounds + 1)
    have hwhile := (Persistent.whileRounds (c := c) condition body rounds).bodyThen (c := c) body
    rw [show (fun e => doRounds e c body condition (rounds + 1 + 1)) = _ from
      funext fun e => doRounds_succ e c body condition (rounds + 1)]
    simp only [whileRounds_succ]
    exact .bodyThen (.testThen hwhile _ _) (.testThen hdo _ _) (.testThen hwhile hdo ih _ _ _) body s

/-! ### Loops as statements -/

/-- An error gets its place once, whether inside the rest of a loop or outside of the whole. -/
theorem endsWith_within_bodyThen_iff {next : Engine → Action Completion} (hnext : Persistent next) {l : Location}
    (hunhooked : RaisesUnhooked (fun e => bodyThen e c body (next e)) s) {o : Outcome Completion} :
    EndsWith (fun e => within (e.caller c.depth) l (bodyThen e c body (within (e.caller c.depth) l (next e)))) s o ↔
      EndsWith (fun e => within (e.caller c.depth) l (bodyThen e c body (next e))) s o := by
  have hpushed (e : Engine) : bodyThen e c body (within (e.caller c.depth) l (next e)) = (e.exec c body >>= fun k =>
      within (e.caller c.depth) l (match loopExit? k with
        | some done => pure done
        | none => next e)) := by
    unfold bodyThen
    refine congrArg _ (funext fun k => ?_)
    cases k <;> rfl
  simp only [hpushed]
  exact EndsWith.within_bind_within_iff (.exec c body) (.loopExit hnext) hunhooked

/-- A statement and another one after it, which runs as the rest of a loop would: after a body that completes
normally or goes on. -/
def followed (e : Engine) (c : Context) (body next : Stmt) : Action Completion := do
  match ← e.exec c body with
  | .normal | .continuing => e.exec c next
  | .breaking => pure .normal
  | .returning v => pure (.returning v)

theorem followed_eq (e : Engine) (c : Context) (body next : Stmt) :
    followed e c body next = bodyThen e c body (e.exec c next) := by
  unfold followed bodyThen
  refine congrArg _ (funext fun k => ?_)
  cases k <;> rfl

/-- A new scope comes first, and then what happens in it. -/
theorem endsWith_enterScope_iff {α : Type} {F : Engine → Address → Action α} {o : Outcome α}
    (hF : ∀ scope, Persistent (fun e => F e scope)) :
    EndsWith (fun e => enterScope c.scope >>= F e) s o ↔
      EndsWith (fun e => F e (s.enter c.scope).1) (s.enter c.scope).2 o :=
  EndsWith.bind_iff_of_done (.const _) hF (EndsWith.const_iff.mpr ⟨rfl, nofun⟩)

/-- A counting loop runs in one new scope: first what comes before the rounds, and then full rounds and a last
one, unless what comes before them fails. -/
theorem performs_forLoop_iff {l : Location} {start : LoopStart} {condition : Option Expr} {updaters : List Expr}
    {o : Outcome Completion} :
    Performs c (.forLoop l start condition updaters body) s o ↔
      (∃ f t, Begins (c.at (s.enter c.scope).1) start (s.enter c.scope).2 (Failure.outcome t f) ∧
        (f.outcome t).Leaves c.depth l o) ∨
      ∃ t n ending o', Begins (c.at (s.enter c.scope).1) start (s.enter c.scope).2 (.done () t) ∧
        Rounds (c.at (s.enter c.scope).1) condition updaters body n t ending o' ∧ o'.Leaves c.depth l o := by
  have hrounds (scope : Address) : Persistent (fun e => forRounds e (c.at scope) condition updaters body e.rounds) :=
    (repeating_for (c.at scope) condition updaters body).persistent
  have hloop (scope : Address) : Persistent (fun e => startLoop e (c.at scope) start >>= fun _ =>
      forRounds e (c.at scope) condition updaters body e.rounds) := (Persistent.startLoop start).bind fun _ => hrounds scope
  refine EndsWith.exec_iff.trans ?_
  change EndsWith (fun e => within (e.caller c.depth) l (execFor e c start condition updaters body)) s o ↔ _
  have hfor : Persistent (fun e => execFor e c start condition updaters body) := (Persistent.const _).bind hloop
  rw [EndsWith.within_iff hfor]
  unfold execFor
  simp only [endsWith_enterScope_iff hloop, EndsWith.bind_iff (Persistent.startLoop start) fun _ => hrounds _, begins_iff,
    rounds_iff]
  constructor
  · rintro ⟨o', ⟨_, t, hbegins, n, ending, hrounds⟩ | ⟨f, t, hfails, rfl⟩, hleaves⟩
    · exact .inr ⟨t, n, ending, o', hbegins, hrounds, hleaves⟩
    · exact .inl ⟨f, t, hfails, hleaves⟩
  · rintro (⟨f, t, hfails, hleaves⟩ | ⟨t, n, ending, o', hbegins, hrounds, hleaves⟩)
    · exact ⟨_, .inr ⟨f, t, hfails, rfl⟩, hleaves⟩
    · exact ⟨o', .inl ⟨(), t, hbegins, n, ending, hrounds⟩, hleaves⟩

/-- A counting loop that only has a condition is a loop that tests first, in a scope of its own. -/
theorem sameEnds_forLoop_whileLoop (l : Location) :
    SameEnds ErrorRecord.unworded (fun e => e.exec c (.forLoop l .nothing (some condition) [] body))
      (fun e => enterScope c.scope >>= fun scope => e.exec (c.at scope) (.whileLoop l condition body)) s := by
  have hfor (scope : Address) := repeating_for (c.at scope) (some condition) [] body
  have hwhile (scope : Address) := repeating_while (c.at scope) condition body
  refine (SameEnds.of_iff fun _ => EndsWith.exec_iff).trans ?_
  change SameEnds _ (fun e => enterScope c.scope >>= fun scope =>
    within (e.caller c.depth) l (forRounds e (c.at scope) (some condition) [] body e.rounds)) _ s
  refine SameEnds.bind (.const _) (.const _) (fun scope => (hfor scope).persistent.within c.depth l) (fun _ => .exec _ _)
    (.refl _ s) fun scope t _ => ?_
  refine SameEnds.trans ?_ (SameEnds.of_iff fun _ => EndsWith.exec_iff.symm)
  refine SameEnds.within_congr ErrorRecord.placedAt_congr_unworded (hfor scope).persistent (hwhile scope).persistent
    ⟨?_, ?_⟩ c.depth l
  · exact (hfor scope).endsLike (hwhile scope) fun rounds => ⟨rounds, (sameEnds_for_while rounds t).forth⟩
  · exact (hwhile scope).endsLike (hfor scope) fun rounds => ⟨rounds, (sameEnds_for_while rounds t).back⟩

/-- A loop that tests last is its body, followed by the loop that tests first, of which an error leaves one construct
more. -/
theorem sameEnds_doLoop_followed (l : Location)
    (hunhooked : RaisesUnhooked (fun e => execForm e c (.doLoop l body condition)) s) :
    SameEnds ErrorRecord.unworded (fun e => e.exec c (.doLoop l body condition))
      (fun e => within (e.caller c.depth) l (followed e c body (.whileLoop l condition body))) s := by
  have hdo := repeating_do c body condition
  have hwhile := repeating_while c condition body
  have hbody := hwhile.bodyThen (c := c) body
  have hrounds : SameEnds ErrorRecord.unworded (fun e => doRounds e c body condition e.rounds)
      (fun e => bodyThen e c body (whileRounds e c condition body e.rounds)) s :=
    ⟨hdo.endsLike hbody fun rounds => ⟨rounds, doRounds_endsLike rounds s⟩,
      hbody.endsLike hdo fun rounds => ⟨rounds + 1, endsLike_doRounds rounds s⟩⟩
  refine (SameEnds.of_iff fun _ => EndsWith.exec_iff).trans ?_
  change SameEnds _ (fun e => within (e.caller c.depth) l (doRounds e c body condition e.rounds)) _ s
  refine (hrounds.within_congr ErrorRecord.placedAt_congr_unworded hdo.persistent hbody.persistent c.depth l).trans ?_
  refine (SameEnds.of_iff fun _ =>
    (endsWith_within_bodyThen_iff hwhile.persistent (hrounds.unhooked hunhooked)).symm).trans ?_
  simp only [followed_eq]
  have hloop := Persistent.execStmt c (.whileLoop l condition body)
  refine SameEnds.within_congr ErrorRecord.placedAt_congr_unworded (hloop.bodyThen body) ((Persistent.exec c _).bodyThen body)
    ⟨?_, ?_⟩ c.depth l
  · exact .bodyThen hloop (.exec c _) (fun t => .of_imp fun _ => EndsWith.exec_iff.mpr) body s
  · exact .bodyThen (.exec c _) hloop (fun t => .of_imp fun _ => EndsWith.exec_iff.mp) body s

end Comparisons

theorem Begins.unique {c : Context} {start : LoopStart} {s : Store} {o o' : Outcome Unit} (h : Begins c start s o)
    (h' : Begins c start s o') : o = o' :=
  (begins_iff.mpr h).unique (.startLoop start) (begins_iff.mpr h')

/-- A counting loop ends with an outcome if and only if it opens one scope and begins in it once, runs a number of
full rounds and then one that ends it. There is one such number and one reason for the end: the condition is false or
the body breaks off, and the loop completes normally; the body returns, and so does the loop; or the condition, the
body or an updater has an error, which leaves the loop. If what comes before the rounds has an error, that one leaves
the loop, and nothing else runs. With nothing but a condition, it is the loop that tests first, in a scope of its own;
and the loop that tests last is its body followed by the loop that tests first, but for the words about a condition
that is no truth value, and unless it ends with an error in which a program has assigned the method that is told
places. -/
theorem loops_run_in_rounds :
    (∀ c l start condition updaters body s o, Performs c (.forLoop l start condition updaters body) s o ↔
      (∃ f t, Begins (c.at (s.enter c.scope).1) start (s.enter c.scope).2 (Failure.outcome t f) ∧
        (f.outcome t).Leaves c.depth l o) ∨
      ∃ t, Begins (c.at (s.enter c.scope).1) start (s.enter c.scope).2 (.done () t) ∧ ∃! p : Nat × LoopEnding, ∃ o',
        Rounds (c.at (s.enter c.scope).1) condition updaters body p.1 t p.2 o' ∧ o'.Leaves c.depth l o) ∧
    (∀ c l condition body s,
      SameEnds ErrorRecord.unworded (fun e => e.exec c (.forLoop l .nothing (some condition) [] body))
        (fun e => enterScope c.scope >>= fun scope => e.exec (c.at scope) (.whileLoop l condition body)) s) ∧
    ∀ c l condition body s, RaisesUnhooked (fun e => execForm e c (.doLoop l body condition)) s →
      SameEnds ErrorRecord.unworded (fun e => e.exec c (.doLoop l body condition))
        (fun e => within (e.caller c.depth) l (followed e c body (.whileLoop l condition body))) s := by
  refine ⟨fun c l start condition updaters body s o => ?_, fun _ l _ _ _ => sameEnds_forLoop_whileLoop l,
    fun _ l _ _ _ => sameEnds_doLoop_followed l⟩
  rw [performs_forLoop_iff]
  refine or_congr_right ⟨?_, ?_⟩
  · rintro ⟨t, n, ending, o', hbegins, hrounds, ho⟩
    refine ⟨t, hbegins, ⟨n, ending⟩, ⟨o', hrounds, ho⟩, ?_⟩
    rintro ⟨n', ending'⟩ ⟨o'', hrounds', -⟩
    obtain ⟨rfl, rfl⟩ := hrounds.unique hrounds'
    rfl
  · rintro ⟨t, hbegins, ⟨n, ending⟩, ⟨o', hrounds, ho⟩, -⟩
    exact ⟨t, n, ending, o', hbegins, hrounds, ho⟩

end

/-- A loop that tests last, with a condition that is false. -/
theorem loops_run_in_rounds_testing_last :
    let c : Context := ⟨rootScope, 0⟩
    let body : Stmt := .block none []
    let condition : Expr := .boolLiteral none false
    RaisesUnhooked (fun e => execForm e c (.doLoop none body condition)) Store.initial ∧
    ∃ t, EndsWith (fun e => e.exec c (.doLoop none body condition)) Store.initial (.done .normal t) ∧
      EndsWith (fun e => within (e.caller c.depth) none (followed e c body (.whileLoop none condition body))) Store.initial
        (.done .normal t) := by
  intro c body condition
  have hform : ∃ t, EndsWith (fun e => execForm e c (.doLoop none body condition)) Store.initial (.done .normal t) :=
    ⟨_, nofun, 4, rfl⟩
  have hunhooked : RaisesUnhooked (fun e => execForm e c (.doLoop none body condition)) Store.initial :=
    hform.elim fun _ => RaisesUnhooked.of_done (repeating_do c body condition).persistent
  have hloop : ∃ t, EndsWith (fun e => e.exec c (.doLoop none body condition)) Store.initial (.done .normal t) :=
    ⟨_, nofun, 4, rfl⟩
  exact ⟨hunhooked, hloop.imp fun t h => ⟨h, (loops_run_in_rounds.2.2 c none condition body Store.initial hunhooked).done h⟩⟩

/-- `for (foo; false; ) {}` ends with an error before its first round: it has not begun, so there are no rounds. -/
theorem loops_run_in_rounds_not_begun :
    let c : Context := ⟨rootScope, 0⟩
    let start : LoopStart := .expressions [.identifier none "foo"]
    let s := Store.initial.enter rootScope
    ∃ o, Performs c (.forLoop none start (some (.boolLiteral none false)) [] (.block none [])) Store.initial o ∧
      ¬∃ t n ending o', Begins (c.at s.1) start s.2 (.done () t) ∧
        Rounds (c.at s.1) (some (.boolLiteral none false)) [] (.block none []) n t ending o' ∧ o'.Leaves c.depth none o := by
  intro c start s
  have hfails : ∃ a t, EndsWith (fun e => e.eval (c.at s.1) (.identifier none "foo")) s.2 (.raised a t) ∧ t.hook? a = none :=
    ⟨_, _, ⟨nofun, 1, rfl⟩, rfl⟩
  obtain ⟨a, t, hfails, hunhooked⟩ := hfails
  have hbegins : Begins (c.at s.1) start s.2 (Failure.outcome t (.raised a)) := .expressions (.fails (f := .raised a) hfails)
  have hleaves : (Outcome.raised a t : Outcome Completion).Leaves c.depth none (.raised a t) :=
    (Outcome.leaves_iff_of_unhooked (Failure.ended_outcome (.raised a) t) (Outcome.unhooked_raised hunhooked)).mpr rfl
  refine ⟨_, performs_forLoop_iff.mpr (.inl ⟨_, t, hbegins, hleaves⟩), ?_⟩
  rintro ⟨t', -, -, -, hbegun, -, -⟩
  exact Failure.outcome_ne_done _ (hbegins.unique hbegun)

end Dartlet
