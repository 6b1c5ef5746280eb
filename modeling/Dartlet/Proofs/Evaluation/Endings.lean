import Dartlet.Proofs.Evaluation.Interpolations
import Dartlet.Proofs.Evaluation.MoreLevels
import Dartlet.Proofs.Evaluation.Places
import Dartlet.Proofs.Parallel.Calls

/-!
# How actions end

What an action of the interpreter ends with does not depend on the levels, once they suffice. So an ending is
taken here without regard to levels, and the ending of a sequence follows from the endings of its parts,
however deep each of them nests. Two endings are compared up to what is to be left out of account in the
record of the error with which both end: its place, say, or its wording.
-/

namespace Dartlet

open Dartlet.Action
open Dartlet.Syntax (Expr Location Stmt)

set_option linter.unusedSectionVars false

variable [Host]

variable {α β κ : Type}

/-! ### Endings without regard to levels -/

/-- How an action ends that has no result: with an error of the language, or with a failure outside of it. -/
inductive Failure where
  | raised (error : Address)
  | escaped (failure : HostFailure)

/-- The outcome that leaves a store with a failure. -/
def Failure.outcome (t : Store) : Failure → Outcome α
  | .raised a => .raised a t
  | .escaped f => .escaped f t

/-- Whether an outcome is an ending: the levels have sufficed for it. -/
def Outcome.Ended (o : Outcome α) : Prop := ∀ t, o ≠ .exhausted t

theorem Outcome.ended_done (a : α) (t : Store) : (Outcome.done a t).Ended := nofun

theorem Failure.ended_outcome (f : Failure) (t : Store) : (f.outcome t : Outcome α).Ended := by cases f <;> nofun

theorem Failure.outcome_ne_done (f : Failure) {a : α} {t t' : Store} : (f.outcome t : Outcome α) ≠ .done a t' := by
  cases f <;> nofun

theorem Failure.outcome_inj {f f' : Failure} {t t' : Store} (h : (f.outcome t : Outcome α) = f'.outcome t') :
    f = f' ∧ t = t' := by
  cases f <;> cases f' <;> cases h <;> exact ⟨rfl, rfl⟩

theorem Outcome.Ended.persists {o o' : Outcome α} (h : o.Ended) (hsame : o.Persists o') : o' = o := by
  rcases hsame with ⟨t, rfl⟩ | hsame
  · exact (h t rfl).elim
  · exact hsame

theorem Failure.bind_outcome {f : Failure} {x : Action α} {g : α → Action β} {s t : Store} (h : x s = f.outcome t) :
    (x >>= g) s = f.outcome t := by
  change Action.bind x g s = _
  cases f <;> simp only [Action.bind, h, Failure.outcome]

/-- The outcome in which an error that was raised has got a place, unless it had one before. -/
def Outcome.locate (l : Location) : Outcome α → Outcome α
  | .raised a t => .raised a (t.locate a l)
  | o => o

/-- An error that has a place keeps it. -/
theorem Store.locate_locate (s : Store) (a : Address) (p : Syntax.Position) (l : Location) :
    (s.locate a (some p)).locate a l = s.locate a (some p) := by
  cases l with
  | none => rfl
  | some q =>
    have herrors : ((s.locate a (some p)).locate a (some q)).errors = (s.locate a (some p)).errors := by
      refine Array.ext_getElem? fun b => ?_
      simp only [Store.locate, Store.modifyError, Array.getElem?_modify]
      by_cases hab : a = b
      · simp only [if_pos hab, Option.map_map]
        refine Option.map_congr fun e _ => ?_
        by_cases hlocated : e.located = true <;> simp [hlocated]
      · simp only [if_neg hab]
    exact congrArg (fun errors => { s with errors := errors }) herrors

theorem Outcome.locate_locate (o : Outcome α) (l : Location) : (o.locate l).locate l = o.locate l := by
  cases o with
  | raised a t =>
    cases l with
    | none => rfl
    | some p => exact congrArg (Outcome.raised a) (t.locate_locate a p (some p))
  | _ => rfl

/-- Whether the error with which an outcome ends, if it does, has the method of its own that is told places. -/
def Outcome.Unhooked (o : Outcome α) : Prop := ∀ a t, o = .raised a t → t.hook? a = none

theorem Outcome.unhooked_raised {a : Address} {t : Store} (h : t.hook? a = none) : (Outcome.raised a t : Outcome α).Unhooked := by
  rintro _ _ ⟨⟩
  exact h

theorem Outcome.unhooked_of_ne_raised {o : Outcome α} (h : ∀ a t, o ≠ .raised a t) : o.Unhooked :=
  fun a t ho => absurd ho (h a t)

@[simp] theorem ErrorRecord.hook?_placedAt (p : Syntax.Position) (r : ErrorRecord) : (r.placedAt p).hook? = r.hook? := by
  unfold placedAt hook?
  split <;> rfl

theorem Store.hook?_locate (s : Store) (a b : Address) (l : Location) : (s.locate a l).hook? b = s.hook? b := by
  cases l with
  | none => rfl
  | some p =>
    change ((s.errors.modify a (ErrorRecord.placedAt · p))[b]?).bind ErrorRecord.hook? = _
    rw [Array.getElem?_modify, Store.hook?]
    split
    · cases s.errors[b]? with
      | none => rfl
      | some r => exact r.hook?_placedAt p
    · rfl

theorem Outcome.Unhooked.locate {o : Outcome α} (h : o.Unhooked) {l : Location} : (o.locate l).Unhooked := by
  cases o with
  | raised a t => exact Outcome.unhooked_raised ((t.hook?_locate a a l).trans (h a t rfl))
  | _ => exact h

theorem within_of_unhooked {c : Caller} {l : Location} {x : Action α} {s : Store} (h : (x s).Unhooked) :
    within c l x s = (x s).locate l := by
  unfold within
  cases hx : x s with
  | raised a t => exact raiseFrom_of_unhooked (h a t hx)
  | _ => rfl

theorem Failure.unhooked_outcome {f : Failure} {t : Store} (h : (f.outcome t : Outcome α).Unhooked) :
    (f.outcome t : Outcome β).Unhooked := by
  cases f with
  | raised a => exact Outcome.unhooked_raised (h a t rfl)
  | escaped => exact Outcome.unhooked_of_ne_raised nofun

/-- An error that is raised anew has the method of its own. -/
theorem fail_unhooked (f : Fault) (s : Store) : (fail f s : Outcome α).Unhooked := by
  refine Outcome.unhooked_raised (a := s.errors.size) (t := (s.addError f).2) ?_
  simp [Store.hook?, Store.addError, ErrorRecord.hook?, tableFind?]

theorem evalIdentifier_unhooked (c : Context) (x : String) (s : Store) : (evalIdentifier c x s).Unhooked := by
  unfold evalIdentifier
  cases s.lookup? c.scope x with
  | some v => exact Outcome.unhooked_of_ne_raised nofun
  | none =>
    cases tableFind? s.globals x with
    | some v => exact Outcome.unhooked_of_ne_raised nofun
    | none => exact fail_unhooked _ s

theorem Outcome.Ended.locate_iff {o : Outcome α} {l : Location} : (o.locate l).Ended ↔ o.Ended := by
  cases o <;> simp [Ended, Outcome.locate]

/-- An action by an engine which ends the same way with more levels, if it ends. -/
def Persistent (F : Engine → Action α) : Prop :=
  ∀ level more, level ≤ more → ∀ s, (F (interpreter level) s).Persists (F (interpreter more) s)

/-- How an action ends, whatever number of levels that takes. -/
def EndsWith (F : Engine → Action α) (s : Store) (o : Outcome α) : Prop := o.Ended ∧ ∃ level, F (interpreter level) s = o

namespace Persistent

theorem const (x : Action α) : Persistent (fun _ => x) := fun _ _ _ s => .refl (x s)

theorem bind {F : Engine → Action α} {G : Engine → α → Action β} (hF : Persistent F)
    (hG : ∀ a, Persistent (fun e => G e a)) : Persistent (fun e => F e >>= G e) := by
  intro level more h s
  rcases hF level more h s with ⟨t, hexhausted⟩ | hsame
  · refine .inl ⟨t, ?_⟩
    change Action.bind _ _ _ = _
    rw [Action.bind, hexhausted]
  · change (Action.bind _ _ s).Persists (Action.bind _ _ s)
    rw [Action.bind, Action.bind, hsame]
    cases F (interpreter level) s with
    | done a t => exact hG a level more h t
    | _ => exact .refl _

theorem call (depth : Nat) (function : Value) (arguments : List Value) :
    Persistent (fun e => e.call depth function arguments) :=
  fun _ _ h s => (more_levels_change_nothing h ⟨0, depth⟩ s).2.2 function arguments

theorem callData (depth : Nat) (function : HostValue) (arguments : List HostValue) :
    Persistent (fun e => HostFunction.callData (e.caller depth) function arguments) := by
  cases function with
  | callback f => exact (const _).bind fun values => (call depth f values).bind fun _ => const _
  | _ => exact const _

theorem raiseFrom (depth : Nat) (l : Location) (a : Address) :
    Persistent (fun e => (raiseFrom (e.caller depth) l a : Action α)) := by
  refine bind (F := fun e => attach (e.caller depth) a l) (fun level more h s => ?_) fun _ => const _
  simp only [attach]
  cases s.hook? a with
  | none => exact .refl _
  | some f => exact bind (callData depth f (placeData l)) (fun _ => const (pure ())) level more h s

theorem within {F : Engine → Action α} (hF : Persistent F) (depth : Nat) (l : Location) :
    Persistent (fun e => within (e.caller depth) l (F e)) := by
  intro level more h s
  rcases hF level more h s with ⟨t, hexhausted⟩ | hsame
  · refine .inl ⟨t, ?_⟩
    simp only [Action.within, hexhausted]
  · simp only [Action.within, hsame]
    cases F (interpreter level) s with
    | raised a t => exact raiseFrom depth l a level more h t
    | _ => exact .refl _

theorem ite {p : Prop} [Decidable p] {F G : Engine → Action α} (hF : Persistent F) (hG : Persistent G) :
    Persistent (fun e => if p then F e else G e) := by
  split
  · exact hF
  · exact hG

theorem eval (c : Context) (x : Expr) : Persistent (fun e => e.eval c x) :=
  fun _ _ h s => (more_levels_change_nothing h c s).1 x

theorem exec (c : Context) (x : Stmt) : Persistent (fun e => e.exec c x) :=
  fun _ _ h s => (more_levels_change_nothing h c s).2.1 x

theorem evalExpr (c : Context) (x : Expr) : Persistent (fun e => evalExpr e c x) :=
  fun level more h => eval c x (level + 1) (more + 1) (Nat.succ_le_succ h)

theorem execStmt (c : Context) (x : Stmt) : Persistent (fun e => execStmt e c x) :=
  fun level more h => exec c x (level + 1) (more + 1) (Nat.succ_le_succ h)

theorem evalForm (c : Context) (x : Expr) : Persistent (fun e => evalForm e c x) := by
  intro level more h s
  have hmatches := Comparison.alike_evalForm (c := c) (x := x) (Comparison.agrees_generous h) trivial trivial
    (Comparison.parallel_generous s)
  rw [Comparison.move_of_stay rfl c] at hmatches
  exact hmatches.persists (fun _ _ v _ hv => hv.same.trans v.shift_stay)

theorem invokeMember (depth : Nat) (receiver : Value) (name : String) (arguments : List Value) :
    Persistent (fun e => invokeMember e depth receiver name arguments) := by
  intro level more h s
  have hknown (v : Value) : v.Known (Comparison.generous.Known s) := Comparison.generous_known s v
  have hgiven : ∀ v ∈ arguments, v.Known (Comparison.generous.Known s) := fun v _ => hknown v
  have halike := Comparison.alike_invokeMember (t := s) (Comparison.agrees_generous h) depth (hknown receiver) name hgiven
  have hreceiver : receiver.shift Comparison.generous.shifts = receiver := receiver.shift_stay
  have harguments : arguments = arguments.map (Value.shift Comparison.generous.shifts) :=
    eq_map_of_forall (fun v _ => v.shift_stay)
  rw [hreceiver, ← harguments] at halike
  exact (halike (Comparison.parallel_generous s)).persists (fun _ _ v _ hv => hv.same.trans v.shift_stay)

end Persistent

namespace EndsWith

variable {F : Engine → Action α} {G : Engine → α → Action β} {s t : Store}

/-- What has ended stays as it is with more levels. -/
theorem settled {o : Outcome α} (hF : Persistent F) (h : EndsWith F s o) :
    ∃ level, ∀ more, level ≤ more → F (interpreter more) s = o := by
  obtain ⟨hended, level, rfl⟩ := h
  exact ⟨level, fun more hmore => hended.persists (hF level more hmore s)⟩

/-- An action ends in at most one way. -/
theorem unique {o o' : Outcome α} (hF : Persistent F) (h : EndsWith F s o) (h' : EndsWith F s o') : o = o' := by
  obtain ⟨level, hlevel⟩ := h.settled hF
  obtain ⟨level', hlevel'⟩ := h'.settled hF
  exact (hlevel _ (Nat.le_max_left level level')).symm.trans (hlevel' _ (Nat.le_max_right level level'))

/-- A sequence ends as its second part does after the first one, or else as the first part fails. -/
theorem bind_iff {o : Outcome β} (hF : Persistent F) (hG : ∀ a, Persistent (fun e => G e a)) :
    EndsWith (fun e => F e >>= G e) s o ↔
      (∃ a t, EndsWith F s (.done a t) ∧ EndsWith (fun e => G e a) t o) ∨
        ∃ f t, EndsWith F s (Failure.outcome t f) ∧ o = f.outcome t := by
  constructor
  · rintro ⟨hended, level, hlevel⟩
    change Action.bind _ _ s = o at hlevel
    rw [Action.bind] at hlevel
    cases hfirst : F (interpreter level) s with
    | done a t =>
      rw [hfirst] at hlevel
      exact .inl ⟨a, t, ⟨Outcome.ended_done a t, level, hfirst⟩, hended, level, hlevel⟩
    | raised a t =>
      rw [hfirst] at hlevel
      exact .inr ⟨.raised a, t, ⟨Failure.ended_outcome (.raised a) t, level, hfirst⟩, hlevel.symm⟩
    | escaped f t =>
      rw [hfirst] at hlevel
      exact .inr ⟨.escaped f, t, ⟨Failure.ended_outcome (.escaped f) t, level, hfirst⟩, hlevel.symm⟩
    | exhausted t =>
      rw [hfirst] at hlevel
      exact (hended t hlevel.symm).elim
  · rintro (⟨a, t, hfirst, hsecond⟩ | ⟨f, t, hfails, rfl⟩)
    · obtain ⟨level, hlevel⟩ := hfirst.settled hF
      obtain ⟨level', hlevel'⟩ := hsecond.settled (hG a)
      refine ⟨hsecond.1, max level level', ?_⟩
      change Action.bind _ _ s = o
      rw [Action.bind, hlevel _ (Nat.le_max_left _ _)]
      exact hlevel' _ (Nat.le_max_right _ _)
    · obtain ⟨-, level, hlevel⟩ := hfails
      exact ⟨f.ended_outcome t, level, f.bind_outcome hlevel⟩

/-- After a part that is known to end with a result, a sequence ends as the rest of it does. -/
theorem bind_iff_of_done {o : Outcome β} {a : α} (hF : Persistent F) (hG : ∀ a, Persistent (fun e => G e a))
    (h : EndsWith F s (.done a t)) : EndsWith (fun e => F e >>= G e) s o ↔ EndsWith (fun e => G e a) t o := by
  rw [bind_iff hF hG]
  constructor
  · rintro (⟨a', t', hfirst, hsecond⟩ | ⟨f, t', hfails, -⟩)
    · obtain ⟨rfl, rfl⟩ := Outcome.done.inj (h.unique hF hfirst)
      exact hsecond
    · exact absurd (hfails.unique hF h) f.outcome_ne_done
  · exact fun hsecond => .inl ⟨a, t, h, hsecond⟩

theorem bind_done {b : β} (hF : Persistent F) (hG : ∀ a, Persistent (fun e => G e a))
    (h : EndsWith (fun e => F e >>= G e) s (.done b t)) :
    ∃ a t', EndsWith F s (.done a t') ∧ EndsWith (fun e => G e a) t' (.done b t) := by
  rcases (bind_iff hF hG).mp h with hthen | ⟨f, t', -, hfails⟩
  · exact hthen
  · exact absurd hfails.symm f.outcome_ne_done

theorem const_iff {x : Action α} {o : Outcome α} : EndsWith (fun _ => x) s o ↔ x s = o ∧ o.Ended :=
  ⟨fun ⟨hended, _, hlevel⟩ => ⟨hlevel, hended⟩, fun ⟨hx, hended⟩ => ⟨hended, 0, hx⟩⟩

/-- What gives up without levels, and with levels hands its work to one with one level less, ends as that one does. -/
theorem level_iff {G : Engine → Action α} {o : Outcome α} (hzero : F (interpreter 0) s = .exhausted s)
    (hsucc : ∀ level, F (interpreter (level + 1)) = G (interpreter level)) : EndsWith F s o ↔ EndsWith G s o := by
  constructor
  · rintro ⟨hended, _ | level, hlevel⟩
    · exact (hended s (hlevel.symm.trans hzero)).elim
    · exact ⟨hended, level, hsucc level ▸ hlevel⟩
  · rintro ⟨hended, level, hlevel⟩
    exact ⟨hended, level + 1, hsucc level ▸ hlevel⟩

theorem eval_iff {c : Context} {x : Expr} {o : Outcome Value} :
    EndsWith (fun e => e.eval c x) s o ↔ EndsWith (fun e => evalExpr e c x) s o :=
  level_iff rfl fun _ => rfl

theorem exec_iff {c : Context} {x : Stmt} {o : Outcome Completion} :
    EndsWith (fun e => e.exec c x) s o ↔ EndsWith (fun e => execStmt e c x) s o :=
  level_iff rfl fun _ => rfl

end EndsWith

/-! ### Leaving a construct -/

/-- How an outcome leaves a construct at a place while some number of calls is under way: an error is told the place
first, and what a program has put in the place of the method that is told it may do anything. -/
inductive Outcome.Leaves (depth : Nat) (l : Location) : Outcome α → Outcome α → Prop where
  | done (a t) : Leaves depth l (.done a t) (.done a t)
  | escaped (f t) : Leaves depth l (.escaped f t) (.escaped f t)
  | raised {a t o} (told : EndsWith (fun e => raiseFrom (e.caller depth) l a) t o) : Leaves depth l (.raised a t) o

/-- No construct makes a result of an error. -/
theorem raiseFrom_ne_done {c : Caller} {l : Location} {a : Address} {s t : Store} {v : α} :
    (raiseFrom c l a : Action α) s ≠ .done v t := by
  change Action.bind (attach c a l) _ s ≠ _
  unfold Action.bind
  cases attach c a l s <;> exact nofun

theorem raiseFrom_bind {c : Caller} {l : Location} {a : Address} (f : α → Action β) :
    (raiseFrom c l a >>= f : Action β) = raiseFrom c l a := by
  simp only [raiseFrom, bind_assoc]
  rfl

theorem within_pure {c : Caller} {l : Location} (a : α) : within c l (pure a) = pure a := rfl

/-- An error gets out of a construct once, whichever part of a sequence has it. -/
theorem within_bind {c : Caller} {l : Location} (x : Action α) (f : α → Action β) :
    within c l (x >>= f) = within c l x >>= fun a => within c l (f a) := by
  funext s
  change within c l (Action.bind x f) s = Action.bind (within c l x) (fun a => within c l (f a)) s
  have hraised (a : Address) (t : Store) :
      (raiseFrom c l a : Action β) t = Action.bind (raiseFrom c l a) (fun a => within c l (f a)) t :=
    congrFun (raiseFrom_bind (fun a => within c l (f a))).symm t
  unfold within Action.bind at *
  cases hx : x s with
  | raised a t => simpa only [hx] using hraised a t
  | _ => simp only [hx]

theorem within_eq_done_iff {c : Caller} {l : Location} {x : Action α} {s t : Store} {a : α} :
    within c l x s = .done a t ↔ x s = .done a t := by
  unfold within
  cases x s with
  | raised b u => exact ⟨fun h => absurd h raiseFrom_ne_done, nofun⟩
  | _ => exact Iff.rfl

namespace Outcome

variable {depth : Nat} {l : Location} {o o' o'' : Outcome α}

theorem Leaves.ended (h : o.Leaves depth l o') : o'.Ended := by
  cases h with
  | done | escaped => nofun
  | raised told => exact told.1

theorem Leaves.unique (h : o.Leaves depth l o') (h' : o.Leaves depth l o'') : o' = o'' := by
  cases h with
  | done | escaped => cases h'; rfl
  | raised told =>
    cases h' with
    | raised told' => exact told.unique (.raiseFrom depth l _) told'

/-- What fails leaves a construct with a failure. -/
theorem Leaves.fails {f : Failure} {t : Store} (h : (f.outcome t).Leaves depth l o) : ∃ f' t', o = Failure.outcome t' f' := by
  cases f with
  | escaped f =>
    cases h
    exact ⟨.escaped f, t, rfl⟩
  | raised a =>
    cases h with
    | raised told =>
      cases o with
      | done v u => exact absurd told.2.choose_spec raiseFrom_ne_done
      | raised b u => exact ⟨.raised b, u, rfl⟩
      | escaped f u => exact ⟨.escaped f, u, rfl⟩
      | exhausted u => exact absurd rfl (told.1 u)

@[simp] theorem leaves_done_iff {a : α} {t : Store} : o.Leaves depth l (.done a t) ↔ o = .done a t := by
  constructor
  · rintro (_ | _ | told)
    · rfl
    · obtain ⟨-, level, htold⟩ := told
      exact absurd htold raiseFrom_ne_done
  · rintro rfl
    exact .done a t

/-- What has the method of its own is told the place, and nothing else happens. -/
theorem leaves_iff_of_unhooked (hended : o.Ended) (h : o.Unhooked) : o.Leaves depth l o' ↔ o' = o.locate l := by
  cases o with
  | exhausted t => exact absurd rfl (hended t)
  | raised a t =>
    constructor
    · rintro (_ | _ | ⟨-, level, hlevel⟩)
      exact hlevel.symm.trans (raiseFrom_of_unhooked (h a t rfl))
    · rintro rfl
      exact .raised ⟨nofun, 0, raiseFrom_of_unhooked (h a t rfl)⟩
  | _ =>
    constructor
    · rintro ⟨⟩
      rfl
    · rintro rfl
      constructor

theorem leaves_of_done_iff {a : α} {t : Store} : (Outcome.done a t).Leaves depth l o' ↔ o' = .done a t :=
  leaves_iff_of_unhooked (ended_done a t) (unhooked_of_ne_raised nofun)

theorem leaves_fail_iff {f : Fault} {t : Store} : (fail f t).Leaves depth l o' ↔ o' = (fail f t).locate l :=
  leaves_iff_of_unhooked nofun (fail_unhooked f t)

end Outcome

/-- A construct ends with what leaves it of the outcome inside. -/
theorem EndsWith.within_iff {F : Engine → Action α} {s : Store} (hF : Persistent F) {depth : Nat} {l : Location}
    {o : Outcome α} :
    EndsWith (fun e => within (e.caller depth) l (F e)) s o ↔ ∃ o', EndsWith F s o' ∧ o'.Leaves depth l o := by
  constructor
  · rintro ⟨hended, level, hlevel⟩
    simp only [within] at hlevel
    cases hinside : F (interpreter level) s with
    | done a t =>
      rw [hinside] at hlevel
      exact ⟨_, ⟨Outcome.ended_done a t, level, hinside⟩, hlevel ▸ .done a t⟩
    | raised a t =>
      rw [hinside] at hlevel
      exact ⟨_, ⟨Failure.ended_outcome (.raised a) t, level, hinside⟩, .raised ⟨hended, level, hlevel⟩⟩
    | escaped f t =>
      rw [hinside] at hlevel
      exact ⟨_, ⟨Failure.ended_outcome (.escaped f) t, level, hinside⟩, hlevel ▸ .escaped f t⟩
    | exhausted t =>
      rw [hinside] at hlevel
      exact absurd hlevel.symm (hended t)
  · rintro ⟨o', hinside, hleaves⟩
    obtain ⟨level, hlevel⟩ := hinside.settled hF
    cases hleaves with
    | done a t => exact ⟨nofun, level, by simp only [within, hlevel level (Nat.le_refl level)]⟩
    | escaped f t => exact ⟨nofun, level, by simp only [within, hlevel level (Nat.le_refl level)]⟩
    | raised told =>
      obtain ⟨level', htold⟩ := told.settled (.raiseFrom depth l _)
      refine ⟨told.1, max level level', ?_⟩
      simp only [within, hlevel _ (Nat.le_max_left level level')]
      exact htold _ (Nat.le_max_right level level')

/-- Whether the errors with which an action ends from a store have the method of their own that is told places. -/
def RaisesUnhooked (F : Engine → Action α) (s : Store) : Prop := ∀ o, EndsWith F s o → o.Unhooked

namespace RaisesUnhooked

variable {F : Engine → Action α} {G : Engine → α → Action β} {s t : Store}

theorem const {x : Action α} (h : (x s).Unhooked) : RaisesUnhooked (fun _ => x) s := by
  intro o ho
  obtain ⟨rfl, -⟩ := EndsWith.const_iff.mp ho
  exact h

theorem congr {F' : Engine → Action α} (h : RaisesUnhooked F s) (hiff : ∀ o, EndsWith F' s o → EndsWith F s o) :
    RaisesUnhooked F' s := fun o ho => h o (hiff o ho)

/-- An error of the first part of a sequence is one of the sequence. -/
theorem first (hF : Persistent F) (hG : ∀ a, Persistent (fun e => G e a)) (h : RaisesUnhooked (fun e => F e >>= G e) s) :
    RaisesUnhooked F s := by
  rintro o ho a t rfl
  exact h _ ((EndsWith.bind_iff hF hG).mpr (.inr ⟨.raised a, t, ho, rfl⟩)) a t rfl

theorem second (hF : Persistent F) (hG : ∀ a, Persistent (fun e => G e a)) (h : RaisesUnhooked (fun e => F e >>= G e) s)
    {a : α} (hdone : EndsWith F s (.done a t)) : RaisesUnhooked (fun e => G e a) t :=
  fun o ho => h o ((EndsWith.bind_iff_of_done hF hG hdone).mpr ho)

/-- What ends with a result raises no error. -/
theorem of_done {a : α} (hF : Persistent F) (h : EndsWith F s (.done a t)) : RaisesUnhooked F s := by
  intro o ho
  rw [ho.unique hF h]
  exact Outcome.unhooked_of_ne_raised nofun

theorem mapped (hF : Persistent F) (h : RaisesUnhooked F s) (b : β) : RaisesUnhooked (fun e => F e >>= fun _ => pure b) s := by
  intro o ho
  rcases (EndsWith.bind_iff hF fun _ => .const _).mp ho with ⟨a, t, -, hpure⟩ | ⟨f, t, hfails, rfl⟩
  · rw [← (EndsWith.const_iff.mp hpure).1]
    exact Outcome.unhooked_of_ne_raised nofun
  · exact Failure.unhooked_outcome (h _ hfails)

end RaisesUnhooked

/-- A construct whose errors have the method of their own gives them its place, and nothing else happens. -/
theorem EndsWith.within_iff_of_unhooked {F : Engine → Action α} {s : Store} (hF : Persistent F) (h : RaisesUnhooked F s)
    {depth : Nat} {l : Location} {o : Outcome α} :
    EndsWith (fun e => within (e.caller depth) l (F e)) s o ↔ ∃ o', EndsWith F s o' ∧ o = o'.locate l := by
  rw [EndsWith.within_iff hF]
  exact exists_congr fun o' => and_congr_right fun ho' => Outcome.leaves_iff_of_unhooked ho'.1 (h o' ho')

/-- An error with the method of its own gets its place once, whether at the end of a construct or outside of the whole. -/
theorem EndsWith.within_bind_within_iff {F : Engine → Action α} {G : Engine → α → Action β} {s : Store} (hF : Persistent F)
    (hG : ∀ a, Persistent (fun e => G e a)) (h : RaisesUnhooked (fun e => F e >>= G e) s) {depth : Nat} {l : Location}
    {o : Outcome β} :
    EndsWith (fun e => within (e.caller depth) l (F e >>= fun a => within (e.caller depth) l (G e a))) s o ↔
      EndsWith (fun e => within (e.caller depth) l (F e >>= G e)) s o := by
  have hinner (a : α) := (hG a).within depth l
  rw [within_iff (hF.bind hinner), within_iff_of_unhooked (hF.bind hG) h]
  constructor
  · rintro ⟨o₁, ho₁, hleaves⟩
    rcases (bind_iff hF hinner).mp ho₁ with ⟨a, t, hfirst, hsecond⟩ | ⟨f, t, hfails, rfl⟩
    · obtain ⟨o₂, ho₂, rfl⟩ := (within_iff_of_unhooked (hG a) (h.second hF hG hfirst)).mp hsecond
      have hwhole := (bind_iff_of_done hF hG hfirst).mpr ho₂
      rw [Outcome.leaves_iff_of_unhooked (Outcome.Ended.locate_iff.mpr ho₂.1) (h o₂ hwhole).locate,
        Outcome.locate_locate] at hleaves
      exact ⟨o₂, hwhole, hleaves⟩
    · have hwhole := (bind_iff hF hG).mpr (.inr ⟨f, t, hfails, rfl⟩)
      exact ⟨_, hwhole, (Outcome.leaves_iff_of_unhooked (f.ended_outcome t) (h _ hwhole)).mp hleaves⟩
  · rintro ⟨o₂, ho₂, rfl⟩
    rcases (bind_iff hF hG).mp ho₂ with ⟨a, t, hfirst, hsecond⟩ | ⟨f, t, hfails, rfl⟩
    · refine ⟨o₂.locate l, (bind_iff_of_done hF hinner hfirst).mpr
        ((within_iff_of_unhooked (hG a) (h.second hF hG hfirst)).mpr ⟨o₂, hsecond, rfl⟩), ?_⟩
      rw [Outcome.leaves_iff_of_unhooked (Outcome.Ended.locate_iff.mpr ho₂.1) (h o₂ ho₂).locate, Outcome.locate_locate]
    · exact ⟨_, (bind_iff hF hinner).mpr (.inr ⟨f, t, hfails, rfl⟩),
        (Outcome.leaves_iff_of_unhooked (f.ended_outcome t) (h _ ho₂)).mpr rfl⟩

/-! ### Endings up to the record of an error -/

/-- What remains of the record of an error when its place is left out of account. -/
def ErrorRecord.placeless (r : ErrorRecord) : Fault × List (String × HostValue) := (r.fault, r.assigned)

/-- What remains of the record of an error when its place and its message are left out of account. -/
def ErrorRecord.sort (r : ErrorRecord) : String × List (String × HostValue) := (r.fault.kind, r.assigned)

theorem ErrorRecord.placeless_placedAt (p : Syntax.Position) (r : ErrorRecord) : (r.placedAt p).placeless = r.placeless := by
  unfold placedAt placeless
  split <;> rfl

theorem ErrorRecord.sort_placedAt (p : Syntax.Position) (r : ErrorRecord) : (r.placedAt p).sort = r.sort := by
  unfold placedAt sort
  split <;> rfl

theorem ErrorRecord.placedAt_congr_placeless (p : Syntax.Position) {r r' : ErrorRecord} (h : r.placeless = r'.placeless) :
    (r.placedAt p).placeless = (r'.placedAt p).placeless := by
  rw [placeless_placedAt, placeless_placedAt, h]

theorem Store.hook?_of_record {s : Store} {a : Address} {r : ErrorRecord} (h : s.errors[a]? = some r) :
    s.hook? a = r.hook? := by
  rw [Store.hook?, h, Option.bind_some]

theorem Store.modifyError_modifyError (s : Store) (a : Address) (f g : ErrorRecord → ErrorRecord) :
    (s.modifyError a f).modifyError a g = s.modifyError a (fun r => g (f r)) := by
  have herrors : (s.errors.modify a f).modify a g = s.errors.modify a (fun r => g (f r)) := by
    refine Array.ext_getElem? fun b => ?_
    simp only [Array.getElem?_modify]
    split
    · rw [Option.map_map]
      rfl
    · rfl
  exact congrArg (fun errors => { s with errors := errors }) herrors

theorem Store.modifyError_congr {s : Store} {a : Address} {f g : ErrorRecord → ErrorRecord}
    (h : ∀ r, s.errors[a]? = some r → f r = g r) : s.modifyError a f = s.modifyError a g := by
  have herrors : s.errors.modify a f = s.errors.modify a g := by
    refine Array.ext_getElem? fun b => ?_
    simp only [Array.getElem?_modify]
    split
    · rename_i hab
      exact Option.map_congr fun r hr => h r (hab ▸ hr)
    · rfl
  exact congrArg (fun errors => { s with errors := errors }) herrors

theorem Store.modifyError_id (s : Store) (a : Address) : s.modifyError a id = s := by
  have herrors : s.errors.modify a id = s.errors := by
    refine Array.ext_getElem? fun b => ?_
    simp [Array.getElem?_modify]
  exact congrArg (fun errors => { s with errors := errors }) herrors

theorem Store.getElem?_modifyError (s : Store) (a : Address) (f : ErrorRecord → ErrorRecord) :
    (s.modifyError a f).errors[a]? = s.errors[a]?.map f := by
  simp only [Store.modifyError, Array.getElem?_modify, if_pos]

/-- The same outcome, but for what a key leaves out of the record of the error that was raised. The outcomes of which
this is said differ in errors only that have the method of their own that is told places. -/
inductive Outcome.SameUpTo (key : ErrorRecord → κ) : Outcome α → Outcome α → Prop where
  | same (o : Outcome α) : SameUpTo key o o
  | raised {a s r r'} (record : s.errors[a]? = some r) (key_eq : key r' = key r) (unhooked : r.hook? = none)
      (unhooked' : r'.hook? = none) : SameUpTo key (.raised a s) (.raised a (s.modifyError a fun _ => r'))

namespace Outcome.SameUpTo

variable {key : ErrorRecord → κ} {o o' o'' : Outcome α}

theorem symm (h : o.SameUpTo key o') : o'.SameUpTo key o := by
  cases h with
  | same => exact .same o
  | @raised a s r r' record key_eq unhooked unhooked' =>
    have hback : s = (s.modifyError a fun _ => r').modifyError a fun _ => r := by
      rw [s.modifyError_modifyError, Store.modifyError_congr (g := id), s.modifyError_id]
      intro x hx
      exact (Option.some.inj (hx.symm.trans record)).symm
    nth_rewrite 2 [hback]
    refine .raised ?_ key_eq.symm unhooked' unhooked
    rw [s.getElem?_modifyError, record, Option.map_some]

theorem trans (h : o.SameUpTo key o') (h' : o'.SameUpTo key o'') : o.SameUpTo key o'' := by
  cases h with
  | same => exact h'
  | @raised a s r r' record key_eq unhooked unhooked' =>
    cases h' with
    | same => exact .raised record key_eq unhooked unhooked'
    | raised record' key_eq' _ unhooked'' =>
      rw [s.getElem?_modifyError, record, Option.map_some] at record'
      obtain rfl := Option.some.inj record'
      rw [s.modifyError_modifyError]
      exact .raised record (key_eq'.trans key_eq) unhooked unhooked''

theorem eq_of_done {a : α} {t : Store} (h : (Outcome.done a t).SameUpTo key o') : o' = .done a t := by
  cases h with
  | same => rfl

/-- What fails alike without one result fails alike without another one. -/
theorem of_fails {f : Failure} {t : Store} {o' : Outcome α} (h : (f.outcome t : Outcome α).SameUpTo key o') :
    ∃ f' t', o' = Failure.outcome t' f' ∧ (f.outcome t : Outcome β).SameUpTo key (f'.outcome t') := by
  cases f with
  | escaped f =>
    cases h with
    | same => exact ⟨.escaped f, t, rfl, .same _⟩
  | raised a =>
    cases h with
    | same => exact ⟨.raised a, t, rfl, .same _⟩
    | raised record key_eq unhooked unhooked' =>
      exact ⟨.raised a, _, rfl, .raised record key_eq unhooked unhooked'⟩

theorem ended (h : o.SameUpTo key o') (hended : o.Ended) : o'.Ended := by
  cases h with
  | same => exact hended
  | raised => nofun

/-- Two errors that are raised anew. -/
theorem fail {f f' : Fault} (h : key { fault := f' } = key { fault := f }) (s : Store) :
    (Action.fail f s : Outcome α).SameUpTo key (Action.fail f' s) := by
  have hpushed : (s.addError f').2 = (s.addError f).2.modifyError s.errors.size fun _ => { fault := f' } := by
    refine congrArg (fun errors => { s with errors := errors }) (Array.ext_getElem? fun b => ?_)
    simp only [Store.addError, Array.getElem?_modify, Array.getElem?_push]
    by_cases hb : b = s.errors.size
    · simp [hb]
    · simp [hb, Ne.symm hb]
  change (Outcome.raised s.errors.size (s.addError f).2).SameUpTo key (.raised s.errors.size (s.addError f').2)
  rw [hpushed]
  exact .raised (by simp [Store.addError]) h rfl rfl

/-- Of two outcomes that are the same up to a key, the one has an error with the method of its own if the other has. -/
theorem unhooked (h : o.SameUpTo key o') (ho : o.Unhooked) : o'.Unhooked := by
  cases h with
  | same => exact ho
  | @raised a s r r' record _ _ unhooked' =>
    refine Outcome.unhooked_raised ((Store.hook?_of_record ?_).trans unhooked')
    rw [s.getElem?_modifyError, record, Option.map_some]

/-- The place of the error makes no difference to a key that leaves places out of account. -/
theorem locate (hkey : ∀ p (r : ErrorRecord), key (r.placedAt p) = key r) {o : Outcome α} (ho : o.Unhooked) (l : Location) :
    o.SameUpTo key (o.locate l) := by
  cases o with
  | raised a s =>
    cases l with
    | none => exact .same _
    | some p =>
      cases hrecord : s.errors[a]? with
      | none =>
        have hsame : s.locate a (some p) = s := by
          change s.modifyError a _ = s
          rw [Store.modifyError_congr (g := id) (fun r hr => by simp [hrecord] at hr), s.modifyError_id]
        rw [Outcome.locate, hsame]
        exact .same _
      | some r =>
        have hplaced : s.locate a (some p) = s.modifyError a fun _ => r.placedAt p := by
          refine Store.modifyError_congr (f := (ErrorRecord.placedAt · p)) fun x hx => ?_
          rw [Option.some.inj (hx.symm.trans hrecord)]
        rw [Outcome.locate, hplaced]
        have hunhooked := (Store.hook?_of_record hrecord).symm.trans (ho a s rfl)
        exact .raised hrecord (hkey p r) hunhooked ((r.hook?_placedAt p).trans hunhooked)
  | _ => exact .same _

/-- Outcomes that are the same stay so when their errors get one and the same place. -/
theorem locate_congr (hkey : ∀ p {r r' : ErrorRecord}, key r = key r' → key (r.placedAt p) = key (r'.placedAt p))
    (h : o.SameUpTo key o') (l : Location) : (o.locate l).SameUpTo key (o'.locate l) := by
  cases h with
  | same => exact .same _
  | @raised a s r r' record key_eq unhooked unhooked' =>
    cases l with
    | none => exact .raised record key_eq unhooked unhooked'
    | some p =>
      have hlocate : (s.modifyError a fun _ => r').locate a (some p) =
          (s.locate a (some p)).modifyError a fun _ => r'.placedAt p := by
        change (s.modifyError a fun _ => r').modifyError a (ErrorRecord.placedAt · p) =
          (s.modifyError a (ErrorRecord.placedAt · p)).modifyError a _
        rw [s.modifyError_modifyError, s.modifyError_modifyError]
      rw [Outcome.locate, Outcome.locate, hlocate]
      refine .raised (r := r.placedAt p) ?_ (hkey p key_eq) ((r.hook?_placedAt p).trans unhooked)
        ((r'.hook?_placedAt p).trans unhooked')
      change (s.modifyError a (ErrorRecord.placedAt · p)).errors[a]? = _
      rw [s.getElem?_modifyError, record, Option.map_some]

/-- Outcomes that are the same leave one and the same construct as outcomes that are. -/
theorem leaves (hkey : ∀ p {r r' : ErrorRecord}, key r = key r' → key (r.placedAt p) = key (r'.placedAt p))
    (h : o.SameUpTo key o') {depth : Nat} {l : Location} (hleaves : o.Leaves depth l o'') :
    ∃ o₁, o'.Leaves depth l o₁ ∧ o''.SameUpTo key o₁ := by
  have hcongr := h.locate_congr hkey l
  cases h with
  | same => exact ⟨o'', hleaves, .same _⟩
  | raised record key_eq hfirst hsecond =>
    have ho : (Outcome.raised _ _ : Outcome α).Unhooked :=
      Outcome.unhooked_raised ((Store.hook?_of_record record).trans hfirst)
    have ho' := unhooked (.raised record key_eq hfirst hsecond) ho
    obtain rfl := (Outcome.leaves_iff_of_unhooked (Failure.ended_outcome (.raised _) _) ho).mp hleaves
    exact ⟨_, (Outcome.leaves_iff_of_unhooked (Failure.ended_outcome (.raised _) _) ho').mpr rfl, hcongr⟩

/-- Actions that end in the same way do so within one and the same construct. -/
theorem within (hkey : ∀ p {r r' : ErrorRecord}, key r = key r' → key (r.placedAt p) = key (r'.placedAt p)) {s : Store}
    {x x' : Action α} (h : (x s).SameUpTo key (x' s)) (c : Caller) (l : Location) :
    (Action.within c l x s).SameUpTo key (Action.within c l x' s) := by
  have hcongr := h.locate_congr hkey l
  unfold Action.within
  generalize x s = o at h hcongr
  generalize x' s = o' at h hcongr
  cases h with
  | same => exact .same _
  | raised record key_eq hfirst hsecond =>
    have ho : (Outcome.raised _ _ : Outcome α).Unhooked :=
      Outcome.unhooked_raised ((Store.hook?_of_record record).trans hfirst)
    have ho' := unhooked (.raised record key_eq hfirst hsecond) ho
    simp only [raiseFrom_of_unhooked (ho _ _ rfl), raiseFrom_of_unhooked (ho' _ _ rfl)]
    exact hcongr

/-- Sequences of actions that end in the same way do so, too. -/
theorem bind {x x' : Action α} {f f' : α → Action β} {s : Store} (hx : (x s).SameUpTo key (x' s))
    (hf : ∀ a t, (f a t).SameUpTo key (f' a t)) : ((x >>= f) s).SameUpTo key ((x' >>= f') s) := by
  change (Action.bind x f s).SameUpTo key (Action.bind x' f' s)
  unfold Action.bind
  generalize x s = o at hx
  generalize x' s = o' at hx
  cases hx with
  | same =>
    cases o with
    | done a t => exact hf a t
    | _ => exact .same _
  | raised record key_eq unhooked unhooked' => exact .raised record key_eq unhooked unhooked'

end Outcome.SameUpTo

/-- Whenever the first action ends, so does the second one, and in the same way, up to what a key leaves out of
account. -/
def EndsLike (key : ErrorRecord → κ) (F F' : Engine → Action α) (s : Store) : Prop :=
  ∀ o, EndsWith F s o → ∃ o', EndsWith F' s o' ∧ o.SameUpTo key o'

namespace EndsLike

variable {key : ErrorRecord → κ} {F F' F'' : Engine → Action α} {s : Store}

theorem of_imp (h : ∀ o, EndsWith F s o → EndsWith F' s o) : EndsLike key F F' s := fun o ho => ⟨o, h o ho, .same o⟩

theorem trans (h : EndsLike key F F' s) (h' : EndsLike key F' F'' s) : EndsLike key F F'' s := by
  intro o ho
  obtain ⟨o', ho', hsame⟩ := h o ho
  obtain ⟨o'', ho'', hsame'⟩ := h' o' ho'
  exact ⟨o'', ho'', hsame.trans hsame'⟩

theorem const {x y : Action α} (h : (x s).SameUpTo key (y s)) : EndsLike key (fun _ => x) (fun _ => y) s := by
  intro o ho
  obtain ⟨rfl, hended⟩ := EndsWith.const_iff.mp ho
  exact ⟨_, EndsWith.const_iff.mpr ⟨rfl, h.ended hended⟩, h⟩

/-- What gives up does not end. -/
theorem exhaust : EndsLike key (fun _ => exhaust) F s :=
  fun _ ho => absurd (EndsWith.const_iff.mp ho).1.symm (ho.1 s)

theorem bind {G G' : Engine → α → Action β} (hF : Persistent F) (hF' : Persistent F')
    (hG : ∀ a, Persistent (fun e => G e a)) (hG' : ∀ a, Persistent (fun e => G' e a)) (hfirst : EndsLike key F F' s)
    (hsecond : ∀ a t, EndsWith F' s (.done a t) → EndsLike key (fun e => G e a) (fun e => G' e a) t) :
    EndsLike key (fun e => F e >>= G e) (fun e => F' e >>= G' e) s := by
  intro o ho
  rcases (EndsWith.bind_iff hF hG).mp ho with ⟨a, t, hdone, hthen⟩ | ⟨f, t, hfails, rfl⟩
  · obtain ⟨_, hdone', hsame⟩ := hfirst _ hdone
    obtain rfl := hsame.eq_of_done
    obtain ⟨o', ho', hsame'⟩ := hsecond a t hdone' o hthen
    exact ⟨o', (EndsWith.bind_iff_of_done hF' hG' hdone').mpr ho', hsame'⟩
  · obtain ⟨_, hfails', hsame⟩ := hfirst _ hfails
    obtain ⟨f', t', rfl, hsame'⟩ := hsame.of_fails
    exact ⟨_, (EndsWith.bind_iff hF' hG').mpr (.inr ⟨f', t', hfails', rfl⟩), hsame'⟩

theorem within_congr (hkey : ∀ p {r r' : ErrorRecord}, key r = key r' → key (r.placedAt p) = key (r'.placedAt p))
    (hF : Persistent F) (hF' : Persistent F') (h : EndsLike key F F' s) (depth : Nat) (l : Location) :
    EndsLike key (fun e => within (e.caller depth) l (F e)) (fun e => within (e.caller depth) l (F' e)) s := by
  intro o ho
  obtain ⟨o₁, ho₁, hleaves⟩ := (EndsWith.within_iff hF).mp ho
  obtain ⟨o₂, ho₂, hsame⟩ := h o₁ ho₁
  obtain ⟨o', hleaves', hsame'⟩ := hsame.leaves hkey hleaves
  exact ⟨o', (EndsWith.within_iff hF').mpr ⟨o₂, ho₂, hleaves'⟩, hsame'⟩

end EndsLike

/-- Two actions that end the same way from a store, up to what a key leaves out of account: whenever one of them
ends, so does the other one. -/
structure SameEnds (key : ErrorRecord → κ) (F F' : Engine → Action α) (s : Store) : Prop where
  forth : EndsLike key F F' s
  back : EndsLike key F' F s

namespace SameEnds

variable {key : ErrorRecord → κ} {F F' F'' : Engine → Action α} {s t : Store}

theorem of_iff (h : ∀ o, EndsWith F s o ↔ EndsWith F' s o) : SameEnds key F F' s :=
  ⟨.of_imp fun o => (h o).mp, .of_imp fun o => (h o).mpr⟩

theorem refl (F : Engine → Action α) (s : Store) : SameEnds key F F s := of_iff fun _ => Iff.rfl

theorem symm (h : SameEnds key F F' s) : SameEnds key F' F s := ⟨h.back, h.forth⟩

theorem trans (h : SameEnds key F F' s) (h' : SameEnds key F' F'' s) : SameEnds key F F'' s :=
  ⟨h.forth.trans h'.forth, h'.back.trans h.back⟩

theorem const {x y : Action α} (h : (x s).SameUpTo key (y s)) : SameEnds key (fun _ => x) (fun _ => y) s :=
  ⟨.const h, .const h.symm⟩

/-- What ends with a result in one of two ways ends so in the other one, too. -/
theorem done (h : SameEnds key F F' s) {a : α} (hdone : EndsWith F s (.done a t)) : EndsWith F' s (.done a t) := by
  obtain ⟨o, ho, hsame⟩ := h.forth _ hdone
  exact hsame.eq_of_done ▸ ho

/-- An action without and with a place for the error that leaves it. -/
theorem within (hkey : ∀ p (r : ErrorRecord), key (r.placedAt p) = key r) (hF : Persistent F) (h : RaisesUnhooked F s)
    (depth : Nat) (l : Location) : SameEnds key F (fun e => within (e.caller depth) l (F e)) s where
  forth o ho := ⟨o.locate l, (EndsWith.within_iff_of_unhooked hF h).mpr ⟨o, ho, rfl⟩, .locate hkey (h o ho) l⟩
  back o ho := by
    obtain ⟨o', hform, rfl⟩ := (EndsWith.within_iff_of_unhooked hF h).mp ho
    exact ⟨o', hform, (Outcome.SameUpTo.locate hkey (h o' hform) l).symm⟩

theorem within_congr (hkey : ∀ p {r r' : ErrorRecord}, key r = key r' → key (r.placedAt p) = key (r'.placedAt p))
    (hF : Persistent F) (hF' : Persistent F') (h : SameEnds key F F' s) (depth : Nat) (l : Location) :
    SameEnds key (fun e => Action.within (e.caller depth) l (F e)) (fun e => Action.within (e.caller depth) l (F' e)) s :=
  ⟨h.forth.within_congr hkey hF hF' depth l, h.back.within_congr hkey hF' hF depth l⟩

/-- The errors of an action have the method of their own if those of an action that ends the same way do. -/
theorem unhooked (h : SameEnds key F F' s) (hF : RaisesUnhooked F s) : RaisesUnhooked F' s := by
  intro o ho
  obtain ⟨o', ho', hsame⟩ := h.back o ho
  exact hsame.symm.unhooked (hF o' ho')

/-- The form of an expression, and the expression with its place. -/
theorem evalForm (hkey : ∀ p (r : ErrorRecord), key (r.placedAt p) = key r) (c : Context) (x : Expr)
    (h : RaisesUnhooked (fun e => evalForm e c x) s) : SameEnds key (fun e => evalForm e c x) (fun e => e.eval c x) s :=
  (within hkey (.evalForm c x) h c.depth x.location).trans (of_iff fun _ => EndsWith.eval_iff.symm)

/-- Expressions end the same way if their forms do. -/
theorem of_forms (hkey : ∀ p (r : ErrorRecord), key (r.placedAt p) = key r) {c : Context} {x y : Expr}
    (hx : RaisesUnhooked (fun e => Dartlet.evalForm e c x) s)
    (h : SameEnds key (fun e => Dartlet.evalForm e c x) (fun e => Dartlet.evalForm e c y) s) :
    SameEnds key (fun e => e.eval c x) (fun e => e.eval c y) s :=
  ((evalForm hkey c x hx).symm.trans h).trans (evalForm hkey c y (h.unhooked hx))

theorem bind {G G' : Engine → α → Action β} (hF : Persistent F) (hF' : Persistent F')
    (hG : ∀ a, Persistent (fun e => G e a)) (hG' : ∀ a, Persistent (fun e => G' e a)) (hfirst : SameEnds key F F' s)
    (hsecond : ∀ a t, EndsWith F s (.done a t) → SameEnds key (fun e => G e a) (fun e => G' e a) t) :
    SameEnds key (fun e => F e >>= G e) (fun e => F' e >>= G' e) s where
  forth := .bind hF hF' hG hG' hfirst.forth fun a t hdone => (hsecond a t (hfirst.symm.done hdone)).forth
  back := .bind hF' hF hG' hG hfirst.back fun a t hdone => (hsecond a t hdone).back

end SameEnds

end Dartlet
