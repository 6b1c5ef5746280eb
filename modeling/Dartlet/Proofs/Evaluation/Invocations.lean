import Dartlet.Proofs.Evaluation.Endings
import Dartlet.Proofs.Evaluation.TearOffs

/-!
# How calls end

A call of a function and a call of a member end without regard to levels, as expressions and statements do. A
method that is given as many arguments as it takes runs as code of the host, one call deeper.
-/

namespace Dartlet

open Dartlet.Action

set_option linter.unusedSectionVars false

variable [Host]

variable {α β : Type}

/-- How a call of a function ends while some number of calls is under way, whatever number of levels that takes. -/
abbrev Calls (depth : Nat) (function : Value) (arguments : List Value) : Store → Outcome Value → Prop :=
  EndsWith (fun e => e.call depth function arguments)

/-- How a call of a member ends while some number of calls is under way, whatever number of levels that takes. -/
abbrev Invokes (depth : Nat) (receiver : Value) (name : String) (arguments : List Value) :
    Store → Outcome Value → Prop :=
  EndsWith (fun e => invokeMember e depth receiver name arguments)

theorem calls_iff {depth : Nat} {function : Value} {arguments : List Value} {s : Store} {o : Outcome Value} :
    Calls depth function arguments s o ↔ EndsWith (fun e => callValue e depth function arguments) s o :=
  EndsWith.level_iff rfl fun _ => rfl

/-- Only what an action does in the store in which it begins decides how it ends. -/
theorem EndsWith.congr {F G : Engine → Action α} {s : Store} {o : Outcome α} (h : ∀ e, F e s = G e s) :
    EndsWith F s o ↔ EndsWith G s o := by
  simp only [EndsWith, h]

theorem Action.bind_eq_done_iff {x : Action α} {f : α → Action β} {s t : Store} {b : β} :
    (x >>= f) s = .done b t ↔ ∃ a u, x s = .done a u ∧ f a u = .done b t := by
  change Action.bind x f s = _ ↔ _
  unfold Action.bind
  cases x s <;> simp

@[simp] theorem argument_zero (v : Value) (rest : List Value) : argument (v :: rest) 0 = v := rfl

@[simp] theorem argument_one (v w : Value) (rest : List Value) : argument (v :: w :: rest) 1 = w := rfl

theorem functionArgument_eq_done_iff {method : String} {v : Value} {s t : Store} :
    functionArgument method v s = .done () t ↔ v.isFunction = true ∧ t = s := by
  by_cases h : v.isFunction = true
  · rw [show functionArgument method v = pure () from if_pos h]
    exact ⟨fun hdone => ⟨h, (Outcome.done.inj hdone).2.symm⟩, fun ⟨_, hsame⟩ => hsame ▸ rfl⟩
  · rw [show functionArgument method v = fun s => mismatch (.badArgument method "a function" (v.typeName s)) s from if_neg h]
    exact ⟨nofun, fun hfunction => absurd hfunction.1 h⟩

/-- How code of the host ends for the language: with an error where it fails outside of it, but for endless nesting. -/
def Outcome.delegated : Outcome α → Outcome α
  | .escaped .endlessNesting t => .escaped .endlessNesting t
  | .escaped f t => fail (.host f) t
  | o => o

theorem delegate_apply (x : Action α) (s : Store) : delegate x s = (x s).delegated := by
  unfold delegate
  cases x s with
  | escaped f t => cases f <;> rfl
  | _ => rfl

theorem Outcome.delegated_eq_done_iff {o : Outcome α} {a : α} {t : Store} : o.delegated = .done a t ↔ o = .done a t := by
  cases o with
  | escaped f u => cases f <;> simp [delegated, fail]
  | _ => simp [delegated]

theorem Outcome.Ended.delegated_iff {o : Outcome α} : o.delegated.Ended ↔ o.Ended := by
  cases o with
  | escaped f t => cases f <;> simp [Ended, delegated, fail]
  | _ => exact Iff.rfl

theorem EndsWith.delegate_iff {F : Engine → Action α} {s : Store} {o : Outcome α} :
    EndsWith (fun e => delegate (F e)) s o ↔ ∃ o', EndsWith F s o' ∧ o = o'.delegated := by
  simp only [EndsWith, delegate_apply]
  constructor
  · rintro ⟨hended, level, rfl⟩
    exact ⟨_, ⟨Outcome.Ended.delegated_iff.mp hended, level, rfl⟩, rfl⟩
  · rintro ⟨o', ⟨hended, level, rfl⟩, rfl⟩
    exact ⟨Outcome.Ended.delegated_iff.mpr hended, level, rfl⟩

section Methods

variable {e : Engine} {depth : Nat} {receiver : Value} {name : String} {m : Method} {arguments : List Value} {s t : Store}

/-- A method runs as code of the host, if not too many calls are under way. -/
theorem invokeMember_run (hobject : receiver.isHostObject = false) (hm : Method.find? receiver name = some m)
    (harity : m.arity.accepts arguments.length = true) (hdepth : depth < Host.callLimit) :
    invokeMember e depth receiver name arguments = delegate (m.run (e.caller (depth + 1)) receiver arguments) := by
  rw [invokeMember_method hobject hm, checkArity, if_pos harity, callHost, if_neg (Nat.not_le.mpr hdepth), pure_bind]

/-- What a method does at once, without calls of functions, is done by calling it. -/
theorem invokeMember_of_done (hobject : receiver.isHostObject = false) (hm : Method.find? receiver name = some m)
    (harity : m.arity.accepts arguments.length = true) (hdepth : depth < Host.callLimit) {v : Value}
    (hrun : m.run (e.caller (depth + 1)) receiver arguments s = .done v t) :
    invokeMember e depth receiver name arguments s = .done v t := by
  rw [invokeMember_run hobject hm harity hdepth, delegate_apply]
  exact Outcome.delegated_eq_done_iff.mpr hrun

theorem invokes_iff (hobject : receiver.isHostObject = false) (hm : Method.find? receiver name = some m)
    (harity : m.arity.accepts arguments.length = true) (hdepth : depth < Host.callLimit) {o : Outcome Value} :
    Invokes depth receiver name arguments s o ↔
      ∃ o', EndsWith (fun e => m.run (e.caller (depth + 1)) receiver arguments) s o' ∧ o = o'.delegated := by
  simp only [Invokes, invokeMember_run hobject hm harity hdepth]
  exact EndsWith.delegate_iff

theorem invokes_done_iff (hobject : receiver.isHostObject = false) (hm : Method.find? receiver name = some m)
    (harity : m.arity.accepts arguments.length = true) {v : Value} :
    Invokes depth receiver name arguments s (.done v t) ↔
      depth < Host.callLimit ∧ EndsWith (fun e => m.run (e.caller (depth + 1)) receiver arguments) s (.done v t) := by
  by_cases hdepth : depth < Host.callLimit
  · simp only [EndsWith, invokeMember_run hobject hm harity hdepth, delegate_apply, Outcome.delegated_eq_done_iff,
      Outcome.ended_done, hdepth, true_and]
  · simp only [hdepth, false_and, EndsWith, invokeMember_method hobject hm, checkArity, if_pos harity,
      pure_bind, callHost, if_pos (Nat.not_lt.mp hdepth), escape, reduceCtorEq, exists_false, and_false]

end Methods
end Dartlet
