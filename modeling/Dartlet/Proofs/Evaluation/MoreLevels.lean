import Dartlet.Proofs.Parallel.Moved
import Dartlet.Proofs.Parallel.Runs

/-!
# More levels

The levels of the interpreter bound how deep it works and how many rounds its loops run. They are there
so that it can be defined at all: whatever ends before they are used up ends the same way, in the same
store, with any number of levels more.
-/

namespace Dartlet

open Dartlet.Action
open Dartlet.Syntax (Expr Stmt)

set_option linter.unusedSectionVars false

variable [Host]

/-- An outcome that another one repeats, unless the levels did not suffice for it. -/
def Outcome.Persists {α : Type} (o o' : Outcome α) : Prop := (∃ s, o = .exhausted s) ∨ o' = o

theorem Outcome.Persists.refl {α : Type} (o : Outcome α) : o.Persists o := .inr rfl

/-- What goes on from outcomes that persist persists. -/
theorem Outcome.Persists.bind {α β : Type} {x : Action α} {f f' : α → Action β} {s : Store}
    (h : ∀ a t, x s = .done a t → (f a t).Persists (f' a t)) : ((x >>= f) s).Persists ((x >>= f') s) := by
  change (Action.bind x f s).Persists (Action.bind x f' s)
  unfold Action.bind
  cases hx : x s with
  | done a t => exact h a t hx
  | _ => exact .refl _

namespace Comparison

/-- The comparison of a run with one that has more levels. -/
def generous : Comparison := { exact false false (fun _ => True) with lenient := true }

theorem generous_unrestricted : generous.Unrestricted := ⟨fun _ => trivial, fun _ => rfl, rfl, rfl, rfl⟩

theorem agrees_generous {level more : Nat} (h : level ≤ more) :
    generous.Agrees generous_unrestricted.anything (interpreter level) (interpreter more) := by
  induction level generalizing more with
  | zero =>
    exact ⟨fun _ _ => settled_gaveUp rfl, fun _ _ => settled_gaveUp rfl, fun _ _ => alike_gaveUp rfl,
      .inr ⟨rfl, Nat.zero_le _⟩⟩
  | succ level ih =>
    obtain ⟨more, rfl⟩ : ∃ n, more = n + 1 := ⟨more - 1, by omega⟩
    have hless : level ≤ more := Nat.le_of_succ_le_succ h
    refine ⟨fun hx hhere => ?_, fun hx hhere => ?_, fun _ hargs => ?_, .inr ⟨rfl, hless⟩⟩
    · exact Alike.within ((ih hless).caller _) rfl _ (alike_evalForm (ih hless) hx hhere)
    · exact Alike.within ((ih hless).caller _) rfl _ (alike_execForm (ih hless) generous_unrestricted.passes rfl hx hhere)
    · exact alike_callValue (ih hless) generous_unrestricted.opens _ hargs

theorem generous_known (s : Store) (v : Value) : v.Known (generous.Known s) :=
  Value.known_of_forall (known_all rfl rfl rfl s) v

theorem parallel_generous (s : Store) : generous.Parallel s s := by
  have htables : generous.Tables (generous.Known s) s { s with natives := s.natives ++ #[] } :=
    tables_more (show generous.shifts = .natives 0 0 from rfl) (fun a _ => Shift.apply_stay a) (Nat.zero_le _)
      (fun _ => trivial) (fun _ => rfl) rfl rfl rfl (Shifts.keeps_stay _) (s.holdsOnly_of_forall (known_all rfl rfl rfl s))
  rwa [Array.append_empty] at htables

/-- What runs alike from one store comes to the same, unless the first run gives up. -/
theorem Matches.persists {α : Type} {inside : Bool} {P : Store → Store → Address → Prop}
    {Q : Store → Store → α → α → Prop} {s t : Store} {o o' : Outcome α} (hQ : ∀ s' t' a b, Q s' t' a b → b = a)
    (h : generous.Matches inside P Q s t o o') : o.Persists o' := by
  have hsame {s' t' : Store} (hf : generous.Follows s t s' t') : t' = s' :=
    Tables.eq rfl (fun _ => rfl) rfl rfl hf.parallel
  cases h with
  | done hq hf => exact .inr (by rw [hQ _ _ _ _ hq, hsame hf])
  | @raised e _ _ hp hf =>
    have herror : generous.shifts.error.apply e = e := Shift.apply_stay e
    exact .inr (by rw [herror, hsame hf])
  | escaped hfail hf => exact .inr (by rw [hsame hf])
  | @exhausted s' _ hf => exact .inl ⟨s', rfl⟩
  | @gaveUp s' _ hw => exact .inl ⟨s', rfl⟩

end Comparison

/-- Whatever ends without using up its levels ends the same way with more of them: with the same result,
error or failure, and in the same store. -/
theorem more_levels_change_nothing {level more : Nat} (h : level ≤ more) (c : Context) (s : Store) :
    (∀ x : Expr, ((interpreter level).eval c x s).Persists ((interpreter more).eval c x s)) ∧
    (∀ x : Stmt, ((interpreter level).exec c x s).Persists ((interpreter more).exec c x s)) ∧
    ∀ (f : Value) (arguments : List Value),
      ((interpreter level).call c.depth f arguments s).Persists ((interpreter more).call c.depth f arguments s) := by
  have hagrees := Comparison.agrees_generous h
  have hparallel := Comparison.parallel_generous s
  have hmove : Comparison.generous.move c = c := Comparison.move_of_stay rfl c
  refine ⟨fun x => ?_, fun x => ?_, fun f arguments => ?_⟩
  · have hmatches := hagrees.eval (c := c) (x := x) trivial trivial hparallel
    rw [hmove] at hmatches
    exact hmatches.persists (fun _ _ v _ hv => hv.same.trans v.shift_stay)
  · have hmatches := hagrees.exec (c := c) (x := x) trivial trivial hparallel
    rw [hmove] at hmatches
    exact hmatches.persists (fun _ _ k _ hk => hk.same.trans k.shift_stay)
  · have hf : f.shift Comparison.generous.shifts = f := f.shift_stay
    have harguments : arguments = arguments.map (Value.shift Comparison.generous.shifts) :=
      eq_map_of_forall (fun v _ => v.shift_stay)
    have hcalls : Comparison.generous.Alike false Comparison.generous.Val s s
        ((interpreter level).call c.depth f arguments) ((interpreter more).call c.depth (f.shift _) (arguments.map _)) :=
      hagrees.call (Comparison.generous_known s f) (fun v _ => Comparison.generous_known s v)
    rw [hf, ← harguments] at hcalls
    exact (hcalls hparallel).persists (fun _ _ v _ hv => hv.same.trans v.shift_stay)
end Dartlet
