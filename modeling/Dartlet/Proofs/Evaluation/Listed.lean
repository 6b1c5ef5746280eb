import Dartlet.Proofs.Parallel.Moved
import Dartlet.Proofs.Parallel.Runs

/-!
# Lists that exist

A program can only hold a list that has been made: its address is one of those in the table. This holds of the store that
programs begin with, and every run keeps it. So a list that nothing holds makes no difference: a run from a store with
one more list is the same, but for the addresses of the lists that are made after it.
-/

namespace Dartlet

open Dartlet.Syntax (Expr Stmt)

set_option linter.unusedSectionVars false

variable [Host]

/-- A value that, if it is a list, is one of the first so many. -/
def Value.Listed (n : Nat) : Value → Prop
  | .list a => a < n
  | _ => True

/-- A store in which all lists that are held anywhere exist. -/
def Store.Listed (s : Store) : Prop := s.HoldsOnly (Value.Listed s.lists.size)

/-- A change of the addresses of lists alone: those from `start` on go up by `gap`. -/
def Shifts.lists (start gap : Nat) : Shifts := { Shifts.stay with list := ⟨start, gap⟩ }

theorem Value.Listed.mono {v : Value} {n m : Nat} (h : v.Listed n) (hnm : n ≤ m) : v.Listed m := by
  cases v with
  | list a => exact Nat.lt_of_lt_of_le h hnm
  | _ => trivial

theorem Value.known_listed {v : Value} {n : Nat} : v.Known (Value.Listed n) ↔ v.Listed n := by
  cases v <;> simp [Value.Known, Value.Listed]

namespace Comparison

variable {s t : Store} {start gap : Nat}

/-- The comparison of runs of which the second has more lists from the beginning. -/
def listing (start gap : Nat) : Comparison where
  shifts := .lists start gap
  hidden _ := false
  objects := true
  placed := false
  handled := false
  Fit _ := True
  listed := true

theorem listing_unrestricted (start gap : Nat) : (listing start gap).Unrestricted :=
  ⟨fun _ => trivial, fun _ => rfl, rfl, rfl, rfl⟩

/-- All constructs, anywhere. -/
def listingAll (start gap : Nat) : (listing start gap).Manner := (listing_unrestricted start gap).anything

theorem agrees_listing (level : Nat) :
    (listing start gap).Agrees (listingAll start gap) (interpreter level) (interpreter level) :=
  (listing_unrestricted start gap).agrees level

theorem known_listing (s : Store) : (listing start gap).Known s = Value.Listed s.lists.size := by
  funext v
  cases v <;> simp [Known, Value.Listed, listing]

theorem keeps_lists (start gap : Nat) : (Shifts.lists start gap).Keeps (Value.Listed start) := by
  intro v hv
  have hstay := v.shift_stay
  cases v with
  | list a => exact congrArg Value.list (Shift.apply_of_lt ⟨start, gap⟩ hv)
  | _ => exact hstay

/-- A store in which all lists exist runs in parallel with the one that has more of them. -/
theorem parallel_listing (hs : s.Listed) (more : Array (Array Value)) :
    (listing s.lists.size more.size).Parallel s { s with lists := s.lists ++ more } := by
  have hself {α : Type} (xs : Array α) : Corresponds .stay Eq xs xs := corresponds_self fun _ _ => rfl
  have hwithin : Store.Within (listing s.lists.size more.size).shifts s { s with lists := s.lists ++ more } :=
    ⟨hself _, corresponds_append s.lists more, hself _, hself _, hself _, hself _, hself _, hself _, hself _, rfl, rfl, rfl⟩
  have htables : (listing s.lists.size more.size).Tables (Value.Listed s.lists.size) s { s with lists := s.lists ++ more } :=
    tables_within hwithin (keeps_lists _ _) hs (fun a _ => Shift.apply_stay a) (absurd rfl) rfl (fun _ => trivial)
      (fun _ => rfl) rfl rfl rfl
  rwa [← known_listing s] at htables

theorem Parallel.listed (h : (listing start gap).Parallel s t) : s.Listed := by
  have hholds := Tables.holdsOnly (fun _ => rfl) rfl (.inr rfl) h
  rwa [known_listing] at hholds

/-- A store in which all lists exist runs in parallel with itself. -/
theorem parallel_listed (hs : s.Listed) : (listing s.lists.size 0).Parallel s s := by
  have hmore := parallel_listing hs #[]
  rwa [Array.append_empty] at hmore

end Comparison

/-! ### All runs -/

namespace Store.Listed

open Comparison

variable {s : Store}

theorem known (start gap : Nat) (s : Store) {v : Value} (hv : v.Listed s.lists.size) :
    v.Known ((listing start gap).Known s) := by
  rw [known_listing]
  exact Value.known_listed.mpr hv

theorem initial : Store.initial.Listed where
  toHolds := Store.initial_holds trivial trivial
  places _ he := absurd he (Array.not_mem_empty _)
  noted _ he := absurd he (Array.not_mem_empty _)

theorem eval (hs : s.Listed) (level : Nat) (c : Context) (x : Expr) : ((interpreter level).eval c x s).store.Listed :=
  (((agrees_listing level).eval trivial trivial (parallel_listed hs)).parallel rfl).listed

theorem exec (hs : s.Listed) (level : Nat) (c : Context) (x : Stmt) : ((interpreter level).exec c x s).store.Listed :=
  (((agrees_listing level).exec trivial trivial (parallel_listed hs)).parallel rfl).listed

theorem call (hs : s.Listed) (level depth : Nat) {f : Value} {arguments : List Value} (hf : f.Listed s.lists.size)
    (harguments : ∀ v ∈ arguments, v.Listed s.lists.size) :
    ((interpreter level).call depth f arguments s).store.Listed :=
  (((agrees_listing level).call (known _ _ s hf) (fun v hv => known _ _ s (harguments v hv)) (parallel_listed hs)).parallel
    rfl).listed

theorem runMain (hs : s.Listed) (source : String) (arguments : List String) :
    (runMain source arguments s).store.Listed :=
  (concludes_runMain (agrees_listing levelLimit) rfl (Shift.apply_stay _) trivial (fun _ _ => trivial) arguments
    (parallel_listed hs) rfl).parallel.listed

end Store.Listed
end Dartlet
