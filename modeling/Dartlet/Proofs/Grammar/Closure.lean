import Dartlet.Syntax.Chart
import Mathlib.Algebra.Order.BigOperators.Group.Finset

/-!
# Closures

Taking up what is left to do, one thing after the other, finds everything that can be reached in
steps, provided that there are enough rounds. Each round lowers by one the number of things left to
do together with the steps of all things not yet taken up, so that number of rounds is enough.
-/

namespace Dartlet.Syntax.RuleTable

open Finset

variable {α : Type} [DecidableEq α] {step : α → List α}

/-- What steps keep and holds in the beginning holds of everything that is found. -/
theorem closure_induction {P : α → Prop} (hstep : ∀ x, P x → ∀ y ∈ step x, P y) (n : Nat) (seen todo : List α)
    (hseen : ∀ x ∈ seen, P x) (htodo : ∀ x ∈ todo, P x) : ∀ x ∈ closure step n seen todo, P x := by
  fun_induction closure step n seen todo with
  | case1 => exact hseen
  | case2 => exact hseen
  | case3 n seen x todo _ ih => exact ih hseen (fun y hy => htodo y (List.mem_cons_of_mem x hy))
  | case4 n seen x todo _ ih =>
    have hx := htodo x List.mem_cons_self
    refine ih (fun y hy => ?_) (fun y hy => ?_)
    · rcases List.mem_cons.mp hy with rfl | hy
      · exact hx
      · exact hseen y hy
    · rcases List.mem_append.mp hy with hy | hy
      · exact hstep x hx y hy
      · exact htodo y (List.mem_cons_of_mem x hy)

theorem nodup_closure (n : Nat) (seen todo : List α) (h : seen.Nodup) : (closure step n seen todo).Nodup := by
  fun_induction closure step n seen todo with
  | case1 => exact h
  | case2 => exact h
  | case3 n seen x todo _ ih => exact ih h
  | case4 n seen x todo hx ih => exact ih (List.nodup_cons.mpr ⟨hx, h⟩)

/-- The rounds that are left: one for each thing to do and for each step of a thing not yet taken
up. Things outside a finite set have no steps. -/
def roundsLeft (step : α → List α) (all : Finset α) (seen todo : List α) : Nat :=
  todo.length + ∑ x ∈ all with x ∉ seen, (step x).length

/-- Taking up a thing for the first time lowers the rounds that are left. -/
theorem roundsLeft_take {all : Finset α} {seen todo : List α} {x : α} (hx : x ∉ seen)
    (hall : x ∉ all → step x = []) :
    roundsLeft step all (x :: seen) (step x ++ todo) + 1 = roundsLeft step all seen (x :: todo) := by
  have hfilter : (all.filter (fun y => y ∉ x :: seen)) = (all.filter (fun y => y ∉ seen)).erase x := by
    ext y
    simp only [mem_filter, mem_erase, List.mem_cons, not_or]
    tauto
  simp only [roundsLeft, hfilter, List.length_append, List.length_cons]
  by_cases hmem : x ∈ all
  · have hsum := add_sum_erase (all.filter (fun y => y ∉ seen)) (fun y => (step y).length) (mem_filter.mpr ⟨hmem, hx⟩)
    omega
  · have hnot : x ∉ all.filter (fun y => y ∉ seen) := fun h => hmem (mem_filter.mp h).1
    rw [erase_eq_of_notMem hnot, hall hmem]
    simp only [List.length_nil]
    omega

/-- With enough rounds, what is found contains what was to be done and is closed under steps. -/
theorem closure_closed {P : α → Prop} {all : Finset α} (hstep : ∀ x, P x → ∀ y ∈ step x, P y)
    (hall : ∀ x, P x → x ∉ all → step x = []) (n : Nat) (seen todo : List α) (htodo : ∀ x ∈ todo, P x)
    (hn : roundsLeft step all seen todo ≤ n) :
    (∀ x ∈ seen, x ∈ closure step n seen todo) ∧ (∀ x ∈ todo, x ∈ closure step n seen todo) ∧
      ∀ x ∈ closure step n seen todo, x ∈ seen ∨ ∀ y ∈ step x, y ∈ closure step n seen todo := by
  fun_induction closure step n seen todo with
  | case1 seen todo =>
    have : todo = [] := List.length_eq_zero_iff.mp (by simp only [roundsLeft] at hn; omega)
    subst this
    exact ⟨fun x hx => hx, by simp, fun x hx => .inl hx⟩
  | case2 seen n => exact ⟨fun x hx => hx, by simp, fun x hx => .inl hx⟩
  | case3 n seen x todo hx ih =>
    have hle : roundsLeft step all seen todo ≤ n := by
      simp only [roundsLeft, List.length_cons] at hn ⊢
      omega
    obtain ⟨h₁, h₂, h₃⟩ := ih (fun y hy => htodo y (List.mem_cons_of_mem x hy)) hle
    refine ⟨h₁, fun y hy => ?_, h₃⟩
    rcases List.mem_cons.mp hy with rfl | hy
    · exact h₁ y hx
    · exact h₂ y hy
  | case4 n seen x todo hx ih =>
    have hPx := htodo x List.mem_cons_self
    have htake : roundsLeft step all (x :: seen) (step x ++ todo) + 1 = _ := roundsLeft_take hx (hall x hPx)
    obtain ⟨h₁, h₂, h₃⟩ := ih (fun y hy => by
      rcases List.mem_append.mp hy with hy | hy
      · exact hstep x hPx y hy
      · exact htodo y (List.mem_cons_of_mem x hy)) (by omega)
    refine ⟨fun y hy => h₁ y (List.mem_cons_of_mem x hy), fun y hy => ?_, fun y hy => ?_⟩
    · rcases List.mem_cons.mp hy with rfl | hy
      · exact h₁ y List.mem_cons_self
      · exact h₂ y (List.mem_append_right _ hy)
    · rcases h₃ y hy with hseen | hsteps
      · rcases List.mem_cons.mp hseen with rfl | hseen
        · exact .inr (fun z hz => h₂ z (List.mem_append_left _ hz))
        · exact .inl hseen
      · exact .inr hsteps

/-- Where no thing has more than so many steps, the square of the number of things bounds the
rounds. -/
theorem roundsLeft_le {all : Finset α} {bound : Nat} (hbound : ∀ x ∈ all, (step x).length ≤ bound)
    (hcard : all.card ≤ bound) (todo : List α) :
    roundsLeft step all [] todo ≤ todo.length + bound * bound := by
  have hsum : ∑ x ∈ all with x ∉ [], (step x).length ≤ bound * bound := by
    calc ∑ x ∈ all with x ∉ [], (step x).length
        ≤ ∑ x ∈ all, (step x).length := sum_le_sum_of_subset (filter_subset _ _)
      _ ≤ all.card * bound := by simpa using sum_le_card_nsmul all _ bound hbound
      _ ≤ bound * bound := Nat.mul_le_mul_right bound hcard
  exact Nat.add_le_add_left hsum todo.length

end Dartlet.Syntax.RuleTable
