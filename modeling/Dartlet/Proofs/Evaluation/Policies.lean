import Dartlet.Proofs.Evaluation.Lasting

/-!
# Policies for programs

A policy says which constructs programs may have, which errors they then never raise, and how their
statements may complete. If the trees read from texts follow it, then so do all functions in the
stores that a host comes to, and none of the errors occurs in any run.
-/

namespace Dartlet

open Dartlet.Action
open Dartlet.Syntax (Expr Node Stmt)

set_option linter.unusedSectionVars false

variable [Host]

/-- What programs have and do, with the laws of single constructs that make it hold of whole runs. -/
structure Policy where
  /-- The constructs that programs may have. -/
  Good : Node → Prop
  /-- The errors that they never raise. -/
  Never : Fault → Prop
  /-- The completions that a statement may have. -/
  Ends : Stmt → Completion → Prop
  good_accepted : ∀ {n : Node}, n.Accepted → Good n
  good_part : ∀ {n m : Node}, Good n → m ∈ n.children → Good m
  ordinary : ∀ {f : Fault}, f.isOrdinary = true → ¬Never f
  raises : ∀ {n : Node} {f : Fault}, Good n → n.Raises f → ¬Never f
  ends_normal : ∀ x : Stmt, Ends x .normal
  ends_returning : ∀ (x : Stmt) (v : Value), Ends x (.returning v)
  ends_breaking : ∀ l : Syntax.Location, Ends (.breaking l) .breaking
  ends_continuing : ∀ l : Syntax.Location, Ends (.continuing l) .continuing
  ends_part : ∀ {x y : Stmt} {k : Completion}, y ∈ x.throughParts → Ends y k → Ends x k
  jumping : ∀ {l : Syntax.Location} {x : Stmt} {k : Completion} {keyword : String},
    Good (.body (.block l x)) → Ends x k → k.isJump = true → ¬Never (.jumpOutsideLoop keyword)

namespace Policy

/-- A store whose functions follow a policy and in which no error has occurred that it excludes. -/
structure Inv (p : Policy) (s : Store) : Prop where
  closures : ∀ f ∈ s.closures, p.Good (.body f.body)
  faults : ∀ f ∈ s.faults, ¬p.Never f

namespace Inv

variable {p : Policy} {s t : Store}

theorem of_same (h : p.Inv s) (hclosures : t.closures = s.closures) (hfaults : t.faults = s.faults) : p.Inv t :=
  ⟨hclosures ▸ h.closures, hfaults ▸ h.faults⟩

theorem addError (h : p.Inv s) {f : Fault} (hf : ¬p.Never f) : p.Inv (s.addError f).2 := by
  refine ⟨h.closures, fun g hg => ?_⟩
  rw [Store.faults_addError] at hg
  rcases List.mem_append.mp hg with hg | hg
  · exact h.faults g hg
  · exact List.mem_singleton.mp hg ▸ hf

theorem addClosure (h : p.Inv s) {f : Closure} (hf : p.Good (.body f.body)) : p.Inv (s.addClosure f).2 := by
  refine ⟨fun g hg => ?_, h.faults⟩
  rcases Array.mem_push.mp hg with hg | rfl
  · exact h.closures g hg
  · exact hf

end Inv

/-- The discipline that keeps a policy. It has nothing to say about scopes. -/
def discipline (p : Policy) : Discipline where
  Inv := p.Inv
  Own _ := True
  Good := p.Good
  Admits _ _ := True
  Ends := p.Ends
  stable := ⟨fun hdata h => h.of_same hdata.closures hdata.faults, fun hf h => h.addError (p.ordinary hf)⟩
  good_part := p.good_part
  good_closure h hf := h.closures _ (Array.mem_of_getElem? hf)
  raises hn hf h := h.addError (p.raises hn hf)
  closing _ hf h := h.addClosure hf
  entering _ h := ⟨trivial, h.of_same rfl rfl⟩
  declaring _ _ _ h := h.of_same rfl rfl
  assigning {s t a name v} ht h := by
    obtain ⟨owner, -, rfl⟩ := Option.map_eq_some_iff.mp ht
    exact h.of_same rfl rfl
  marking _ _ h := h.of_same rfl rfl
  admits_own _ _ := trivial
  admits_part _ _ := trivial
  admits_name _ _ _ h := h.of_same rfl rfl
  ends_normal := p.ends_normal
  ends_returning := p.ends_returning
  ends_breaking := p.ends_breaking
  ends_continuing := p.ends_continuing
  ends_part := p.ends_part
  jumping hb hk hjump h := h.addError (p.jumping hb hk hjump)

/-- Whatever a host runs keeps a policy. -/
theorem lasting (p : Policy) : Lasting p.Inv where
  fresh hclosures herrors := ⟨by simp [hclosures], by simp [Store.faults, herrors]⟩
  same h := h.of_same
  raising hf h := h.addError (p.ordinary hf)
  eval c _ hx := (p.discipline.obeyed levelLimit).eval c _ (p.good_accepted hx)
  exec c _ hx := ((p.discipline.obeyed levelLimit).exec c _ (p.good_accepted hx) trivial).keeps
  call := (p.discipline.obeyed levelLimit).call

/-- Every store that a host comes to follows the policy. -/
theorem reached (p : Policy) {s : Store} (hs : s.Reached) : p.Inv s := p.lasting.reached hs

end Policy
end Dartlet
