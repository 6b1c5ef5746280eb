import Dartlet.Host.Standard
import Dartlet.Proofs.Evaluation.Policies

/-!
# Everything that is read can be run

The trees read from texts are regular, and stay so as bodies of functions until these are called. So
no run comes upon a construct that it does not know, or one in a place where it does not belong.
-/

namespace Dartlet

section

variable [Host]

/-- The policy of regular trees. -/
def Policy.regular : Policy where
  Good n := n.Regular
  Never f := f.isMalformed = true
  Ends _ _ := True
  good_accepted h := h.regular
  good_part h hm := h.part hm
  ordinary {f} hf := by
    cases f with
    | unsupported u => cases hf
    | mismatch m => cases m <;> simp_all [Fault.isOrdinary, Fault.isMalformed]
    | _ => simp [Fault.isMalformed]
  raises hn hf := by simp [hn.raises hf]
  ends_normal _ := trivial
  ends_returning _ _ := trivial
  ends_breaking _ := trivial
  ends_continuing _ := trivial
  ends_part _ _ := trivial
  jumping _ _ _ := by simp [Fault.isMalformed]

/-- Whatever a host runs, no error ever says that a statement, an expression or a function body is of
an unknown kind, that something cannot be assigned to, or that a unary operator is unknown: of the
parts that are not supported only optional and named parameters, named arguments, typed catch clauses
and loops in collections are come upon. -/
theorem runs_meet_only_known_constructs {s : Store} (hs : s.Reached) :
    (∀ u, Fault.unsupported u ∈ s.faults → u.occursInTexts = true) ∧
    ∀ op, Fault.mismatch (.unknownUnary op) ∉ s.faults := by
  have hnever := (Policy.regular.reached hs).faults
  refine ⟨fun u hu => ?_, fun op hop => hnever _ hop rfl⟩
  have hu' : ¬(!u.occursInTexts) = true := hnever _ hu
  simpa using hu'

end

/-- A program that stores a function, steps a variable and calls what it has stored. -/
theorem runs_meet_only_known_constructs_main :
    (∀ u, Fault.unsupported u ∈ (runMain "main() => [(x) => -x++][0](1);" [] Store.initial).store.faults →
      u.occursInTexts = true) ∧
    ∀ op, Fault.mismatch (.unknownUnary op) ∉
      (runMain "main() => [(x) => -x++][0](1);" [] Store.initial).store.faults :=
  runs_meet_only_known_constructs (.main _ _ (.fresh rfl rfl))

end Dartlet
