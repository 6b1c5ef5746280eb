import Dartlet.Host.Standard
import Dartlet.Proofs.Parallel.Runs
import Dartlet.Proofs.Parallel.Self

/-!
# Failures that escape

A failure outside the language that comes up inside a built-in member, or inside an object of the host,
becomes an error of the language, which clauses handle and after which blocks run. Operators, the writing of values and the
conversion of data for the host run outside of members as well, so their own failures pass every clause and
every block by and end the whole run. There are no others.
-/

namespace Dartlet

open Dartlet.Action
open Dartlet.Syntax (Expr Node Stmt)

set_option linter.unusedSectionVars false

section

variable [Host]

/-- The failure outside the language with which an action ends, if it ends so. -/
def Outcome.failure? {α : Type} : Outcome α → Option HostFailure
  | .escaped f _ => some f
  | _ => none

theorem Outcome.eq_escaped {α : Type} {o : Outcome α} {f : HostFailure} (h : o.failure? = some f) :
    o = .escaped f o.store := by
  cases o with
  | escaped g s =>
    cases h
    rfl
  | _ => cases h

namespace Comparison

/-- The comparison of any run with itself. -/
def plain : Comparison := exact false false (fun _ => True)

theorem plain_unrestricted : plain.Unrestricted := ⟨fun _ => trivial, fun _ => rfl, rfl, rfl, rfl⟩

theorem agrees_plain (level : Nat) : plain.Agrees plain_unrestricted.anything (interpreter level) (interpreter level) :=
  plain_unrestricted.agrees level

theorem parallel_plain (s : Store) : plain.Parallel s s :=
  tables_self (exact_known s) (fun _ _ => trivial) (fun _ _ _ _ => rfl) nofun

/-- A failure that leaves an action outside the code of the host. -/
theorem Alike.escaping {α β : Type} {Q : Store → Store → α → β → Prop} {x : Action α} {y : Action β} {s t : Store}
    {f : HostFailure} (h : plain.Alike false Q s s x y) (hx : x s = .escaped f t) : f.isEscaping = true := by
  have hmatches := h (parallel_plain s)
  rw [hx] at hmatches
  generalize y s = o at hmatches
  cases hmatches with
  | escaped hfail _ => exact hfail.resolve_left nofun

end Comparison

/-- Whatever is run, in whatever store, the failures outside the language that leave the evaluator are those of operators
on numbers that are too large for a double, of texts and repetitions that would be too long, of numbers with too many digits
to be written, of data for the host that cannot be a key, of the attribute that is called to place an error and is no
function, and endless nesting. A program ends with a value, is refused, ends with an error of the language, or with one of
these failures, unless the levels do not suffice. -/
theorem only_limits_of_the_host_escape (s : Store) (f : HostFailure) :
    (∀ (level : Nat) (c : Context) (t : Store),
      (∀ x : Expr, (interpreter level).eval c x s = .escaped f t → f.isEscaping = true) ∧
      (∀ x : Stmt, (interpreter level).exec c x s = .escaped f t → f.isEscaping = true) ∧
      ∀ (g : Value) (arguments : List Value),
        (interpreter level).call c.depth g arguments s = .escaped f t → f.isEscaping = true) ∧
    ∀ (source : String) (arguments : List String),
      (runMain source arguments s).result = .error (.escaped f) → f.isEscaping = true := by
  refine ⟨fun level c t => ⟨fun x hx => ?_, fun x hx => ?_, fun g arguments hcall => ?_⟩,
    fun source arguments hmain => ?_⟩
  · exact ((Comparison.agrees_plain level).eval trivial trivial).alike.escaping hx
  · exact ((Comparison.agrees_plain level).exec trivial trivial).alike.escaping hx
  · have hknown (v : Value) : v.Known (Comparison.plain.Known s) := Value.known_of_forall (Comparison.exact_known s) v
    exact ((Comparison.agrees_plain level).call (hknown g) (fun v _ => hknown v)).escaping hcall
  · have hconcludes : Comparison.plain.Concludes _ (runMain source arguments s) _ :=
      Comparison.concludes_runMain (Comparison.agrees_plain levelLimit) rfl (Shift.apply_stay _) trivial
        (fun _ _ => trivial) arguments (Comparison.parallel_plain s) rfl
    generalize runMain source arguments s = r at hmain hconcludes
    cases hconcludes <;> cases hmain
    assumption

/-- A statement that adds a number that is too large for a double to one, inside a clause and with a
block after it. -/
def overflowing : Stmt :=
  let printing (x : Expr) : Stmt := .expression none (.call none (.identifier none "print") [.positional x])
  .trying none
    (.block none [printing (.binary none .add (.intLiteral none (Number.tenTo 400)) (.doubleLiteral none 0.5))])
    [.mk none (.block none [printing (.stringLiteral none "caught")]) none (some "e") none]
    (some (.block none [printing (.stringLiteral none "finally")]))

end

/-- The failure passes the clause and the block by: nothing is printed. -/
theorem only_limits_of_the_host_escape_overflowing :
    ((interpreter 9).exec ⟨rootScope, 0⟩ overflowing Store.initial).failure? = some .intTooLarge ∧
    ((interpreter 9).exec ⟨rootScope, 0⟩ overflowing Store.initial).store.output = "" ∧
    HostFailure.intTooLarge.isEscaping = true := by
  have hfails : ((interpreter 9).exec ⟨rootScope, 0⟩ overflowing Store.initial).failure? = some .intTooLarge := by
    decide +kernel
  refine ⟨hfails, by decide +kernel, ?_⟩
  exact ((only_limits_of_the_host_escape Store.initial _).1 9 ⟨rootScope, 0⟩ _).2.1 overflowing (Outcome.eq_escaped hfails)

end Dartlet
