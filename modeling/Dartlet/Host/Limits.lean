import Dartlet.Fault
import Dartlet.Number.Shortest
import Dartlet.Text.Digit

/-!
# What the host decides

How much the host can take, and what it makes up by itself. Nothing here belongs to the language: all that is
told of programs holds whatever a host decides.
-/

namespace Dartlet

/-- What the host decides. -/
class Host where
  /-- The calls of functions and methods that may be under way at once. -/
  callLimit : Nat
  callLimit_pos : 0 < callLimit
  /-- How deep collections may nest that are written as a text. -/
  nestingLimit : Nat
  /-- The digits that a whole number may have that is written, or read, in decimal. -/
  digitLimit : Nat
  digitLimit_pos : 0 < digitLimit
  /-- The least number of characters or elements for which there is no room. -/
  roomLimit : Nat
  /-- The trace of an error as a text. -/
  trace : String
  /-- The state in which a source of random numbers begins: by the data that it is given, and by the number of
  objects that there are already. -/
  seed : HostValue → Nat → Nat
  /-- A number that is drawn from a source of random numbers, and the next state of the source. -/
  draw : Nat → Nat × Nat

namespace Host

variable [Host]

/-- Whether the host refuses to write a whole number in decimal. -/
def refusesNumber (n : Int) : Bool := decide (digitLimit < Number.digitCount n.natAbs)

/-- Whether the host refuses to read a whole number. Only decimal digits are counted. -/
def refusesNumeral (text : List Char) : Bool := text.all Text.isDigit && decide (digitLimit < text.length)

end Host

/-- A failure whose message has whole numbers in it. If the host refuses to write one of them, that is the failure. -/
def HostFailure.naming [Host] (f : HostFailure) (numbers : List Int) : HostFailure :=
  if numbers.any Host.refusesNumber then .lengthyNumber Host.digitLimit else f

theorem HostFailure.naming_singleton [Host] (f : HostFailure) (n : Int) :
    f.naming [n] = if Host.refusesNumber n then .lengthyNumber Host.digitLimit else f := by
  rw [naming, List.any_cons, List.any_nil, Bool.or_false]

end Dartlet
