import Dartlet.Host.Function

/-!
# Places of errors

An error that leaves a construct is told the place of the construct, and keeps the first place that it is told. That is
the work of one of its methods, `attach_location`, which a program can assign like any attribute. What it has assigned is
called instead, and may do anything.
-/

namespace Dartlet

open Dartlet.Syntax (Location)

/-- What a program has put in the place of the method that is told places. -/
def ErrorRecord.hook? (e : ErrorRecord) : Option HostValue := tableFind? e.assigned "attach_location"

/-- What a program has put in the place of the method of an error that is told places. -/
def Store.hook? (s : Store) (a : Address) : Option HostValue := s.errors[a]?.bind ErrorRecord.hook?

/-- A place as data: a line and a column. -/
def placeData : Location → List HostValue
  | none => [.none, .none]
  | some p => [.int p.line, .int p.column]

namespace Action

/-- Tell an error a place. -/
def attach (c : Caller) (a : Address) (location : Location) : Action Unit := fun s =>
  match s.hook? a with
  | none => .done () (s.locate a location)
  | some f => (HostFunction.callData c f (placeData location) >>= fun _ => pure ()) s

/-- Raise an error out of a construct: it is told the place of the construct first. -/
def raiseFrom {α : Type} (c : Caller) (location : Location) (a : Address) : Action α := do
  attach c a location
  raise a

/-- Run what a construct does. An error that leaves it is told its place. -/
def within {α : Type} (c : Caller) (location : Location) (x : Action α) : Action α := fun s =>
  match x s with
  | .raised a s' => raiseFrom c location a s'
  | o => o

theorem attach_of_unhooked {c : Caller} {s : Store} {a : Address} {location : Location} (h : s.hook? a = none) :
    attach c a location s = .done () (s.locate a location) := by
  rw [attach, h]

theorem raiseFrom_of_unhooked {α : Type} {c : Caller} {s : Store} {a : Address} {location : Location}
    (h : s.hook? a = none) : (raiseFrom c location a : Action α) s = .raised a (s.locate a location) := by
  change Action.bind (attach c a location) _ s = _
  rw [Action.bind, attach_of_unhooked h]
  rfl

end Action
end Dartlet
