import Dartlet.Action

/-!
# Arguments of members

What members require of their arguments and of the results of callbacks, and the elements of the
values that members can walk over.
-/

namespace Dartlet

/-- How members call functions of the program, and how many rounds a walk over a list that the
functions let grow may take. -/
structure Caller where
  call : Value → List Value → Action Value
  rounds : Nat

namespace Action

/-- A whole number argument. -/
def intArgument (method : String) (v : Value) : Action Int :=
  match v with
  | .int n => pure n
  | _ => fun s => mismatch (.badArgument method "an int" (v.typeName s)) s

/-- A number argument. -/
def numArgument (method : String) (v : Value) : Action Unit :=
  if v.isNumber then pure ()
  else fun s => mismatch (.badArgument method "a num" (v.typeName s)) s

/-- A text argument. -/
def stringArgument (method : String) (v : Value) : Action String :=
  match v with
  | .string t => pure t
  | _ => fun s => mismatch (.badArgument method "a String" (v.typeName s)) s

/-- A function argument. -/
def functionArgument (method : String) (v : Value) : Action Unit :=
  if v.isFunction then pure ()
  else fun s => mismatch (.badArgument method "a function" (v.typeName s)) s

/-- A truth value that a callback must return. -/
def boolResult (method : String) (v : Value) : Action Bool :=
  match v with
  | .bool b => pure b
  | _ => fun s => mismatch (.badCallbackResult method (v.typeName s)) s

/-- The elements of a list, iterable or set. -/
def itemsOf (v : Value) : Action (List Value) := fun s =>
  match v with
  | .list a => .done (s.list a).toList s
  | .iterable a => .done (s.iterable a) s
  | .set a => .done (s.set a) s
  | _ => mismatch (.notIterable (v.typeName s)) s

variable [Host]

/-- An index that must lie within a length. -/
def checkIndex (length : Nat) (index : Int) : Action Nat :=
  if 0 ≤ index && index < length then pure index.toNat
  else if length == 0 then escape (HostFailure.naming (.emptyRange index) [index])
  else escape (HostFailure.naming (.outsideRange 0 ((length : Int) - 1) index) [(length : Int) - 1, index])

/-- A stretch that must lie within a length. -/
def checkRange (length : Nat) (start stop : Int) : Action (Nat × Nat) :=
  if !(0 ≤ start && start ≤ length) then escape (HostFailure.naming (.outsideRange 0 length start) [length, start])
  else if !(start ≤ stop && stop ≤ length) then
    escape (HostFailure.naming (.outsideRange start length stop) [start, length, stop])
  else pure (start.toNat, stop.toNat)

/-- The argument in a place, null if there is none. -/
def argument (arguments : List Value) (i : Nat) : Value := arguments[i]?.getD .null

/-- The end of a stretch: an optional whole number argument, or else the whole length. -/
def stopArgument (method : String) (arguments : List Value) (length : Nat) : Action Int :=
  match (arguments[1]? : Option Value) with
  | none => pure (length : Int)
  | some .null => pure (length : Int)
  | some v => intArgument method v

end Action
end Dartlet
