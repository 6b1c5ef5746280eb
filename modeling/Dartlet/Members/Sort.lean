import Dartlet.Members.Arguments
import Dartlet.Members.Number
import Dartlet.Members.Text

/-!
# Sorting lists

A list is sorted by finding the run at its front, turning it round if it descends, and inserting the
other elements one after the other behind all elements that are not above them. While the sort is
under way the list is empty; however the sort ends, the list then holds its elements in the order
reached so far.
-/

namespace Dartlet.Sort

open Dartlet.Action

/-- Put the elements of the list back if an action does not finish. -/
def keeping {α : Type} (a : Address) (items : Array Value) (x : Action α) : Action α := fun s =>
  match x s with
  | .done result s' => .done result s'
  | .raised e s' => .raised e (s'.setList a items)
  | .escaped f s' => .escaped f (s'.setList a items)
  | .exhausted s' => .exhausted (s'.setList a items)

/-- How many of the elements go on with a run that ends in `previous`: each is below the one before
it if the run descends, and none is if it does not. -/
def runLength (less : Value → Value → Action Bool) (descending : Bool) (previous : Value) :
    List Value → Action Nat
  | [] => pure 0
  | item :: rest => do
    if (← less item previous) == descending then
      let more ← runLength less descending item rest
      pure (more + 1)
    else pure 0

/-- The elements of the run at the front, in rising order, and the other elements. -/
def frontRun (less : Value → Value → Action Bool) (items : List Value) : Action (List Value × List Value) :=
  match items with
  | first :: second :: rest => do
    let descending ← less second first
    let more ← runLength less descending second rest
    let run := first :: second :: rest.take more
    pure (if descending then run.reverse else run, rest.drop more)
  | _ => pure (items, [])

/-- The place for an element in a sorted run, between two places, found by halving. -/
def insertionPoint (less : Value → Value → Action Bool) (pivot : Value) (run : Array Value) :
    Nat → Nat → Nat → Action Nat
  | 0, low, _ => pure low
  | limit + 1, low, high => do
    if low < high then
      let middle := low + (high - low) / 2
      if ← less pivot (run[middle]?.getD .null) then insertionPoint less pivot run limit low middle
      else insertionPoint less pivot run limit (middle + 1) high
    else pure low

/-- Insert elements into a sorted run, one after the other. -/
def insertAll (less : Value → Value → Action Bool) (a : Address) : Array Value → List Value → Action (Array Value)
  | run, [] => pure run
  | run, pivot :: rest => do
    let place ← keeping a (run ++ (pivot :: rest).toArray) (insertionPoint less pivot run run.size 0 run.size)
    insertAll less a (run.insertIdxIfInBounds place pivot) rest

/-- Put the sorted elements back. A list that is not empty by now was changed by the comparisons. -/
def finish (a : Address) (items : Array Value) : Action Unit := fun s =>
  if (s.list a).isEmpty then .done () (s.setList a items)
  else .escaped .sortedListChanged (s.setList a items)

/-- Sort a list. -/
def sortList (less : Value → Value → Action Bool) (a : Address) : Action Unit := do
  let store ← get
  let items := store.list a
  modify (fun s => s.setList a #[])
  let (run, rest) ← keeping a items (frontRun less items.toList)
  let sorted ← insertAll less a run.toArray rest
  finish a sorted

/-- Whether one value is below another in the order of numbers or of texts. -/
def naturalLess (left right : Value) : Action Bool :=
  match left, right with
  | .string x, .string y => pure (TextMethod.order x y < 0)
  | _, _ =>
    if left.isNumber && right.isNumber then pure (NumberMethod.order left right < 0)
    else fun s => mismatch (.notComparable (left.typeName s) (right.typeName s)) s

/-- Whether one value is below another by the result of a function: a negative whole number. -/
def functionLess (c : Caller) (function left right : Value) : Action Bool := do
  let result ← c.call function [left, right]
  let n ← intArgument "sort comparator result" result
  pure (n < 0)

end Dartlet.Sort
