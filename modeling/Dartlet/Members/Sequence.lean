import Dartlet.Equality
import Dartlet.Members.Arguments

/-!
# Members of lists, sets and iterables

Members with a callback walk over a list as it is at each step, so that the callback's changes to
the list are seen; sets and iterables are walked as they were at the beginning.
-/

namespace Dartlet

open Dartlet.Action

/-- Whether a walk goes on. -/
inductive Walk (β : Type) where
  | next (result : β)
  | stop (result : β)

/-- Walk over given values. -/
def walkItems {β : Type} (step : β → Value → Action (Walk β)) : List Value → β → Action β
  | [], result => pure result
  | item :: rest, result => do
    match ← step result item with
    | .next result => walkItems step rest result
    | .stop result => pure result

/-- Walk over a list from a place on, reading each element when its turn comes. -/
def walkList {β : Type} (step : β → Value → Action (Walk β)) (a : Address) : Nat → Nat → β → Action β
  | 0, _, _ => exhaust
  | rounds + 1, place, result => do
    let store ← get
    match (store.list a)[place]? with
    | none => pure result
    | some item =>
      match ← step result item with
      | .next result => walkList step a rounds (place + 1) result
      | .stop result => pure result

/-- Walk over a list, set or iterable. -/
def walk {β : Type} (rounds : Nat) (step : β → Value → Action (Walk β)) (source : Value) (init : β) :
    Action β :=
  match source with
  | .list a => walkList step a rounds 0 init
  | _ => do
    let items ← itemsOf source
    walkItems step items init

/-- The value of a getter of a list, set or iterable. -/
def SequenceGetter.read (source : Value) (g : SequenceGetter) : Action Value := do
  let items ← itemsOf source
  match g with
  | length => pure (.int items.length)
  | isEmpty => pure (.bool items.isEmpty)
  | isNotEmpty => pure (.bool (!items.isEmpty))
  | first => match items.head? with
    | some item => pure item
    | none => escape .noElement
  | last => match items.getLast? with
    | some item => pure item
    | none => escape .noElement

namespace SequenceMethod

/-- Call a function on each of given values. -/
def callEach (call : Value → List Value → Action Value) (function : Value) : List Value → Action Unit
  | [] => pure ()
  | item :: rest => do
    let _ ← call function [item]
    callEach call function rest

/-- Combine given values from the left. -/
def combine (call : Value → List Value → Action Value) (function : Value) : Value → List Value → Action Value
  | result, [] => pure result
  | result, item :: rest => do
    let next ← call function [result, item]
    combine call function next rest

/-- Call a method of a list, set or iterable. -/
def run [Host] (c : Caller) (source : Value) (arguments : List Value) : SequenceMethod → Action Value
  | contains => do
    let items ← itemsOf source
    pure (.bool (items.any (fun item => item.equals (argument arguments 0))))
  | elementAt => do
    let items ← itemsOf source
    let index ← intArgument "elementAt" (argument arguments 0)
    let i ← checkIndex items.length index
    pure (items[i]?.getD .null)
  | join => do
    let separator ← match arguments.head? with
      | some v => stringArgument "join" v
      | none => pure ""
    let items ← itemsOf source
    let texts ← textsOf items
    pure (.string (separator.intercalate texts))
  | map => do
    let function := argument arguments 0
    functionArgument "map" function
    let results ← walk c.rounds (fun (done : Array Value) item => do
      let v ← c.call function [item]
      pure (.next (done.push v))) source #[]
    newIterable results.toList
  | where_ => do
    let function := argument arguments 0
    functionArgument "where" function
    let results ← walk c.rounds (fun (done : Array Value) item => do
      let v ← c.call function [item]
      let keep ← boolResult "where" v
      pure (.next (if keep then done.push item else done))) source #[]
    newIterable results.toList
  | forEach => do
    let function := argument arguments 0
    functionArgument "forEach" function
    let items ← itemsOf source
    callEach c.call function items
    pure .null
  | any => do
    let function := argument arguments 0
    functionArgument "any" function
    let found ← walk c.rounds (fun (_ : Bool) item => do
      let v ← c.call function [item]
      let hit ← boolResult "any" v
      pure (if hit then .stop true else .next false)) source false
    pure (.bool found)
  | every => do
    let function := argument arguments 0
    functionArgument "every" function
    let all ← walk c.rounds (fun (_ : Bool) item => do
      let v ← c.call function [item]
      let hit ← boolResult "every" v
      pure (if hit then .next true else .stop false)) source true
    pure (.bool all)
  | fold => do
    let function := argument arguments 1
    functionArgument "fold" function
    walk c.rounds (fun result item => do
      let v ← c.call function [result, item]
      pure (.next v)) source (argument arguments 0)
  | reduce => do
    let items ← itemsOf source
    match items with
    | [] => escape .noElement
    | item :: rest =>
      let function := argument arguments 0
      functionArgument "reduce" function
      combine c.call function item rest
  | skip => do
    let items ← itemsOf source
    let count ← intArgument "skip" (argument arguments 0)
    newIterable (items.drop count.toNat)
  | take => do
    let items ← itemsOf source
    let count ← intArgument "take" (argument arguments 0)
    newIterable (items.take count.toNat)
  | toList => do
    let items ← itemsOf source
    newList items.toArray
  | toSet => do
    let items ← itemsOf source
    newSet (Members.ofList items)

end SequenceMethod
end Dartlet
