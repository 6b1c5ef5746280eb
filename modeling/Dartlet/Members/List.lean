import Dartlet.Equality
import Dartlet.Members.Sort

/-!
# Members of lists

What only lists can do: reach and change elements by their place, grow, shrink and be sorted.
-/

namespace Dartlet

open Dartlet.Action

namespace ListMethod

/-- Call a method of a list. -/
def run [Host] (c : Caller) (a : Address) (arguments : List Value) : ListMethod → Action Value
  | getAt => do
    let index ← intArgument "[]" (argument arguments 0)
    let store ← get
    let i ← checkIndex (store.list a).size index
    pure ((store.list a)[i]?.getD .null)
  | setAt => do
    let index ← intArgument "[]=" (argument arguments 0)
    let size := (← get).list a |>.size
    let i ← checkIndex size index
    modify (fun s => s.modifyList a (fun items => items.setIfInBounds i (argument arguments 1)))
    pure (argument arguments 1)
  | add => do
    modify (fun s => s.modifyList a (fun items => items.push (argument arguments 0)))
    pure .null
  | addAll => do
    let more ← itemsOf (argument arguments 0)
    modify (fun s => s.modifyList a (fun items => items ++ more.toArray))
    pure .null
  | insert => do
    let index ← intArgument "insert" (argument arguments 0)
    let size := (← get).list a |>.size
    let (place, _) ← checkRange size index index
    modify (fun s => s.modifyList a (fun items => items.insertIdxIfInBounds place (argument arguments 1)))
    pure .null
  | remove => do
    let items := (← get).list a
    match items.findIdx? (fun item => item.equals (argument arguments 0)) with
    | some i => do
      modify (fun s => s.setList a (items.eraseIdxIfInBounds i))
      pure (.bool true)
    | none => pure (.bool false)
  | removeAt => do
    let index ← intArgument "removeAt" (argument arguments 0)
    let items := (← get).list a
    let i ← checkIndex items.size index
    modify (fun s => s.setList a (items.eraseIdxIfInBounds i))
    pure (items[i]?.getD .null)
  | removeLast => do
    let last := ((← get).list a).back?
    match last with
    | some item => do
      modify (fun s => s.modifyList a (fun items => items.pop))
      pure item
    | none => escape .noElement
  | clear => do
    modify (fun s => s.setList a #[])
    pure .null
  | indexOf => do
    let items := (← get).list a
    pure (TextMethod.place (items.findIdx? (fun item => item.equals (argument arguments 0))))
  | sublist => do
    let items := (← get).list a
    let start ← intArgument "sublist" (argument arguments 0)
    let stop ← stopArgument "sublist" arguments items.size
    let (low, high) ← checkRange items.size start stop
    newList (items.extract low high)
  | sort => do
    match argument arguments 0 with
    | .null => Sort.sortList Sort.naturalLess a
    | function => do
      functionArgument "sort" function
      Sort.sortList (Sort.functionLess c function) a
    pure .null

end ListMethod

/-- The elements of a list from the last to the first. -/
def reversedList (a : Address) : Action Value := do
  let items := (← get).list a
  newIterable items.toList.reverse

end Dartlet
