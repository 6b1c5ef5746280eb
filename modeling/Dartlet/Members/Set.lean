import Dartlet.Equality
import Dartlet.Members.Arguments

/-!
# Members of sets

What only sets can do: gain and lose members.
-/

namespace Dartlet.SetMethod

open Dartlet.Action

/-- Call a method of a set. -/
def run (a : Address) (arguments : List Value) : SetMethod → Action Value
  | add => do
    let members := (← get).set a
    let v := argument arguments 0
    if Members.has members v then pure (.bool false)
    else do
      modify (fun s => s.setSet a (members ++ [v]))
      pure (.bool true)
  | remove => do
    let members := (← get).set a
    let v := argument arguments 0
    if Members.has members v then do
      modify (fun s => s.setSet a (Members.remove members v))
      pure (.bool true)
    else pure (.bool false)
  | clear => do
    modify (fun s => s.setSet a [])
    pure .null

end Dartlet.SetMethod
