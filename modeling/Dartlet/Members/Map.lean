import Dartlet.Equality
import Dartlet.Members.Arguments

/-!
# Members of maps

Maps keep their entries in the order in which the keys first came in.
-/

namespace Dartlet

open Dartlet.Action

/-- The value of a getter of a map. -/
def MapGetter.read (a : Address) (g : MapGetter) : Action Value := do
  let entries := (← get).map a
  match g with
  | length => pure (.int entries.length)
  | isEmpty => pure (.bool entries.isEmpty)
  | isNotEmpty => pure (.bool (!entries.isEmpty))
  | keys => newIterable (entries.map Prod.fst)
  | values => newIterable (entries.map Prod.snd)

namespace MapMethod

/-- Call a function on each of given entries. -/
def callEach (call : Value → List Value → Action Value) (function : Value) :
    List (Value × Value) → Action Unit
  | [] => pure ()
  | (key, value) :: rest => do
    let _ ← call function [key, value]
    callEach call function rest

/-- Call a method of a map. -/
def run (c : Caller) (a : Address) (arguments : List Value) : MapMethod → Action Value
  | getAt => do
    let entries := (← get).map a
    pure ((Entries.find? entries (argument arguments 0)).getD .null)
  | setAt => do
    let key := argument arguments 0
    let value := argument arguments 1
    modify (fun s => s.setMap a (Entries.put key value (s.map a)))
    pure value
  | containsKey => do
    let entries := (← get).map a
    pure (.bool (Entries.hasKey entries (argument arguments 0)))
  | containsValue => do
    let entries := (← get).map a
    pure (.bool (entries.any (fun e => e.2.equals (argument arguments 0))))
  | remove => do
    let entries := (← get).map a
    let key := argument arguments 0
    modify (fun s => s.setMap a (Entries.remove entries key))
    pure ((Entries.find? entries key).getD .null)
  | putIfAbsent => do
    let entries := (← get).map a
    let key := argument arguments 0
    match Entries.find? entries key with
    | some value => pure value
    | none => do
      let function := argument arguments 1
      functionArgument "putIfAbsent" function
      let value ← c.call function []
      modify (fun s => s.setMap a (Entries.put key value (s.map a)))
      pure value
  | addAll => do
    match argument arguments 0 with
    | .map b => do
      modify (fun s => s.setMap a (Entries.putAll (s.map a) (s.map b)))
      pure .null
    | other => fun s => mismatch (.badArgument "addAll" "a Map" (other.typeName s)) s
  | forEach => do
    let function := argument arguments 0
    functionArgument "forEach" function
    let entries := (← get).map a
    callEach c.call function entries
    pure .null
  | clear => do
    modify (fun s => s.setMap a [])
    pure .null

end MapMethod
end Dartlet
