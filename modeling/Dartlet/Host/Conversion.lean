import Dartlet.Action
import Dartlet.Equality

/-!
# Values and data of the host

Values that are handed to the host become its data, and its data become values again. On the way
there lists and iterables become lists; functions become new functions; and members of sets and
keys of maps are told apart by the host's equality, for which truth values are numbers.
-/

namespace Dartlet

namespace HostValue

/-- Host data as a number, if it is one. Truth values are the numbers one and zero. -/
def number? : HostValue → Option Value
  | .bool b => some (.int (if b then 1 else 0))
  | .int n => some (.int n)
  | .float x => some (.double x)
  | _ => Option.none

/-- Equality of host data that may be a key. -/
def same (a b : HostValue) : Bool :=
  match a, b with
  | .none, .none => true
  | .text s, .text t => s == t
  | .value v, .value w => v.equals w
  | a, b =>
    match a.number?, b.number? with
    | some m, some n => m.equals n
    | _, _ => false

/-- The kind of host data in the host's messages. -/
def kindName (s : Store) : HostValue → String
  | .none => "NoneType"
  | .bool _ => "bool"
  | .int _ => "int"
  | .float _ => "float"
  | .text _ => "str"
  | .list _ => "list"
  | .set _ => "set"
  | .dict _ => "dict"
  | .callback _ => "function"
  | .value v => v.typeName s

/-- Data that must be fit for a key. -/
def asKey (h : HostValue) : Except HostFailure HostValue :=
  match h with
  | .list _ => .error (.unhashable "list")
  | .set _ => .error (.unhashable "set")
  | .dict _ => .error (.unhashable "dict")
  | h => .ok h

/-- Add a member to a set of the host, unless an equal one is there. -/
def addMember (members : List HostValue) (h : HostValue) : List HostValue :=
  if members.any (fun m => m.same h) then members else members ++ [h]

/-- Store a value under a key. A key that is there keeps its place and its form. -/
def putEntry (key value : HostValue) : List (HostValue × HostValue) → List (HostValue × HostValue)
  | [] => [(key, value)]
  | e :: rest => if e.1.same key then (e.1, value) :: rest else e :: putEntry key value rest

end HostValue

/-- A value as data of the host, with collections at most `limit` deep. -/
def Value.toHostWithin (s : Store) : Nat → Value → Except HostFailure HostValue
  | _, .null => .ok .none
  | _, .bool b => .ok (.bool b)
  | _, .int n => .ok (.int n)
  | _, .double x => .ok (.float x)
  | _, .string t => .ok (.text t)
  | _, .closure a => .ok (.callback (.closure a))
  | _, .native a => .ok (.callback (.native a))
  | _, .type t => .ok (.value (.type t))
  | _, .error a => .ok (.value (.error a))
  | _, .object a => .ok (.value (.object a))
  | 0, _ => .error .endlessNesting
  | limit + 1, .list a => ((s.list a).toList.mapM (toHostWithin s limit)).map .list
  | limit + 1, .iterable a => ((s.iterable a).mapM (toHostWithin s limit)).map .list
  | limit + 1, .set a =>
    ((s.set a).foldlM (fun members v => do
      let h ← toHostWithin s limit v
      let key ← h.asKey
      .ok (HostValue.addMember members key)) []).map .set
  | limit + 1, .map a =>
    ((s.map a).foldlM (fun entries (e : Value × Value) => do
      let h ← toHostWithin s limit e.1
      let value ← toHostWithin s limit e.2
      let key ← h.asKey
      .ok (HostValue.putEntry key value entries)) []).map .dict

/-- A value as data of the host. A collection that holds itself never ends. -/
def Value.toHost (s : Store) (v : Value) : Except HostFailure HostValue :=
  v.toHostWithin s (Value.nestingLimit s)

namespace Action

/-- Hand a value to the host. -/
def toHost (v : Value) : Action HostValue := fun s =>
  match v.toHost s with
  | .ok h => .done h s
  | .error f => .escaped f s

/-- Hand several values to the host. -/
def toHostAll : List Value → Action (List HostValue)
  | [] => pure []
  | v :: rest => do
    let h ← toHost v
    let hs ← toHostAll rest
    pure (h :: hs)

mutual

/-- Take data of the host over as a value. -/
def fromHost : HostValue → Action Value
  | .none => pure .null
  | .bool b => pure (.bool b)
  | .int n => pure (.int n)
  | .float x => pure (.double x)
  | .text t => pure (.string t)
  | .callback function => newNative "<lambda>" (.host (.callback function))
  | .value v => pure v
  | .list items => do
    let values ← fromHostAll items
    newList values.toArray
  | .set items => do
    let values ← fromHostAll items
    newSet (Members.ofList values)
  | .dict entries => do
    let pairs ← fromHostEntries entries
    newMap (Entries.putAll [] pairs)

/-- Take several data of the host over. -/
def fromHostAll : List HostValue → Action (List Value)
  | [] => pure []
  | h :: rest => do
    let v ← fromHost h
    let vs ← fromHostAll rest
    pure (v :: vs)

/-- Take the entries of a table of the host over. -/
def fromHostEntries : List (HostValue × HostValue) → Action (List (Value × Value))
  | [] => pure []
  | (key, value) :: rest => do
    let k ← fromHost key
    let v ← fromHost value
    let more ← fromHostEntries rest
    pure ((k, v) :: more)

end

end Action
end Dartlet
