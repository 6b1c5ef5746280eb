import Dartlet.Arithmetic
import Dartlet.Members.Arguments
import Dartlet.Number.Parse

/-!
# Members of types

Constants of a type, and the ways in which a type makes values: from texts, from character codes,
and collections from counts, functions and other collections.
-/

namespace Dartlet

open Dartlet.Action

variable [Host]

/-- The value of a getter of a type. -/
def TypeGetter.read : TypeGetter → Action Value
  | infinity => pure (.double Number.infinity)
  | negativeInfinity => pure (.double Number.negativeInfinity)
  | nan => pure (.double Number.nan)
  | maxFinite => pure (.double Number.maxFinite)

namespace TypeMethod

/-- The number that a text denotes for a type. -/
def parsed? (t : BuiltinType) (text : String) : Option Value :=
  let asInt := (Number.parseInt? text.toList).map Value.int
  let asDouble := (Number.parseDouble? text.toList).map Value.double
  match t with
  | .int => asInt
  | .num => asInt <|> asDouble
  | _ => asDouble

/-- Why the host does not read a text as a number of a type: a whole number with too many decimal digits. -/
def refusal? (t : BuiltinType) (text : String) : Option HostFailure :=
  let digits := (Number.splitSign (Text.trim text.toList)).2
  if (t == .int || t == .num) && Host.refusesNumeral digits then some (.lengthyNumeral Host.digitLimit digits.length)
  else none

/-- Read a text as a number of a type. -/
def read (t : BuiltinType) (text : String) : Action (Option Value) :=
  match refusal? t text with
  | some f => escape f
  | none => pure (parsed? t text)

/-- The failure to read a text as a number of a type. -/
def badNumber (t : BuiltinType) (text : String) : HostFailure :=
  match t with
  | .int => .badInteger text
  | _ => .badDouble text

/-- The greatest code of a character, plus one. -/
def charCodeLimit : Int := 0x110000

/-- The character with a code, as a text. -/
def charText (code : Int) : Action Value :=
  if 0x80000000 ≤ code || code < -0x80000000 then escape .hugeCharCode
  else if code < 0 || charCodeLimit ≤ code then escape .badCharCode
  else pure (.string (String.singleton (Char.ofNat code.toNat)))

/-- Some number of equal elements. -/
def repeated (count : Int) (v : Value) : Action Value :=
  if count < 0 then escape (HostFailure.naming (.negativeCount count) [count])
  else if countLimit ≤ count then escape .countTooLarge
  else if Host.roomLimit ≤ count then escape .noRoom
  else newList (Array.replicate count.toNat v)

/-- The results of a function on some number of whole numbers in a row. -/
def generated (call : Value → List Value → Action Value) (function : Value) :
    Nat → Nat → Array Value → Action (Array Value)
  | 0, _, results => pure results
  | count + 1, i, results => do
    let v ← call function [.int i]
    generated call function count (i + 1) (results.push v)

/-- Call a method of a type. -/
def run (c : Caller) (t : BuiltinType) (arguments : List Value) : TypeMethod → Action Value
  | parse => do
    let text ← stringArgument (t.name ++ ".parse") (argument arguments 0)
    let number ← read t text
    match number with
    | some v => pure v
    | none => escape (badNumber t text)
  | tryParse => do
    let text ← stringArgument (t.name ++ ".tryParse") (argument arguments 0)
    let number ← read t text
    pure (number.getD .null)
  | fromCharCode => do
    let code ← intArgument "String.fromCharCode" (argument arguments 0)
    charText code
  | filled => do
    let count ← intArgument "List.filled" (argument arguments 0)
    repeated count (argument arguments 1)
  | generate => do
    let count ← intArgument "List.generate" (argument arguments 0)
    let function := argument arguments 1
    functionArgument "List.generate" function
    let results ← generated c.call function count.toNat 0 #[]
    newList results
  | from_ => do
    let items ← itemsOf (argument arguments 0)
    match t with
    | .set => newSet (Members.ofList items)
    | _ => newList items.toArray

end TypeMethod
end Dartlet
