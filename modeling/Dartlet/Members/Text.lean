import Dartlet.Arithmetic
import Dartlet.Members.Arguments
import Dartlet.Text.Blank
import Dartlet.Text.Case
import Dartlet.Text.Search

/-!
# Members of texts

Texts are sequences of characters; all places and lengths count characters.
-/

namespace Dartlet

open Dartlet.Action

variable [Host]

/-- The value of a getter of a text. -/
def TextGetter.read (text : String) : TextGetter → Action Value
  | length => pure (.int text.length)
  | isEmpty => pure (.bool text.isEmpty)
  | isNotEmpty => pure (.bool (!text.isEmpty))
  | codeUnits => newList (text.toList.map (fun c => .int c.toNat)).toArray

namespace TextMethod

/-- A place in a text, or -1. -/
def place : Option Nat → Value
  | some i => .int i
  | none => .int (-1)

/-- The order of two texts as a number: -1, 0 or 1. -/
def order (a b : String) : Int := if a < b then -1 else if b < a then 1 else 0

/-- The padding that a text needs for a width. -/
def padding (method : String) (text : String) (arguments : List Value) : Action String := do
  let width ← intArgument method (argument arguments 0)
  let fill ← match arguments[1]? with
    | some v => stringArgument method v
    | none => pure " "
  ofExcept (repeatText fill (max (width - text.length) 0))

/-- Call a method of a text. -/
def run (text : String) (arguments : List Value) : TextMethod → Action Value
  | substring => do
    let start ← intArgument "substring" (argument arguments 0)
    let stop ← stopArgument "substring" arguments text.length
    let (low, high) ← checkRange text.length start stop
    pure (.string (String.ofList ((text.toList.take high).drop low)))
  | toUpperCase => pure (.string (String.ofList (Text.toUpper text.toList)))
  | toLowerCase => pure (.string (String.ofList (Text.toLower text.toList)))
  | trim => pure (.string (String.ofList (Text.trim text.toList)))
  | trimLeft => pure (.string (String.ofList (Text.trimFront text.toList)))
  | trimRight => pure (.string (String.ofList (Text.trimBack text.toList)))
  | contains => do
    let part ← stringArgument "contains" (argument arguments 0)
    pure (.bool (Text.indexOf? part.toList text.toList).isSome)
  | startsWith => do
    let part ← stringArgument "startsWith" (argument arguments 0)
    pure (.bool (part.toList.isPrefixOf text.toList))
  | endsWith => do
    let part ← stringArgument "endsWith" (argument arguments 0)
    pure (.bool (part.toList.isSuffixOf text.toList))
  | indexOf => do
    let part ← stringArgument "indexOf" (argument arguments 0)
    pure (place (Text.indexOf? part.toList text.toList))
  | lastIndexOf => do
    let part ← stringArgument "lastIndexOf" (argument arguments 0)
    pure (place (Text.lastIndexOf? part.toList text.toList))
  | split => do
    let separator ← stringArgument "split" (argument arguments 0)
    newList ((Text.split separator.toList text.toList).map (fun p => .string (String.ofList p))).toArray
  | replaceAll => do
    let old ← stringArgument "replaceAll" (argument arguments 0)
    let new ← stringArgument "replaceAll" (argument arguments 1)
    pure (.string (String.ofList (Text.replaceAll old.toList new.toList text.toList)))
  | padLeft => do
    let fill ← padding "padLeft" text arguments
    pure (.string (fill ++ text))
  | padRight => do
    let fill ← padding "padRight" text arguments
    pure (.string (text ++ fill))
  | codeUnitAt => do
    let index ← intArgument "codeUnitAt" (argument arguments 0)
    let i ← checkIndex text.length index
    pure (.int ((text.toList[i]?.map Char.toNat).getD 0))
  | charAt => do
    let index ← intArgument "[]" (argument arguments 0)
    let i ← checkIndex text.length index
    pure (.string ((text.toList[i]?.map String.singleton).getD ""))
  | compareTo => do
    let other ← stringArgument "compareTo" (argument arguments 0)
    pure (.int (order text other))

end TextMethod
end Dartlet
