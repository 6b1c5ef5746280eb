import Dartlet.Number.Compare
import Dartlet.Value

/-!
# Equality of values

Numbers are equal if their exact values are, whatever their kind; texts, booleans and types by
what they are; and everything with an identity only to itself. The operator `==` and the members
that look for an element compare values in one way; maps and sets compare keys in another one, in
which every kind of value has its own test.
-/

namespace Dartlet
namespace Value

/-- The order of two numbers, if both are numbers that can be ordered. -/
def compareNumbers? (a b : Value) : Option Ordering :=
  match a, b with
  | .int m, .int n => some (compare m n)
  | .int m, .double y => Number.compareInt? m y
  | .double x, .int n => (Number.compareInt? n x).map Ordering.swap
  | .double x, .double y => Number.compareFloat? x y
  | _, _ => none

/-- Equality of values, as `==` sees it. -/
def equals (a b : Value) : Bool :=
  match a, b with
  | .null, .null => true
  | .bool x, .bool y => x == y
  | .string x, .string y => x == y
  | .list x, .list y => x == y
  | .iterable x, .iterable y => x == y
  | .set x, .set y => x == y
  | .map x, .map y => x == y
  | .closure x, .closure y => x == y
  | .native x, .native y => x == y
  | .type x, .type y => x == y
  | .error x, .error y => x == y
  | .object x, .object y => x == y
  | a, b => a.compareNumbers? b == some .eq

/-- Whether two values are one key of a map, or one member of a set. A number is the same key as a
number of either kind with its exact value; any other value only as one of its own kind. A double that
is not a number is the same key as none here, where a host that asks for the same object first may
find it again; what is said of such keys elsewhere leaves both open. -/
def sameKey (a b : Value) : Bool :=
  match a, b with
  | .int m, .int n => m == n
  | .int n, .double x | .double x, .int n => Number.compareInt? n x == some .eq
  | .double x, .double y => Number.compareFloat? x y == some .eq
  | .null, .null => true
  | .bool x, .bool y => x == y
  | .string x, .string y => x == y
  | .type x, .type y => x == y
  | .list x, .list y | .iterable x, .iterable y | .set x, .set y | .map x, .map y => x == y
  | .closure x, .closure y | .native x, .native y => x == y
  | .error x, .error y | .object x, .object y => x == y
  | _, _ => false

/-- Whether two values are the same. Unlike `==`, this tells whole numbers from doubles. -/
def identical (a b : Value) : Bool :=
  match a, b with
  | .int _, .double _ => false
  | .double _, .int _ => false
  | a, b => a.equals b

end Value

namespace Members

/-- Whether a value is among the members of a set. -/
def has (members : List Value) (v : Value) : Bool := members.any (fun m => m.sameKey v)

/-- Add a member at the end, unless it is there. -/
def add (members : List Value) (v : Value) : List Value := if has members v then members else members ++ [v]

/-- Remove a member. -/
def remove (members : List Value) (v : Value) : List Value := members.eraseP (fun m => m.sameKey v)

/-- The values that are no earlier ones. -/
def ofList (values : List Value) : List Value := values.foldl add []

end Members

namespace Entries

/-- The value of a key. -/
def find? (entries : List (Value × Value)) (key : Value) : Option Value :=
  match entries.find? (fun e => e.1.sameKey key) with
  | some e => some e.2
  | none => none

/-- Whether a map has a key. -/
def hasKey (entries : List (Value × Value)) (key : Value) : Bool := entries.any (fun e => e.1.sameKey key)

/-- Store a value under a key. A key that is there keeps its place and its form. -/
def put (key value : Value) : List (Value × Value) → List (Value × Value)
  | [] => [(key, value)]
  | e :: rest => if e.1.sameKey key then (e.1, value) :: rest else e :: put key value rest

/-- Remove the entry of a key. -/
def remove (entries : List (Value × Value)) (key : Value) : List (Value × Value) :=
  entries.eraseP (fun e => e.1.sameKey key)

/-- Store the entries of one map into another, in order. -/
def putAll (entries : List (Value × Value)) (more : List (Value × Value)) : List (Value × Value) :=
  more.foldl (fun es e => put e.1 e.2 es) entries

end Entries
end Dartlet
