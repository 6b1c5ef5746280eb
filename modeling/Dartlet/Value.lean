/-!
# Values

The values of running programs. Numbers, texts, booleans and null are themselves; everything that
has an identity is an address into the store.
-/

namespace Dartlet

/-- The types that programs can name. -/
inductive BuiltinType where
  | int | double | num | bool | string | list | map | set
  deriving DecidableEq, Repr

def BuiltinType.name : BuiltinType → String
  | .int => "int"
  | .double => "double"
  | .num => "num"
  | .bool => "bool"
  | .string => "String"
  | .list => "List"
  | .map => "Map"
  | .set => "Set"

/-- All types that programs can name. -/
def BuiltinType.all : List BuiltinType := [.int, .double, .num, .bool, .string, .list, .map, .set]

/-- A place in one of the tables of the store. -/
abbrev Address := Nat

/-- The values of programs. -/
inductive Value where
  | null
  | bool (b : Bool)
  | int (n : Int)
  | double (x : Float)
  | string (s : String)
  | list (address : Address)
  | iterable (address : Address)
  | set (address : Address)
  | map (address : Address)
  | closure (address : Address)
  | native (address : Address)
  | type (t : BuiltinType)
  /-- A caught error of the language. -/
  | error (address : Address)
  /-- Any other object of the host. -/
  | object (address : Address)
  deriving Inhabited

namespace Value

/-- Whether a value is a number. -/
def isNumber : Value → Bool
  | .int _ | .double _ => true
  | _ => false

/-- Whether a value can be called. -/
def isFunction : Value → Bool
  | .closure _ | .native _ => true
  | _ => false

end Value

/-- Data of the host, as programs' values become when they are handed over. -/
inductive HostValue where
  | none
  | bool (b : Bool)
  | int (n : Int)
  | float (x : Float)
  | text (s : String)
  | list (items : List HostValue)
  | set (items : List HostValue)
  | dict (entries : List (HostValue × HostValue))
  /-- A function of the program. -/
  | callback (function : Value)
  /-- A value that is handed over unchanged. -/
  | value (v : Value)

instance : Inhabited HostValue := ⟨.none⟩

end Dartlet
