import Dartlet.Fault
import Dartlet.Member
import Dartlet.Syntax.Program

/-!
# The store

Everything of a running program that can change or has an identity: scopes, collections, functions,
errors and objects of the host, together with what has been printed and what is left to read.
-/

namespace Dartlet

open Dartlet.Syntax (FunctionBody Location)

/-- One lexical scope: names with their values, in the order of their declaration, the scope
around it, and the error that a catch clause with this scope is handling. -/
structure Scope where
  parent : Option Address
  bindings : List (String × Value)
  activeError : Option Address := none

instance : Inhabited Scope := ⟨⟨none, [], none⟩⟩

/-- A function of the program with the scope in which it was made. -/
structure Closure where
  name : Option String
  parameters : List String
  body : FunctionBody
  scope : Address

/-- What an object of the host can do when it is called. -/
inductive HostMethod where
  | norm2 | explode
  | nextInt | nextDouble | nextBool
  | readLineSync
  deriving DecidableEq, Repr

/-- Methods of errors, as the host sees them. -/
inductive ErrorMethod where
  | attachLocation | withTraceback | addNote
  deriving DecidableEq, Repr

/-- Functions of the host. -/
inductive HostFunction where
  /-- A function of the program that the host holds. -/
  | callback (function : Value)
  | makePoint
  | makeRandom
  | applyTwice
  | echo
  | method (object : Address) (m : HostMethod)
  | errorMethod (error : Address) (m : ErrorMethod)

/-- What a native function runs. -/
inductive NativeCode where
  | print
  | identical
  /-- A method taken from its receiver without being called. -/
  | bound (receiver : Value) (method : Method)
  | host (function : HostFunction)

/-- A native function. -/
structure NativeFunction where
  name : String
  code : NativeCode

/-- An error that has been raised. Its place is set once, by the first construct that it leaves. -/
structure ErrorRecord where
  fault : Fault
  line : HostValue := .none
  column : HostValue := .none
  located : Bool := false
  /-- Attributes that the program has assigned. -/
  assigned : List (String × HostValue) := []

/-- The kinds of host objects. -/
inductive HostClass where
  | point | plain | bag
  | random (state : Nat)
  | stdin

def HostClass.name : HostClass → String
  | point => "Point"
  | plain => "Plain"
  | bag => "Bag"
  | random _ => "Random"
  | stdin => "Stdin"

/-- An object of the host with its attributes. -/
structure HostObject where
  kind : HostClass
  attributes : List (String × HostValue) := []

/-- The state of a running program. -/
structure Store where
  scopes : Array Scope := #[]
  lists : Array (Array Value) := #[]
  iterables : Array (List Value) := #[]
  sets : Array (List Value) := #[]
  maps : Array (List (Value × Value)) := #[]
  closures : Array Closure := #[]
  natives : Array NativeFunction := #[]
  errors : Array ErrorRecord := #[]
  objects : Array HostObject := #[]
  /-- Names that the host provides behind all scopes. -/
  globals : List (String × Value) := []
  /-- What has been printed. -/
  output : String := ""
  /-- What is left of the standard input. -/
  input : List Char := []

namespace Store

/-- The elements of a list. -/
def list (s : Store) (a : Address) : Array Value := s.lists[a]?.getD #[]

/-- The elements of an iterable. -/
def iterable (s : Store) (a : Address) : List Value := s.iterables[a]?.getD []

/-- The members of a set, in the order of insertion. -/
def set (s : Store) (a : Address) : List Value := s.sets[a]?.getD []

/-- The entries of a map, in the order of insertion. -/
def map (s : Store) (a : Address) : List (Value × Value) := s.maps[a]?.getD []

/-- The scope with an address. -/
def scope (s : Store) (a : Address) : Scope := s.scopes[a]?.getD ⟨none, [], none⟩

def addScope (s : Store) (scope : Scope) : Address × Store :=
  (s.scopes.size, { s with scopes := s.scopes.push scope })

def addList (s : Store) (items : Array Value) : Value × Store :=
  (.list s.lists.size, { s with lists := s.lists.push items })

def addIterable (s : Store) (items : List Value) : Value × Store :=
  (.iterable s.iterables.size, { s with iterables := s.iterables.push items })

def addSet (s : Store) (members : List Value) : Value × Store :=
  (.set s.sets.size, { s with sets := s.sets.push members })

def addMap (s : Store) (entries : List (Value × Value)) : Value × Store :=
  (.map s.maps.size, { s with maps := s.maps.push entries })

def addClosure (s : Store) (c : Closure) : Value × Store :=
  (.closure s.closures.size, { s with closures := s.closures.push c })

def addNative (s : Store) (f : NativeFunction) : Value × Store :=
  (.native s.natives.size, { s with natives := s.natives.push f })

def addError (s : Store) (f : Fault) : Address × Store :=
  (s.errors.size, { s with errors := s.errors.push { fault := f } })

def addObject (s : Store) (o : HostObject) : Value × Store :=
  (.object s.objects.size, { s with objects := s.objects.push o })

def setList (s : Store) (a : Address) (items : Array Value) : Store :=
  { s with lists := s.lists.setIfInBounds a items }

def setSet (s : Store) (a : Address) (members : List Value) : Store :=
  { s with sets := s.sets.setIfInBounds a members }

def setMap (s : Store) (a : Address) (entries : List (Value × Value)) : Store :=
  { s with maps := s.maps.setIfInBounds a entries }

/-- Change a list in place. -/
def modifyList (s : Store) (a : Address) (f : Array Value → Array Value) : Store :=
  { s with lists := s.lists.modify a f }

def modifyError (s : Store) (a : Address) (f : ErrorRecord → ErrorRecord) : Store :=
  { s with errors := s.errors.modify a f }

def modifyObject (s : Store) (a : Address) (f : HostObject → HostObject) : Store :=
  { s with objects := s.objects.modify a f }

/-- The fault of an error that was raised. -/
def fault (s : Store) (a : Address) : Fault :=
  match s.errors[a]? with
  | some e => e.fault
  | none => .message ""

/-- Set the place of an error, unless it has one. -/
def locate (s : Store) (a : Address) (location : Location) : Store :=
  match location with
  | none => s
  | some p => s.modifyError a (fun e =>
    if e.located then e
    else { e with line := .int p.line, column := .int p.column, located := true })

end Store
end Dartlet
