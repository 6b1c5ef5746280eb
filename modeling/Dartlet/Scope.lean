import Dartlet.Store
import Dartlet.Text.Quoted

/-!
# Scopes

Looking a name up finds its nearest binding on the way outward; assigning changes that binding and
declaring binds in the scope itself. The scope around another one is older, so the number of scopes
bounds every way outward.
-/

namespace Dartlet

namespace Scope

/-- The value of a name in one scope. -/
def find? (scope : Scope) (name : String) : Option Value :=
  match scope.bindings.find? (fun b => b.1 == name) with
  | some b => some b.2
  | none => none

/-- Whether one scope binds a name. -/
def binds (scope : Scope) (name : String) : Bool := scope.bindings.any (fun b => b.1 == name)

/-- Bind a name in a list of bindings. A name that is there already keeps its place. -/
def put (name : String) (value : Value) : List (String × Value) → List (String × Value)
  | [] => [(name, value)]
  | b :: rest => if b.1 == name then (name, value) :: rest else b :: put name value rest

/-- Bind a name in one scope. -/
def bind (scope : Scope) (name : String) (value : Value) : Scope :=
  { scope with bindings := put name value scope.bindings }

/-- The names of one scope, in order. -/
def names (scope : Scope) : List String := scope.bindings.map Prod.fst

/-- A scope in its inspected form: its names, sorted. -/
def inspect (scope : Scope) : String :=
  let sorted := scope.names.mergeSort (fun a b => a ≤ b)
  "Environment([" ++ ", ".intercalate (sorted.map Text.quoted) ++ "])"

end Scope

namespace Store

/-- The addresses of a scope and those around it, innermost first, at most `limit` of them. -/
def chainFrom (s : Store) : Nat → Address → List Address
  | 0, _ => []
  | limit + 1, a =>
    match (s.scope a).parent with
    | none => [a]
    | some parent => a :: chainFrom s limit parent

/-- The addresses of a scope and those around it, innermost first. -/
def chain (s : Store) (a : Address) : List Address := s.chainFrom s.scopes.size a

/-- The nearest scope that binds a name, within `limit` steps outward. -/
def ownerFrom? (s : Store) (name : String) : Nat → Address → Option Address
  | 0, _ => none
  | limit + 1, a =>
    if (s.scope a).binds name then some a
    else
      match (s.scope a).parent with
      | none => none
      | some parent => ownerFrom? s name limit parent

/-- The nearest scope that binds a name. -/
def owner? (s : Store) (a : Address) (name : String) : Option Address :=
  s.ownerFrom? name s.scopes.size a

/-- The value of a name. -/
def lookup? (s : Store) (a : Address) (name : String) : Option Value :=
  (s.owner? a name).bind (fun owner => (s.scope owner).find? name)

/-- Whether a name has a value. -/
def isBound (s : Store) (a : Address) (name : String) : Bool := (s.owner? a name).isSome

/-- Bind a name in a scope. -/
def declare (s : Store) (a : Address) (name : String) (value : Value) : Store :=
  { s with scopes := s.scopes.modify a (fun scope => scope.bind name value) }

/-- Assign to the nearest binding of a name. -/
def update? (s : Store) (a : Address) (name : String) (value : Value) : Option Store :=
  (s.owner? a name).map (fun owner => s.declare owner name value)

/-- A new scope inside another one. -/
def enter (s : Store) (parent : Address) : Address × Store := s.addScope ⟨some parent, [], none⟩

/-- Bind several names in a scope, one after the other. -/
def declareAll (s : Store) (a : Address) : List (String × Value) → Store
  | [] => s
  | b :: rest => declareAll (s.declare a b.1 b.2) a rest

/-- The error that the nearest catch clause around a scope is handling, within `limit` steps. -/
def handledFrom? (s : Store) : Nat → Address → Option Address
  | 0, _ => none
  | limit + 1, a =>
    match (s.scope a).activeError with
    | some error => some error
    | none =>
      match (s.scope a).parent with
      | none => none
      | some parent => handledFrom? s limit parent

/-- The error that the nearest catch clause around a scope is handling. -/
def handledError? (s : Store) (a : Address) : Option Address := s.handledFrom? s.scopes.size a

/-- Mark a scope as that of a clause that handles an error. -/
def setActiveError (s : Store) (a error : Address) : Store :=
  { s with scopes := s.scopes.modify a (fun scope => { scope with activeError := some error }) }

end Store
end Dartlet
