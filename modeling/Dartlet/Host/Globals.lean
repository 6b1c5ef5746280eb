import Dartlet.Host.Reflection
import Dartlet.Scope

/-!
# Names that the host provides

The names behind all scopes, the names of the outermost scope, and the extra names that a host may
put there: a source of random numbers with the standard input, and a set of sample objects and
functions.
-/

namespace Dartlet

/-- Add several natives, each under its own name. -/
def Store.addNatives (s : Store) : List (String × NativeCode) → List (String × Value) × Store
  | [] => ([], s)
  | (name, code) :: rest =>
    match s.addNative ⟨name, code⟩ with
    | (v, s) =>
      match addNatives s rest with
      | (more, s) => ((name, v) :: more, s)

/-- The outermost scope of a program, which is the first scope of the store. -/
def rootScope : Address := 0

/-- A store with the names that every program has: those behind all scopes, and `print` in the
outermost one. -/
def Store.initial : Store :=
  match Store.addNatives {} [("identical", .identical), ("print", .print)] with
  | (names, s) =>
    let types := BuiltinType.all.map (fun t => (t.name, Value.type t))
    { s with
      globals := names.filter (fun n => n.1 == "identical") ++ types,
      scopes := #[⟨none, names.filter (fun n => n.1 == "print"), none⟩] }

/-- Add a name behind all scopes. -/
def Store.withGlobal (s : Store) (name : String) (v : Value) : Store :=
  { s with globals := s.globals ++ [(name, v)] }

/-- Bind names in the outermost scope. -/
def Store.withNames (s : Store) (names : List (String × Value)) : Store := s.declareAll rootScope names

/-- Add `Random` and `stdin`, which reads the given text. -/
def Store.withConsole (s : Store) (input : String) : Store :=
  match s.addNatives [("Random", .host .makeRandom)] with
  | (names, s) =>
    match s.addObject { kind := .stdin } with
    | (stdin, s) => { s.withNames (names ++ [("stdin", stdin)]) with input := input.toList }

/-- Add the sample objects and functions. -/
def Store.withSamples (s : Store) : Store :=
  match s.addObject { kind := .point, attributes := [("x", .int 3), ("y", .int 4)] } with
  | (point, s) =>
    match s.addNatives [("Point", .host .makePoint)] with
    | (maker, s) =>
      match s.addObject { kind := .plain } with
      | (plain, s) =>
        match s.addObject { kind := .bag } with
        | (bag, s) =>
          match s.addNatives [("applyTwice", .host .applyTwice), ("echo", .host .echo)] with
          | (functions, s) =>
            s.withNames ([("p", point)] ++ maker ++ [("o", plain), ("bag", bag)] ++ functions)

end Dartlet
