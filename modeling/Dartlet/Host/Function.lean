import Dartlet.Host.Object
import Dartlet.Members.Arguments

/-!
# Functions of the host

Functions of the host take and return its own data; a function of the program that the host holds is
one of them.
-/

namespace Dartlet

open Dartlet.Action

variable [Host]

namespace ErrorMethod

/-- Methods of errors by their names. -/
def table : List (String × ErrorMethod) :=
  [("attach_location", .attachLocation), ("with_traceback", .withTraceback), ("add_note", .addNote)]

/-- The complaint about a number of arguments other than one. -/
def takesOne? (name : String) (count : Nat) : Option HostFailure :=
  if count == 1 then none
  else some (.reported "TypeError"
    ("BaseException." ++ name ++ "() takes exactly one argument (" ++ toString count ++ " given)"))

/-- The complaint about a number of arguments, if it is not accepted. -/
def complaint? (count : Nat) : ErrorMethod → Option HostFailure
  | attachLocation =>
    let f : Signature :=
      { label := "DartiRuntimeError.attach_location", isMethod := true, required := ["line", "column"] }
    f.complaint? count
  | withTraceback => takesOne? "with_traceback" count
  | addNote => takesOne? "add_note" count

/-- Call a method of an error with a number of arguments that it accepts. -/
def run (a : Address) (arguments : List HostValue) : ErrorMethod → Action HostValue
  | attachLocation => do
    match arguments[0]?.getD .none with
    | .none => pure .none
    | line => do
      modify (fun s => s.modifyError a (fun e =>
        if e.located then e
        else { e with line := line, column := arguments[1]?.getD .none, located := true }))
      pure .none
  | withTraceback =>
    match arguments[0]?.getD .none with
    | .none => pure (.value (.error a))
    | _ => escape (.reported "TypeError" "__traceback__ must be a traceback or None")
  | addNote =>
    match arguments[0]?.getD .none with
    | .text _ => pure .none
    | h => fun s =>
      escape (.reported "TypeError" ("note must be a str, not '" ++ h.kindName s ++ "'")) s

end ErrorMethod

namespace HostFunction

/-- The complaint about a number of arguments, if it is not accepted. -/
def complaint? (count : Nat) : HostFunction → Option HostFailure
  | callback _ => none
  | makePoint =>
    let f : Signature := { label := "Point.__init__", isMethod := true, required := ["x", "y"] }
    f.complaint? count
  | makeRandom =>
    let f : Signature := { label := "Random.__init__", isMethod := true, optional := 1 }
    f.complaint? count
  | applyTwice =>
    let f : Signature := { label := "<lambda>", required := ["f", "x"] }
    f.complaint? count
  | echo =>
    let f : Signature := { label := "<lambda>", required := ["x"] }
    f.complaint? count
  | method _ m => m.signature.complaint? count
  | errorMethod _ m => m.complaint? count

/-- Call a function of the program from the host. -/
def callBack (c : Caller) (function : Value) (arguments : List HostValue) : Action HostValue := do
  let values ← fromHostAll arguments
  let result ← c.call function values
  toHost result

/-- Call host data, which must be a function. -/
def callData (c : Caller) (function : HostValue) (arguments : List HostValue) : Action HostValue :=
  match function with
  | .callback f => callBack c f arguments
  | h => fun s => escape (.notCallable (h.kindName s)) s

/-- A new source of random numbers. -/
def newRandom (seed : HostValue) : Action HostValue := fun s =>
  match seedState s seed with
  | .ok state =>
    match s.addObject { kind := .random state } with
    | (v, s') => .done (.value v) s'
  | .error f => .escaped f s

/-- Call a function of the host with a number of arguments that it accepts. -/
def apply (c : Caller) (arguments : List HostValue) : HostFunction → Action HostValue
  | callback f => callBack c f arguments
  | makePoint => do
    let v ← update (fun s => s.addObject
      { kind := .point, attributes := ["x", "y"].zip arguments })
    pure (.value v)
  | makeRandom => newRandom (arguments[0]?.getD .none)
  | applyTwice => do
    let f := arguments[0]?.getD .none
    let once ← callData c f [arguments[1]?.getD .none]
    callData c f [once]
  | echo => pure (arguments[0]?.getD .none)
  | method a m => m.run a arguments
  | errorMethod a m => m.run a arguments

/-- Call a function of the host. -/
def run (c : Caller) (arguments : List HostValue) (f : HostFunction) : Action HostValue :=
  match f.complaint? arguments.length with
  | some failure => escape failure
  | none => f.apply c arguments

end HostFunction
end Dartlet
