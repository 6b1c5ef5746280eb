import Dartlet.Eval.Engine
import Dartlet.Host.Placing
import Dartlet.Host.Reflection
import Dartlet.Members.Dispatch

/-!
# Calls and members

Calling closures and native functions, and reading, assigning and calling the members of values.
-/

namespace Dartlet

open Dartlet.Action
open Dartlet.Syntax (FunctionBody Parameter)

variable [Host]

/-- Run the body of a function in its own scope. -/
def runBody (e : Engine) (c : Context) : FunctionBody → Action Value
  | .expression _ value => e.eval c value
  | .block _ body => do
    match ← e.exec c body with
    | .normal => pure .null
    | .returning v => pure v
    | .breaking => fail (.jumpOutsideLoop "break")
    | .continuing => fail (.jumpOutsideLoop "continue")
  | .misplaced _ kind => fail (.unsupported (.functionBody kind))

/-- A new closure. All its parameters must be required ones. -/
def makeClosure (name : Option String) (parameters : List Parameter) (body : FunctionBody) (scope : Address) :
    Action Value :=
  match parameters.find? (fun p => p.kind != .required) with
  | some p => fail (.unsupported (.parameter p.kind.label p.name name))
  | none => update (fun s => s.addClosure ⟨name, parameters.map (fun p => p.name), body, scope⟩)

/-- Call a closure: its body runs in a new scope inside the one in which the closure was made. -/
def callClosure (e : Engine) (depth : Nat) (f : Closure) (arguments : List Value) : Action Value := do
  checkArity f.name (.exactly f.parameters.length) arguments.length
  if Host.callLimit ≤ depth then fail .stackOverflow
  else
    let scope ← enterScope f.scope
    modify (fun s => s.declareAll scope (f.parameters.zip arguments))
    guardNesting (runBody e ⟨scope, depth + 1⟩ f.body)

namespace NativeCode

/-- How many arguments native code takes, if that is checked before it runs. -/
def arity? : NativeCode → Option Arity
  | print => some (.exactly 1)
  | identical => some (.exactly 2)
  | bound _ m => some m.arity
  | host _ => none

/-- Run native code. -/
def run (c : Caller) (arguments : List Value) : NativeCode → Action Value
  | print => do
    let line ← textOf (argument arguments 0)
    modify (fun s => { s with output := s.output ++ line ++ "\n" })
    pure .null
  | identical => pure (.bool ((argument arguments 0).identical (argument arguments 1)))
  | bound receiver m => m.run c receiver arguments
  | host f => do
    let data ← toHostAll arguments
    let result ← f.run c data
    fromHost result

end NativeCode

/-- Run code of the host as a call of its own. -/
def callHost (e : Engine) (depth : Nat) (code : Caller → Action Value) : Action Value :=
  if Host.callLimit ≤ depth then escape .endlessNesting
  else delegate (code (e.caller (depth + 1)))

/-- Call a native function. -/
def callNative (e : Engine) (depth : Nat) (code : NativeCode) (arguments : List Value) : Action Value := do
  match code.arity? with
  | some arity => checkArity none arity arguments.length
  | none => pure ()
  callHost e depth (fun c => code.run c arguments)

/-- Complain about a value that is called and is no function. -/
def notFunction (v : Value) : Action Value := do
  let shown ← textOf v
  fun s => mismatch (.notFunction (v.typeName s) shown) s

/-- Call a value, which must be a function. -/
def callValue (e : Engine) (depth : Nat) (function : Value) (arguments : List Value) : Action Value := fun s =>
  match function with
  | .closure a =>
    match s.closures[a]? with
    | some f => callClosure e depth f arguments s
    | none => .done .null s
  | .native a =>
    match s.natives[a]? with
    | some f => callNative e depth f.code arguments s
    | none => .done .null s
  | v => notFunction v s

/-- Read a member. A method that is not called becomes a function bound to its receiver. -/
def getMember (receiver : Value) (name : String) : Action Value :=
  match receiver with
  | .object _ | .error _ => readAttribute receiver name
  | _ =>
    match Getter.find? receiver name with
    | some g => delegate (g.read receiver)
    | none =>
      match Method.find? receiver name with
      | some m => newNative name (.bound receiver m)
      | none => noMember receiver name

/-- Assign a member. Only objects of the host and errors have members that can be assigned. -/
def setMember (receiver : Value) (name : String) (v : Value) : Action Value :=
  match receiver with
  | .object _ | .error _ => assignAttribute receiver name v
  | _ => noMember receiver name

/-- Call a member: a method, or else what a getter yields. Every value has `toString`. -/
def invokeMember (e : Engine) (depth : Nat) (receiver : Value) (name : String) (arguments : List Value) :
    Action Value :=
  match receiver with
  | .object _ | .error _ => callAttribute (e.caller depth) receiver name arguments
  | _ =>
    match Method.find? receiver name with
    | some m => do
      checkArity (some name) m.arity arguments.length
      callHost e depth (fun c => m.run c receiver arguments)
    | none =>
      if name == "toString" && arguments.isEmpty then do
        let text ← textOf receiver
        pure (.string text)
      else
        match Getter.find? receiver name with
        | some g => do
          let function ← delegate (g.read receiver)
          e.call depth function arguments
        | none => noMember receiver name

end Dartlet
