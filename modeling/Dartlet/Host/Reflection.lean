import Dartlet.Host.Function

/-!
# Members of host objects and of caught errors

Their members are their public attributes: data, which can be assigned, and methods. An attribute
whose name begins with an underscore is not public.
-/

namespace Dartlet

open Dartlet.Action

variable [Host]

/-- What a member of a host object is: data that cannot be called, or a function. -/
inductive Attribute where
  | data (h : HostValue)
  | function (f : HostFunction)

namespace Attribute

/-- The attribute that data make. -/
def ofData : HostValue → Attribute
  | .callback f => .function (.callback f)
  | h => .data h

/-- Whether a name is public. -/
def isPublic (name : String) : Bool := !name.startsWith "_"

/-- Store a value under a name. -/
def put (name : String) (h : HostValue) : List (String × HostValue) → List (String × HostValue)
  | [] => [(name, h)]
  | e :: rest => if e.1 == name then (name, h) :: rest else e :: put name h rest

/-- The attribute of an object. -/
def ofObject? (s : Store) (a : Address) (name : String) : Option Attribute :=
  match s.objects[a]? with
  | none => none
  | some o =>
    match tableFind? o.attributes name with
    | some h => some (.ofData h)
    | none => (tableFind? o.kind.methods name).map (fun m => .function (.method a m))

/-- What an error tells about its cause. -/
def ofFault? (f : Fault) (name : String) : Option HostValue :=
  match f with
  | .unbound n => if name == "name" then some (.text n) else none
  | .noMember receiver _ n =>
    if name == "name" then some (.text n)
    else if name == "receiver" then some (.value receiver)
    else none
  | _ => none

/-- The attribute of an error. -/
def ofError? (s : Store) (a : Address) (name : String) : Option Attribute :=
  match s.errors[a]? with
  | none => none
  | some e =>
    if name == "message" then some (.data (.text (s.errorMessage a)))
    else if name == "line" then some (.ofData e.line)
    else if name == "column" then some (.ofData e.column)
    else
      match tableFind? e.assigned name with
      | some h => some (.ofData h)
      | none =>
        if name == "args" then some (.data (.list [.text e.fault.text]))
        else
          match ofFault? e.fault name with
          | some h => some (.data h)
          | none => (tableFind? ErrorMethod.table name).map (fun m => .function (.errorMethod a m))

/-- The public attribute of a value, if the value is an object of the host or an error. -/
def find? (s : Store) (receiver : Value) (name : String) : Option Attribute :=
  if isPublic name then
    match receiver with
    | .object a => ofObject? s a name
    | .error a => ofError? s a name
    | _ => none
  else none

end Attribute

namespace Action

/-- Raise the error for a member that a value does not have. -/
def noMember {α : Type} (receiver : Value) (name : String) : Action α := fun s =>
  fail (.noMember receiver (receiver.typeName s) name) s

/-- Read an attribute. A function gets the attribute's name. -/
def readAttribute (receiver : Value) (name : String) : Action Value := fun s =>
  match Attribute.find? s receiver name with
  | none => noMember receiver name s
  | some (.data h) => fromHost h s
  | some (.function f) => newNative name (.host f) s

/-- The arguments that an error is given, out of data that can be walked over. -/
def errorArguments (h : HostValue) : Action (List HostValue) :=
  match h with
  | .list items | .set items => pure items
  | .dict entries => pure (entries.map Prod.fst)
  | .text t => pure (t.toList.map (fun c => .text (String.singleton c)))
  | .value (.object a) => fun s =>
    match s.objects[a]?.bind (fun o => o.kind.elements?) with
    | some items => .done items s
    | none => escape (.reported "TypeError" ("'" ++ h.kindName s ++ "' object is not iterable")) s
  | h => fun s => escape (.reported "TypeError" ("'" ++ h.kindName s ++ "' object is not iterable")) s

/-- Assign an attribute of an error. -/
def assignErrorAttribute (a : Address) (name : String) (h : HostValue) : Action Unit :=
  if name == "message" then fun s =>
    escape (.reported "AttributeError"
      ("property 'message' of '" ++ (s.fault a).kind ++ "' object has no setter")) s
  else if name == "line" then modify (fun s => s.modifyError a (fun e => { e with line := h }))
  else if name == "column" then modify (fun s => s.modifyError a (fun e => { e with column := h }))
  else do
    let stored ← if name == "args" then do
        let items ← errorArguments h
        pure (HostValue.list items)
      else pure h
    modify (fun s => s.modifyError a (fun e => { e with assigned := Attribute.put name stored e.assigned }))

/-- Assign an attribute. Only attributes that exist can be assigned. -/
def assignAttribute (receiver : Value) (name : String) (v : Value) : Action Value := fun s =>
  match Attribute.find? s receiver name with
  | none => noMember receiver name s
  | some _ =>
    (do
      let h ← toHost v
      match receiver with
      | .object a => modify (fun s => s.modifyObject a (fun o =>
          { o with attributes := Attribute.put name h o.attributes }))
      | .error a => delegate (assignErrorAttribute a name h)
      | _ => pure ()
      pure v) s

/-- Call an attribute. A value has the method `toString` if no attribute has that name. -/
def callAttribute (c : Caller) (receiver : Value) (name : String) (arguments : List Value) :
    Action Value := fun s =>
  match Attribute.find? s receiver name with
  | none =>
    if name == "toString" && arguments.isEmpty then
      (do
        let text ← textOf receiver
        pure (Value.string text)) s
    else noMember receiver name s
  | some (.data h) =>
    (do
      let function ← fromHost h
      c.call function arguments) s
  | some (.function f) =>
    (do
      let data ← toHostAll arguments
      let result ← delegate (f.run c data)
      fromHost result) s

end Action
end Dartlet
