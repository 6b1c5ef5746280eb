import Dartlet.Host.Limits
import Dartlet.Number.Layout
import Dartlet.Store
import Dartlet.Text.Quoted

/-!
# Values as text

The text of a value, as `print` shows it; the inspected form, which quotes texts; and the full text
of an error with its place. A collection that is already being shown further out is elided, so that
showing ends also for collections that hold themselves.
-/

namespace Dartlet

mutual

/-- Data of the host as the host itself writes it. Texts are quoted where `quoting` says so, and
always inside other data. -/
def HostValue.write (shown : Value → String) (quoting : Bool) : HostValue → String
  | .none => "None"
  | .bool b => if b then "True" else "False"
  | .int n => toString n
  | .float x => Number.Layout.host.write x
  | .text s => if quoting then Text.quoted s else s
  | .list items => "[" ++ ", ".intercalate (writeAll shown items) ++ "]"
  | .set items => if items.isEmpty then "set()" else "\x7b" ++ ", ".intercalate (writeAll shown items) ++ "\x7d"
  | .dict entries => "\x7b" ++ ", ".intercalate (writeEntries shown entries) ++ "\x7d"
  | .callback _ => "<function>"
  | .value v => shown v

def writeAll (shown : Value → String) : List HostValue → List String
  | [] => []
  | item :: rest => item.write shown true :: writeAll shown rest

def writeEntries (shown : Value → String) : List (HostValue × HostValue) → List String
  | [] => []
  | (key, value) :: rest => (key.write shown true ++ ": " ++ value.write shown true) :: writeEntries shown rest

end

variable [Host]

mutual

/-- Whether the host refuses to write data because of a whole number in them. -/
def HostValue.isRefused (refused : Value → Bool) : HostValue → Bool
  | .int n => Host.refusesNumber n
  | .list items => anyRefused refused items
  | .set items => anyRefused refused items
  | .dict entries => anyEntryRefused refused entries
  | .value v => refused v
  | _ => false

def anyRefused (refused : Value → Bool) : List HostValue → Bool
  | [] => false
  | item :: rest => item.isRefused refused || anyRefused refused rest

def anyEntryRefused (refused : Value → Bool) : List (HostValue × HostValue) → Bool
  | [] => false
  | (key, value) :: rest => key.isRefused refused || value.isRefused refused || anyEntryRefused refused rest

end

namespace Store

/-- What an error says. A program that assigns other arguments to an error changes what it says. -/
def errorMessage (s : Store) (a : Address) : String :=
  match s.errors[a]? with
  | none => ""
  | some e =>
    match tableFind? e.assigned "args" with
    | some (.list [only]) => only.write (fun _ => "") false
    | some (.list []) => ""
    | some (.list items) => "(" ++ ", ".intercalate (writeAll (fun _ => "") items) ++ ")"
    | _ => e.fault.text

/-- Whether the host refuses to write what an error says. -/
def refusesError (s : Store) (a : Address) : Bool :=
  match s.errors[a]? with
  | none => false
  | some e =>
    match tableFind? e.assigned "args" with
    | some (.list items) => anyRefused (fun _ => false) items
    | _ => false

/-- The name of an object's class. -/
def className (s : Store) (a : Address) : String :=
  match s.objects[a]? with
  | some o => o.kind.name
  | none => ""

/-- An object of the host as text. An object without a form of its own is shown by its class; the
coordinates of a point are shown to a depth of `limit` points. -/
def objectText (s : Store) : Nat → Address → String
  | 0, a => "Instance of '" ++ s.className a ++ "'"
  | limit + 1, a =>
    match s.objects[a]? with
    | some ⟨.point, attributes⟩ =>
      let shown : Value → String := fun v => match v with
        | .object b => objectText s limit b
        | .type t => t.name
        | .error e => s.errorMessage e
        | _ => ""
      let coordinate := fun (name : String) => ((tableFind? attributes name).getD .none).write shown false
      "Point(" ++ coordinate "x" ++ ", " ++ coordinate "y" ++ ")"
    | _ => "Instance of '" ++ s.className a ++ "'"

/-- Whether the host refuses to write an object: coordinates of points are written to a depth of `limit` points. -/
def refusesObject (s : Store) : Nat → Address → Bool
  | 0, _ => false
  | limit + 1, a =>
    match s.objects[a]? with
    | some ⟨.point, attributes⟩ =>
      let refused : Value → Bool := fun v => match v with
        | .object b => refusesObject s limit b
        | .error e => s.refusesError e
        | _ => false
      let coordinate := fun (name : String) => ((tableFind? attributes name).getD .none).isRefused refused
      coordinate "x" || coordinate "y"
    | _ => false

end Store

namespace Value

/-- The name of a value's type in messages. -/
def typeName (s : Store) : Value → String
  | .null => "Null"
  | .bool _ => "bool"
  | .int _ => "int"
  | .double _ => "double"
  | .string _ => "String"
  | .list _ => "List"
  | .iterable _ => "Iterable"
  | .set _ => "Set"
  | .map _ => "Map"
  | .closure _ | .native _ => "Function"
  | .type _ => "Type"
  | .error a => (s.fault a).kind
  | .object a => s.className a

/-- A collection, to tell whether it is being shown. -/
inductive Marker where
  | list (a : Address) | iterable (a : Address) | set (a : Address) | map (a : Address)
  deriving DecidableEq, Repr

/-- A function of the program as text. -/
def closureText (s : Store) (a : Address) : String :=
  match s.closures[a]? with
  | none => ""
  | some c =>
    let suffix := match c.name with
      | some name => if name.isEmpty then "" else " from Function '" ++ name ++ "'"
      | none => ""
    "Closure: (" ++ ", ".intercalate c.parameters ++ ") => dynamic" ++ suffix

/-- The name of a native function. -/
def nativeName (s : Store) (a : Address) : String :=
  match s.natives[a]? with
  | some f => f.name
  | none => ""

/-- A value as text while the collections in `open_` are being shown. Collections nest at most
`limit` deep. -/
def textWithin (s : Store) : Nat → List Marker → Value → String
  | _, _, .null => "null"
  | _, _, .bool b => if b then "true" else "false"
  | _, _, .int n => toString n
  | _, _, .double x => Number.Layout.language.write x
  | _, _, .string t => t
  | _, _, .closure a => closureText s a
  | _, _, .native a => "Closure: " ++ nativeName s a
  | _, _, .type t => t.name
  | _, _, .error a => s.errorMessage a
  | _, _, .object a => s.objectText (s.objects.size + 1) a
  | 0, _, _ => ""
  | limit + 1, open_, .list a =>
    if Marker.list a ∈ open_ then "[...]"
    else "[" ++ ", ".intercalate ((s.list a).toList.map (textWithin s limit (.list a :: open_))) ++ "]"
  | limit + 1, open_, .iterable a =>
    if Marker.iterable a ∈ open_ then "[...]"
    else "(" ++ ", ".intercalate ((s.iterable a).map (textWithin s limit (.iterable a :: open_))) ++ ")"
  | limit + 1, open_, .set a =>
    if Marker.set a ∈ open_ then "\x7b...\x7d"
    else "\x7b" ++ ", ".intercalate ((s.set a).map (textWithin s limit (.set a :: open_))) ++ "\x7d"
  | limit + 1, open_, .map a =>
    if Marker.map a ∈ open_ then "\x7b...\x7d"
    else
      let shown := textWithin s limit (.map a :: open_)
      "\x7b" ++ ", ".intercalate ((s.map a).map (fun e => shown e.1 ++ ": " ++ shown e.2)) ++ "\x7d"

/-- The number of collections in the store, which bounds how deep distinct ones nest. -/
def nestingLimit (s : Store) : Nat :=
  s.lists.size + s.iterables.size + s.sets.size + s.maps.size + 1

/-- A value as text. -/
def text (s : Store) (v : Value) : String := textWithin s (nestingLimit s) [] v

/-- Why the host does not write a value while the collections in `open_` are being shown: a whole number has too many
digits, or collections nest too deep. -/
def refusalWithin (s : Store) : Nat → List Marker → Value → Option HostFailure
  | _, _, .int n => if Host.refusesNumber n then some (.lengthyNumber Host.digitLimit) else none
  | _, _, .error a => if s.refusesError a then some (.lengthyNumber Host.digitLimit) else none
  | _, _, .object a =>
    if s.refusesObject (s.objects.size + 1) a then some (.lengthyNumber Host.digitLimit) else none
  | _, _, .null | _, _, .bool _ | _, _, .double _ | _, _, .string _ | _, _, .closure _ | _, _, .native _ | _, _, .type _ =>
    none
  | 0, _, _ => none
  | limit + 1, open_, .list a =>
    if Marker.list a ∈ open_ then none
    else if Host.nestingLimit ≤ open_.length then some .endlessNesting
    else (s.list a).toList.findSome? (refusalWithin s limit (.list a :: open_))
  | limit + 1, open_, .iterable a =>
    if Marker.iterable a ∈ open_ then none
    else if Host.nestingLimit ≤ open_.length then some .endlessNesting
    else (s.iterable a).findSome? (refusalWithin s limit (.iterable a :: open_))
  | limit + 1, open_, .set a =>
    if Marker.set a ∈ open_ then none
    else if Host.nestingLimit ≤ open_.length then some .endlessNesting
    else (s.set a).findSome? (refusalWithin s limit (.set a :: open_))
  | limit + 1, open_, .map a =>
    if Marker.map a ∈ open_ then none
    else if Host.nestingLimit ≤ open_.length then some .endlessNesting
    else
      let refusal := refusalWithin s limit (.map a :: open_)
      (s.map a).findSome? (fun e => (refusal e.1).or (refusal e.2))

/-- Why the host does not write a value. -/
def refusal? (s : Store) (v : Value) : Option HostFailure := refusalWithin s (nestingLimit s) [] v

@[simp] theorem refusal?_string (s : Store) (t : String) : (string t).refusal? s = none := by
  rw [refusal?, refusalWithin]

@[simp] theorem refusal?_int (s : Store) (n : Int) :
    (int n).refusal? s = if Host.refusesNumber n then some (.lengthyNumber Host.digitLimit) else none := by
  rw [refusal?, refusalWithin]

/-- A value in its inspected form, or nothing if collections nest deeper than `limit`. -/
def inspectWithin? (s : Store) : Nat → Value → Option String
  | _, .null => some "null"
  | _, .bool b => some (if b then "true" else "false")
  | _, .int n => some (toString n)
  | _, .double x => some (Number.Layout.language.write x)
  | _, .string t => some (Text.quoted t)
  | _, .closure a =>
    match s.closures[a]? with
    | none => some ""
    | some c =>
      let label := match c.name with
        | some name => if name.isEmpty then "<anonymous>" else name
        | none => "<anonymous>"
      some ("<fn " ++ label ++ "(" ++ ", ".intercalate c.parameters ++ ")>")
  | _, .native a => some ("<native " ++ nativeName s a ++ ">")
  | _, .type t => some t.name
  | _, .error a => some ("<host " ++ (s.fault a).kind ++ ">")
  | _, .object a => some ("<host " ++ s.className a ++ ">")
  | 0, _ => none
  | limit + 1, .list a =>
    ((s.list a).toList.mapM (inspectWithin? s limit)).map (fun xs => "[" ++ ", ".intercalate xs ++ "]")
  | limit + 1, .iterable a =>
    ((s.iterable a).mapM (inspectWithin? s limit)).map (fun xs => "(" ++ ", ".intercalate xs ++ ")")
  | limit + 1, .set a =>
    ((s.set a).mapM (inspectWithin? s limit)).map (fun xs => "\x7b" ++ ", ".intercalate xs ++ "\x7d")
  | limit + 1, .map a =>
    ((s.map a).mapM (fun (e : Value × Value) =>
      match inspectWithin? s limit e.1, inspectWithin? s limit e.2 with
      | some k, some v => some (k ++ ": " ++ v)
      | _, _ => none)).map (fun xs => "\x7b" ++ ", ".intercalate xs ++ "\x7d")

/-- A value in its inspected form. A collection that holds itself has none. -/
def inspect? (s : Store) (v : Value) : Option String := inspectWithin? s (nestingLimit s) v

end Value

namespace Store

/-- The full text of an error: what it says, and its place if it has one. -/
def errorText (s : Store) (a : Address) : String :=
  match s.errors[a]? with
  | none => ""
  | some e =>
    let shown := fun (h : HostValue) => h.write (Value.text s) false
    match e.line, e.column with
    | .none, _ => s.errorMessage a
    | line, .none => s.errorMessage a ++ " (line " ++ shown line ++ ")"
    | line, column => s.errorMessage a ++ " (line " ++ shown line ++ ", col " ++ shown column ++ ")"

end Store
end Dartlet
