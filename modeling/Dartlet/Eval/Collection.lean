import Dartlet.Eval.Engine
import Dartlet.Host.Object

/-!
# Collection literals

The elements of a literal are first laid out in a row, left to right, and then made into a list, a
set or a map.
-/

namespace Dartlet

open Dartlet.Action
open Dartlet.Syntax (Element Expr Part)

/-- What a loop or a spread walks over, if a value can be walked over. Lists are copied first. -/
def elementsOf? (v : Value) : Action (Option (List Value)) := fun s =>
  match v with
  | .list a => .done (some (s.list a).toList) s
  | .iterable a => .done (some (s.iterable a)) s
  | .set a => .done (some (s.set a)) s
  | .object a =>
    match s.objects[a]?.bind (fun o => o.kind.elements?) with
    | some items => (do
      let values ← fromHostAll items
      pure (some values)) s
    | none => .done none s
  | _ => .done none s

/-- What one place in the row holds. -/
inductive Staged where
  | item (v : Value)
  | entry (key value : Value)

/-- The places that a spread fills. -/
def spreadOut (source : Value) (nullAware : Bool) : Action (List Staged) := do
  match source with
  | .null => if nullAware then pure [] else mismatch .spreadOfNull
  | .map a => fun s => .done ((s.map a).map (fun e => .entry e.1 e.2)) s
  | v =>
    match ← elementsOf? v with
    | some items => pure (items.map .item)
    | none => fun s => mismatch (.cannotSpread (v.typeName s)) s

/-- The places that an element fills. -/
def stage (e : Engine) (c : Context) : Element → Action (List Staged)
  | .plain value => do
    let v ← e.eval c value
    pure [.item v]
  | .entry _ key value nullAwareKey nullAwareValue => do
    match ← e.eval c key, nullAwareKey with
    | .null, true => pure []
    | k, _ =>
      match ← e.eval c value, nullAwareValue with
      | .null, true => pure []
      | v, _ => pure [.entry k v]
  | .spread _ source nullAware => do
    let v ← e.eval c source
    spreadOut v nullAware
  | .nullAware _ value => do
    match ← e.eval c value with
    | .null => pure []
    | v => pure [.item v]
  | .conditional _ condition thenElement elseElement => do
    let v ← e.eval c condition
    if ← requireBool v "collection if condition" then stage e c thenElement
    else
      match elseElement with
      | some element => stage e c element
      | none => pure []
  | .loop _ _ _ => fail (.unsupported .collectionFor)

/-- The places that several elements fill. -/
def stageAll (e : Engine) (c : Context) : List Element → Action (List Staged)
  | [] => pure []
  | element :: rest => do
    let first ← stage e c element
    let more ← stageAll e c rest
    pure (first ++ more)

/-- The elements of a list. -/
def listItems : List Staged → Except Mismatch (List Value)
  | [] => .ok []
  | .item v :: rest => (listItems rest).map (v :: ·)
  | .entry _ _ :: _ => .error .entryInList

/-- The members of a set. -/
def setMembers : List Value → List Staged → Except Mismatch (List Value)
  | members, [] => .ok members
  | members, .item v :: rest => setMembers (Members.add members v) rest
  | _, .entry _ _ :: _ => .error .entryInSet

/-- The entries of a map. -/
def mapEntries : List (Value × Value) → List Staged → Except Mismatch (List (Value × Value))
  | entries, [] => .ok entries
  | entries, .entry k v :: rest => mapEntries (Entries.put k v entries) rest
  | _, .item _ :: _ => .error .elementInMap

/-- The result of laying out a literal. -/
def orMismatch {α : Type} : Except Mismatch α → Action α
  | .ok a => pure a
  | .error m => mismatch m

/-- Evaluate a list literal. -/
def evalList (e : Engine) (c : Context) (elements : List Element) : Action Value := do
  let staged ← stageAll e c elements
  let items ← orMismatch (listItems staged)
  newList items.toArray

/-- Evaluate a literal in braces. Its first place decides whether it is a set or a map; an empty one
is a map, unless it has exactly one type argument. -/
def evalSetOrMap (e : Engine) (c : Context) (elements : List Element) (typeArguments : List String) :
    Action Value := do
  let staged ← stageAll e c elements
  match staged.head? with
  | none => if typeArguments.length == 1 then newSet [] else newMap []
  | some (.entry _ _) => do
    let entries ← orMismatch (mapEntries [] staged)
    newMap entries
  | some (.item _) => do
    let members ← orMismatch (setMembers [] staged)
    newSet members

/-- The text of a string with embedded expressions. -/
def evalParts [Host] (e : Engine) (c : Context) : List Part → Action String
  | [] => pure ""
  | .text t :: rest => do
    let more ← evalParts e c rest
    pure (t ++ more)
  | .code expression :: rest => do
    let v ← e.eval c expression
    let shown ← textOf v
    let more ← evalParts e c rest
    pure (shown ++ more)

end Dartlet
