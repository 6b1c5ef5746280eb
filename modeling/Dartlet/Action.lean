import Dartlet.Render

/-!
# Actions

An action runs in a store and ends in one of four ways: with a result, with an error of the
language, with a failure outside the language, or because the steps that it was given did not
suffice. Whatever the end, the effects made before it stay.
-/

namespace Dartlet

/-- How an action ends. -/
inductive Outcome (α : Type) where
  | done (result : α) (store : Store)
  | raised (error : Address) (store : Store)
  | escaped (failure : HostFailure) (store : Store)
  | exhausted (store : Store)

/-- The store at the end of an action. -/
def Outcome.store {α : Type} : Outcome α → Store
  | .done _ s | .raised _ s | .escaped _ s | .exhausted s => s

/-- A computation with effects on the store. -/
def Action (α : Type) := Store → Outcome α

namespace Action

/-- End at once with a result. -/
@[always_inline, inline]
protected def pure {α : Type} (a : α) : Action α := fun s => .done a s

/-- Run one action and then the one that its result determines. -/
@[always_inline, inline]
protected def bind {α β : Type} (x : Action α) (f : α → Action β) : Action β := fun s =>
  match x s with
  | .done a s' => f a s'
  | .raised e s' => .raised e s'
  | .escaped f s' => .escaped f s'
  | .exhausted s' => .exhausted s'

instance : Monad Action where
  pure := Action.pure
  bind := Action.bind

/-- The present store. -/
def get : Action Store := fun s => .done s s

/-- Change the store. -/
def modify (f : Store → Store) : Action Unit := fun s => .done () (f s)

/-- Change the store and keep what the change yields. -/
def update {α : Type} (f : Store → α × Store) : Action α := fun s =>
  match f s with
  | (a, s') => .done a s'

/-- Raise a new error. -/
def fail {α : Type} (f : Fault) : Action α := fun s =>
  match s.addError f with
  | (a, s') => .raised a s'

/-- Raise an error again. -/
def raise {α : Type} (e : Address) : Action α := fun s => .raised e s

/-- Fail outside the language. -/
def escape {α : Type} (f : HostFailure) : Action α := fun s => .escaped f s

/-- End for want of steps. -/
def exhaust {α : Type} : Action α := fun s => .exhausted s

/-- Raise an error about a value of the wrong type. -/
def mismatch {α : Type} (m : Mismatch) : Action α := fail (.mismatch m)

/-- The result of a computation without effects. -/
def ofExcept {α : Type} : Except Trouble α → Action α
  | .ok a => Action.pure a
  | .error (.fault f) => fail f
  | .error (.failure f) => escape f

/-- Run code of the host. A failure outside the language becomes an error of the language, except
for endless nesting, which goes on to the function call around it. -/
def delegate {α : Type} (x : Action α) : Action α := fun s =>
  match x s with
  | .escaped .endlessNesting s' => .escaped .endlessNesting s'
  | .escaped f s' => fail (.host f) s'
  | o => o

/-- Run the body of a function. Endless nesting inside it is a stack overflow of the function. -/
def guardNesting {α : Type} (x : Action α) : Action α := fun s =>
  match x s with
  | .escaped .endlessNesting s' => fail .stackOverflow s'
  | o => o

/-- The name of a value's type. -/
def typeName (v : Value) : Action String := fun s => .done (v.typeName s) s

/-- A value as text, if the host writes it. -/
def textOf [Host] (v : Value) : Action String := fun s =>
  match v.refusal? s with
  | some f => .escaped f s
  | none => .done (v.text s) s

/-- Values as texts, up to the first that the host does not write. -/
def textsOf [Host] (vs : List Value) : Action (List String) := fun s =>
  match vs.findSome? (Value.refusal? s) with
  | some f => .escaped f s
  | none => .done (vs.map (Value.text s)) s

/-- A new list. -/
def newList (items : Array Value) : Action Value := update (fun s => s.addList items)

/-- A new iterable. -/
def newIterable (items : List Value) : Action Value := update (fun s => s.addIterable items)

/-- A new set. -/
def newSet (members : List Value) : Action Value := update (fun s => s.addSet members)

/-- A new map. -/
def newMap (entries : List (Value × Value)) : Action Value := update (fun s => s.addMap entries)

/-- A new native function. -/
def newNative (name : String) (code : NativeCode) : Action Value := update (fun s => s.addNative ⟨name, code⟩)

end Action
end Dartlet
