import Dartlet.Members.List
import Dartlet.Members.Map
import Dartlet.Members.Sequence
import Dartlet.Members.Set
import Dartlet.Members.Type

/-!
# Running members

A getter or method together with a value that has it. `Getter.find?` and `Method.find?` give a
value only members of its own kind, so the last cases are never reached through them.
-/

namespace Dartlet

open Dartlet.Action

variable [Host]

/-- The value of a getter. -/
def Getter.read (receiver : Value) (g : Getter) : Action Value :=
  match g, receiver with
  | .text g, .string content => g.read content
  | .number g, .int n => g.read (.int n)
  | .number g, .double x => g.read (.double x)
  | .sequence g, source => g.read source
  | .reversed, .list a => reversedList a
  | .map g, .map a => g.read a
  | .type g, .type _ => g.read
  | _, _ => pure .null

/-- Call a method. -/
def Method.run (c : Caller) (receiver : Value) (arguments : List Value) (m : Method) : Action Value :=
  match m, receiver with
  | .text m, .string content => m.run content arguments
  | .number m, .int n => m.run (.int n) arguments
  | .number m, .double x => m.run (.double x) arguments
  | .sequence m, source => m.run c source arguments
  | .list m, .list a => m.run c a arguments
  | .set m, .set a => m.run a arguments
  | .map m, .map a => m.run c a arguments
  | .type m, .type t => m.run c t arguments
  | _, _ => pure .null

end Dartlet
