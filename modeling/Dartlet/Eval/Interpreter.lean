import Dartlet.Eval.Statement

/-!
# The interpreter

The engine with a bounded number of levels: each level does its work by means of the next one, and
the last one can do nothing. Whatever ends without reaching the last level ends the same way with
more levels.
-/

namespace Dartlet

open Dartlet.Action

variable [Host]

/-- The engine with some number of levels. -/
def interpreter : Nat → Engine
  | 0 => ⟨fun _ _ => exhaust, fun _ _ => exhaust, fun _ _ _ => exhaust, 0⟩
  | level + 1 =>
    { eval := fun c x => evalExpr (interpreter level) c x
      exec := fun c x => execStmt (interpreter level) c x
      call := fun depth f arguments => callValue (interpreter level) depth f arguments
      rounds := level }

/-- The levels that programs are given. -/
def levelLimit : Nat := Number.twoTo 40

/-- The engine that runs programs. -/
def engine : Engine := interpreter levelLimit

end Dartlet
