import Dartlet.Host.Limits
import Dartlet.Number.Binary

/-!
# The host that runs programs

Its limits are those of a common interpreter; its random numbers are drawn from a generator of sixty-four bits.
-/

namespace Dartlet

/-- The next state of a generator. -/
def nextState (state : Nat) : Nat := (state * 6364136223846793005 + 1442695040888963407) % Number.twoTo 64

/-- The number that a seed stands for. -/
def seedNumber (objects : Nat) : HostValue → Nat
  | .bool b => if b then 1 else 0
  | .int n => n.natAbs
  | .float x => x.toBits.toNat
  | .text t => t.foldl (fun n c => n * 1114112 + c.toNat) 1
  | _ => objects

instance Host.standard : Host where
  callLimit := 256
  callLimit_pos := by decide
  nestingLimit := 450
  digitLimit := 4300
  digitLimit_pos := by decide
  roomLimit := Number.twoTo 36
  trace := "#0 main\n"
  seed data objects := nextState (seedNumber objects data % Number.twoTo 64)
  draw state := (nextState state / Number.twoTo 11, nextState state)

end Dartlet
