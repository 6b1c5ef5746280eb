import Dartlet.Arithmetic
import Dartlet.Host.Conversion
import Dartlet.Host.Signature

/-!
# Objects of the host

The objects that programs may meet: points, objects without members, a bag that can be walked over,
sources of random numbers, and the standard input.
-/

namespace Dartlet

open Dartlet.Action

variable [Host]

/-- The methods of a kind of objects. -/
def HostClass.methods : HostClass → List (String × HostMethod)
  | .point => [("norm2", .norm2), ("explode", .explode)]
  | .random _ => [("nextInt", .nextInt), ("nextDouble", .nextDouble), ("nextBool", .nextBool)]
  | .stdin => [("readLineSync", .readLineSync)]
  | .plain | .bag => []

/-- What an object yields when it is walked over, if it can be. -/
def HostClass.elements? : HostClass → Option (List HostValue)
  | .bag => some [.int 1, .text "two", .none, .list [.float 3.5, .bool true]]
  | _ => none

namespace HostMethod

def signature : HostMethod → Signature
  | norm2 => { label := "Point.norm2", isMethod := true }
  | explode => { label := "Point.explode", isMethod := true }
  | nextInt => { label := "Random.nextInt", isMethod := true, required := ["max"] }
  | nextDouble => { label := "Random.nextDouble", isMethod := true }
  | nextBool => { label := "Random.nextBool", isMethod := true }
  | readLineSync => { label := "Stdin.readLineSync", isMethod := true }

/-- A failure of the host's own operations on data of the wrong kind. -/
def typeError (text : String) : HostFailure := .reported "TypeError" text

/-- Host data as a number, if it is one. -/
def numeral? (h : HostValue) : Option Numeral := h.number?.bind Numeral.ofValue?

/-- The square of host data. -/
def square (s : Store) (h : HostValue) : Except Trouble Numeral :=
  match numeral? h with
  | some n => n.combine (· * ·) (· * ·) n
  | none =>
    let kind := h.kindName s
    match h with
    | .text _ | .list _ =>
      .error (.failure (typeError ("can't multiply sequence by non-int of type '" ++ kind ++ "'")))
    | _ =>
      .error (.failure (typeError ("unsupported operand type(s) for *: '" ++ kind ++ "' and '" ++ kind ++ "'")))

/-- A number as host data. -/
def ofNumeral : Numeral → HostValue
  | .int n => .int n
  | .double x => .float x

/-- The sum of the squares of a point's coordinates. -/
def squaredNorm (a : Address) : Action HostValue := fun s =>
  let attributes := match s.objects[a]? with
    | some o => o.attributes
    | none => []
  let coordinate := fun (name : String) => (tableFind? attributes name).getD .none
  ofExcept (do
    let x ← square s (coordinate "x")
    let y ← square s (coordinate "y")
    let sum ← x.combine (· + ·) (· + ·) y
    .ok (ofNumeral sum)) s

/-- Draw from a source of random numbers, which moves on. -/
def draw (a : Address) : Action Nat := fun s =>
  match s.objects[a]? with
  | some ⟨.random state, _⟩ =>
    match Host.draw state with
    | (n, next) => .done n (s.modifyObject a (fun o => { o with kind := .random next }))
  | _ => .done 0 s

/-- The number of different values in fifty-three bits. -/
def drawnLimit : Nat := Number.twoTo 53

/-- A whole number below a bound. -/
def drawBelow (a : Address) (bound : Int) : Action HostValue := do
  let n ← draw a
  pure (.int (n % bound))

/-- A whole number below the bound that host data give. -/
def nextBelow (a : Address) (bound : HostValue) : Action HostValue := fun s =>
  let shown := bound.write (fun _ => "") false
  match bound.number? with
  | none =>
    escape (typeError ("'<=' not supported between instances of '" ++ bound.kindName s ++ "' and 'int'")) s
  | some (.double x) =>
    if Number.isNotANumber x then escape (.reported "ValueError" "cannot convert float NaN to integer") s
    else if (Value.double x).compareNumbers? (.int 0) != some .gt then escape (.badMaximum shown) s
    else
      match Number.truncate? x with
      | none => escape (.reported "OverflowError" "cannot convert float infinity to integer") s
      | some n =>
        if (Value.double x).equals (.int n) then drawBelow a n s
        else escape (.reported "ValueError" "non-integer arg 1 for randrange()") s
  | some (.int n) => if n ≤ 0 then escape (HostFailure.naming (.badMaximum shown) [n]) s else drawBelow a n s
  | some _ => .done .none s

/-- Whether a character ends a line. -/
def isLineEnd (c : Char) : Bool := c == '\r' || c == '\n'

/-- The next line of the standard input without the characters that end it. -/
def readLine : Action HostValue := fun s =>
  match s.input with
  | [] => .done .none s
  | input =>
    let line := input.takeWhile (fun c => c != '\n')
    let rest := (input.dropWhile (fun c => c != '\n')).drop 1
    .done (.text (String.ofList (line.reverse.dropWhile isLineEnd).reverse)) { s with input := rest }

/-- Call a method of an object with a number of arguments that it accepts. -/
def run (a : Address) (arguments : List HostValue) : HostMethod → Action HostValue
  | norm2 => squaredNorm a
  | explode => escape (.reported "ValueError" "bad point")
  | nextInt => nextBelow a (arguments[0]?.getD .none)
  | nextDouble => do
    let n ← draw a
    pure (.float ((Number.ofRatio? false (n % drawnLimit) drawnLimit).getD (Number.signedZero false)))
  | nextBool => do
    let n ← draw a
    pure (.bool (2 * (n % drawnLimit) < drawnLimit))
  | readLineSync => readLine

end HostMethod

/-- The state in which a source of random numbers begins. -/
def seedState (s : Store) (seed : HostValue) : Except HostFailure Nat :=
  match seed with
  | .none | .bool _ | .int _ | .float _ | .text _ => .ok (Host.seed seed s.objects.size)
  | _ => .error (HostMethod.typeError
    "The only supported seed types are: None,\nint, float, str, bytes, and bytearray.")

end Dartlet
