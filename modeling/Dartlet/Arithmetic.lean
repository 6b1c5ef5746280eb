import Dartlet.Equality
import Dartlet.Host.Limits
import Dartlet.Number.Binary
import Dartlet.Render
import Dartlet.Syntax.Operator

/-!
# Operators on values

Whole numbers are unbounded and divide toward zero. When a whole number meets a double it is first
rounded to one, and must be in range for that.
-/

namespace Dartlet

open Dartlet.Syntax (BinaryOp UnaryOp)

variable [Host]

/-- A number of either kind. -/
inductive Numeral where
  | int (n : Int)
  | double (x : Float)

namespace Numeral

/-- The number that a value is. -/
def ofValue? : Value → Option Numeral
  | .int n => some (.int n)
  | .double x => some (.double x)
  | _ => none

def toValue : Numeral → Value
  | int n => .int n
  | double x => .double x

/-- A number as a double, if it is in range. -/
def toDouble : Numeral → Except Trouble Float
  | double x => .ok x
  | int n =>
    match Number.ofInt? n with
    | some x => .ok x
    | none => .error (.failure .intTooLarge)

/-- Whether a number is zero of either kind and sign. -/
def isZero : Numeral → Bool
  | int n => n == 0
  | double x => Number.compareFloat? x (Number.signedZero false) == some .eq

/-- An operation that whole numbers have exactly and doubles by rounding. -/
def combine (exact : Int → Int → Int) (rounded : Float → Float → Float) (a b : Numeral) :
    Except Trouble Numeral :=
  match a, b with
  | .int m, .int n => .ok (.int (exact m n))
  | a, b => do
    let x ← a.toDouble
    let y ← b.toDouble
    .ok (.double (rounded x y))

/-- The quotient as a double. Division by zero gives an infinity with the sign of both, or no
number when zero or no number is divided. -/
def divide (a b : Numeral) : Except Trouble Float :=
  if b.isZero then
    if a.isZero then .ok Number.nan
    else do
      let x ← a.toDouble
      let y ← b.toDouble
      if Number.isNotANumber x then .ok Number.nan
      else .ok (if Number.isSignNegative x == Number.isSignNegative y then Number.infinity
        else Number.negativeInfinity)
  else
    match a, b with
    | .int m, .int n =>
      match Number.quotient? m n with
      | some x => .ok x
      | none => .error (.failure .quotientTooLarge)
    | a, b => do
      let x ← a.toDouble
      let y ← b.toDouble
      .ok (x / y)

/-- The quotient of whole numbers without their signs, with a minus if one of them has one. -/
def wholeQuotient (m n : Int) : Int :=
  let quotient : Int := (m.natAbs / n.natAbs : Nat)
  if (m < 0) != (n < 0) then -quotient else quotient

/-- The quotient cut toward zero. -/
def truncDivide (a b : Numeral) : Except Trouble Int :=
  match a, b with
  | .int m, .int n => if n == 0 then .error (.fault .divisionByZero) else .ok (wholeQuotient m n)
  | a, b => do
    let x ← a.divide b
    match Number.truncate? x with
    | some n => .ok n
    | none => .error (.fault .notFiniteToInt)

/-- The remainder that belongs to the quotient cut toward zero; it has the sign of the dividend. -/
def remainder (a b : Numeral) : Except Trouble Numeral :=
  match a, b with
  | .int m, .int n => if n == 0 then .error (.fault .divisionByZero) else .ok (.int (m - n * wholeQuotient m n))
  | a, b =>
    if b.isZero then .ok (.double Number.nan)
    else do
      let x ← a.toDouble
      if Number.isInfinite x || Number.isNotANumber x then .ok (.double Number.nan)
      else
        let y ← b.toDouble
        .ok (.double (Number.remainder x y))

end Numeral

/-- The most copies of a text or of a list's element that can be asked for, less one. -/
def countLimit : Int := Number.twoTo 63

/-- A text repeated. -/
def repeatText (text : String) (count : Int) : Except Trouble String :=
  if countLimit ≤ count || count < -countLimit then .error (.failure .countTooLarge)
  else if text.isEmpty then .ok ""
  else if countLimit ≤ text.length * count then .error (.failure .textTooLong)
  else if Host.roomLimit ≤ text.length * count then .error (.failure .noRoom)
  else .ok (String.join (List.replicate count.toNat text))

/-- The result of an operator on two numbers, if it has one. -/
def numeric? (op : BinaryOp) (a b : Numeral) : Option (Except Trouble Value) :=
  let ordered := fun (test : Ordering → Bool) =>
    some (.ok (.bool (match a.toValue.compareNumbers? b.toValue with
      | some o => test o
      | none => false)))
  match op with
  | .add => some ((a.combine (· + ·) (· + ·) b).map Numeral.toValue)
  | .sub => some ((a.combine (· - ·) (· - ·) b).map Numeral.toValue)
  | .mul => some ((a.combine (· * ·) (· * ·) b).map Numeral.toValue)
  | .div => some ((a.divide b).map Value.double)
  | .truncDiv => some ((a.truncDivide b).map Value.int)
  | .rem => some ((a.remainder b).map Numeral.toValue)
  | .lt => ordered (fun o => o == .lt)
  | .le => ordered (fun o => o != .gt)
  | .gt => ordered (fun o => o == .gt)
  | .ge => ordered (fun o => o != .lt)
  | _ => none

/-- The result of a binary operator on values. -/
def binaryResult (s : Store) (op : BinaryOp) (left right : Value) : Except Trouble Value :=
  let undefined : Except Trouble Value :=
    .error (.fault (.mismatch (.undefinedOperator op.spelling (left.typeName s) (right.typeName s))))
  match op, left, right with
  | .eq, _, _ => .ok (.bool (left.equals right))
  | .ne, _, _ => .ok (.bool (!left.equals right))
  | .add, .string a, .string b => .ok (.string (a ++ b))
  | .mul, .string a, .int n => (repeatText a n).map Value.string
  | op, left, right =>
    match Numeral.ofValue? left, Numeral.ofValue? right with
    | some a, some b => (numeric? op a b).getD undefined
    | _, _ => undefined

/-- The result of an operator with one operand that does not write to it. -/
def unaryResult (s : Store) (op : UnaryOp) (operand : Value) : Except Trouble Value :=
  match op with
  | .negate =>
    match operand with
    | .int n => .ok (.int (-n))
    | .double x => .ok (.double (-x))
    | _ => .error (.fault (.mismatch (.notNum "operand of unary '-'" (operand.typeName s))))
  | .not =>
    match operand with
    | .bool b => .ok (.bool (!b))
    | _ => .error (.fault (.mismatch (.notBool "operand of '!'" (operand.typeName s))))
  | op => .error (.fault (.mismatch (.unknownUnary op.spelling)))

end Dartlet
