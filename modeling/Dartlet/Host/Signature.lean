import Dartlet.Fault

/-!
# Parameters of host functions

What the host says to a call of one of its functions with too few or too many arguments.
-/

namespace Dartlet

/-- The parameters of a host function. Methods count their receiver among what they are given. -/
structure Signature where
  label : String
  isMethod : Bool := false
  required : List String := []
  optional : Nat := 0

namespace Signature

/-- Names in quotes, joined as in a sentence. -/
def listed (names : List String) : String :=
  let quoted := names.map (fun n => "'" ++ n ++ "'")
  match quoted with
  | [] => ""
  | [a] => a
  | [a, b] => a ++ " and " ++ b
  | _ => ", ".intercalate quoted.dropLast ++ ", and " ++ quoted.getLastD ""

/-- A count with a noun. -/
def counted (n : Nat) (noun : String) : String :=
  toString n ++ " " ++ noun ++ (if n == 1 then "" else "s")

/-- The complaint about a number of arguments, if it is not accepted. -/
def complaint? (f : Signature) (count : Nat) : Option HostFailure :=
  let receiver := if f.isMethod then 1 else 0
  if count < f.required.length then
    let missing := f.required.drop count
    some (.reported "TypeError" (f.label ++ "() missing " ++
      counted missing.length "required positional argument" ++ ": " ++ listed missing))
  else if f.required.length + f.optional < count then
    let least := f.required.length + receiver
    let most := least + f.optional
    let takes := if f.optional == 0 then counted most "positional argument"
      else "from " ++ toString least ++ " to " ++ counted most "positional argument"
    let given := count + receiver
    some (.reported "TypeError" (f.label ++ "() takes " ++ takes ++ " but " ++ toString given ++
      (if given == 1 then " was given" else " were given")))
  else none

end Signature
end Dartlet
