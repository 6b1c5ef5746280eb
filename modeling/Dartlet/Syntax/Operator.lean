/-!
# Operators

The operators of expressions. A tree built by hand may hold an operator that the language does not
have; it keeps its spelling, so that a message can name it.
-/

namespace Dartlet.Syntax

/-- Binary operators. -/
inductive BinaryOp where
  | or | and | eq | ne | lt | le | gt | ge | add | sub | mul | div | truncDiv | rem
  | other (spelling : String)
  deriving DecidableEq, Repr

/-- Operators with one operand, before or after it. -/
inductive UnaryOp where
  | negate | not | increment | decrement
  | other (spelling : String)
  deriving DecidableEq, Repr

/-- Assignment operators: plain, or combined with a binary operator. -/
inductive AssignOp where
  | plain
  | compound (op : BinaryOp)
  deriving DecidableEq, Repr

namespace BinaryOp

/-- The spellings of the operators of the language. -/
def spellings : List (String × BinaryOp) :=
  [("||", .or), ("&&", .and), ("==", .eq), ("!=", .ne), ("<", .lt), ("<=", .le), (">", .gt),
    (">=", .ge), ("+", .add), ("-", .sub), ("*", .mul), ("/", .div), ("~/", .truncDiv), ("%", .rem)]

def spelling : BinaryOp → String
  | .or => "||"
  | .and => "&&"
  | .eq => "=="
  | .ne => "!="
  | .lt => "<"
  | .le => "<="
  | .gt => ">"
  | .ge => ">="
  | .add => "+"
  | .sub => "-"
  | .mul => "*"
  | .div => "/"
  | .truncDiv => "~/"
  | .rem => "%"
  | .other s => s

/-- The operator with a spelling. -/
def ofSpelling (s : String) : BinaryOp :=
  match spellings.find? (fun entry => entry.1 == s) with
  | some entry => entry.2
  | none => .other s

end BinaryOp

namespace UnaryOp

def spelling : UnaryOp → String
  | .negate => "-"
  | .not => "!"
  | .increment => "++"
  | .decrement => "--"
  | .other s => s

/-- The operator with a spelling. -/
def ofSpelling (s : String) : UnaryOp :=
  if s == "-" then .negate
  else if s == "!" then .not
  else if s == "++" then .increment
  else if s == "--" then .decrement
  else .other s

/-- Whether the operator writes to its operand. -/
def isStep : UnaryOp → Bool
  | .increment | .decrement => true
  | _ => false

end UnaryOp

namespace AssignOp

def spelling : AssignOp → String
  | .plain => "="
  | .compound op => op.spelling ++ "="

/-- The assignment with a spelling: what stands before the last character is the operator to
combine with. -/
def ofSpelling (s : String) : AssignOp :=
  if s == "=" then .plain else .compound (BinaryOp.ofSpelling (String.ofList s.toList.dropLast))

end AssignOp
end Dartlet.Syntax
