/-!
# Positions in program text

Lines and columns count from one, in characters; only a line feed starts a new line.
-/

namespace Dartlet.Syntax

/-- A place in a program text. -/
structure Position where
  line : Nat
  column : Nat
  deriving DecidableEq, Repr, Inhabited

/-- Where a construct begins, if it came from a text. -/
abbrev Location := Option Position

namespace Position

/-- The beginning of a text. -/
def start : Position := ⟨1, 1⟩

/-- The place after one more character. -/
def step (p : Position) (c : Char) : Position :=
  if c == '\n' then ⟨p.line + 1, 1⟩ else ⟨p.line, p.column + 1⟩

/-- The place after a stretch of text. -/
def after (p : Position) (text : List Char) : Position := text.foldl step p

@[simp] theorem after_nil (p : Position) : p.after [] = p := rfl

@[simp] theorem after_cons (p : Position) (c : Char) (text : List Char) :
    p.after (c :: text) = (p.step c).after text := rfl

theorem after_append (p : Position) (xs ys : List Char) : p.after (xs ++ ys) = (p.after xs).after ys := by
  simp [after, List.foldl_append]

end Position
end Dartlet.Syntax
