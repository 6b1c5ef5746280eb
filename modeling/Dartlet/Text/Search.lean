/-!
# Searching in texts

Occurrences of one text in another, and cutting a text at them from left to right.
-/

namespace Dartlet.Text

/-- The place of the first occurrence of `part`. -/
def indexOf? (part : List Char) : List Char → Option Nat
  | [] => if part.isEmpty then some 0 else none
  | c :: rest => if part.isPrefixOf (c :: rest) then some 0 else (indexOf? part rest).map (· + 1)

/-- The place of the last occurrence of `part`. -/
def lastIndexOf? (part : List Char) : List Char → Option Nat
  | [] => if part.isEmpty then some 0 else none
  | c :: rest =>
    match lastIndexOf? part rest with
    | some i => some (i + 1)
    | none => if part.isPrefixOf (c :: rest) then some 0 else none

/-- The pieces of a text between occurrences of a separator that is not empty. `before` is the
piece under way, backwards, and `skip` how many characters still belong to an occurrence. -/
def splitAfter (separator : List Char) : Nat → List Char → List Char → List (List Char)
  | _, before, [] => [before.reverse]
  | skip + 1, before, _ :: rest => splitAfter separator skip before rest
  | 0, before, c :: rest =>
    if separator.isPrefixOf (c :: rest) then
      before.reverse :: splitAfter separator (separator.length - 1) [] rest
    else splitAfter separator 0 (c :: before) rest

/-- The pieces of a text between occurrences of a separator; its characters if the separator is
empty. -/
def split (separator text : List Char) : List (List Char) :=
  if separator.isEmpty then text.map (fun c => [c]) else splitAfter separator 0 [] text

/-- A text with every occurrence of `old`, which is not empty, replaced. `before` is the result so far,
backwards, and `skip` how many characters still belong to an occurrence. -/
def replaceAfter (old new : List Char) : Nat → List Char → List Char → List Char
  | _, before, [] => before.reverse
  | skip + 1, before, _ :: rest => replaceAfter old new skip before rest
  | 0, before, c :: rest =>
    if old.isPrefixOf (c :: rest) then replaceAfter old new (old.length - 1) (new.reverse ++ before) rest
    else replaceAfter old new 0 (c :: before) rest

/-- A text with every occurrence of `old` replaced. An empty text occurs before each character and
at the end. -/
def replaceAll (old new text : List Char) : List Char :=
  if old.isEmpty then text.flatMap (fun c => new ++ [c]) ++ new
  else replaceAfter old new 0 [] text

end Dartlet.Text
