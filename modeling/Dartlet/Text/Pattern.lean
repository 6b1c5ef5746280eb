/-!
# Text patterns

A pattern says how much of the front of a text it may take. Choices are ordered: the first way that
lets everything after it succeed is the one that counts, so a later part of a pattern may make an
earlier part take its second choice.
-/

namespace Dartlet.Text

/-- Patterns over characters with ordered choice and two kinds of repetition. -/
inductive Pattern where
  /-- One character that passes the test. -/
  | one (test : Char → Bool)
  /-- The first pattern, then the second. -/
  | seq (first second : Pattern)
  /-- The first pattern, or else the second. -/
  | choice (first second : Pattern)
  /-- Repeat the body, trying one more round before stopping. -/
  | many (body : Pattern)
  /-- Repeat the body, trying to stop before one more round. -/
  | few (body : Pattern)

namespace Pattern

/-- What happens after a pattern has matched: the number of characters taken so far and the rest
of the text decide whether the whole match succeeds, and with how many characters. -/
abbrev After := Nat → List Char → Option Nat

/-- At most `n` rounds of `round`, as many as possible first. -/
def repeatMany (round : Nat → List Char → After → Option Nat) : Nat → Nat → List Char → After → Option Nat
  | 0, taken, text, after => after taken text
  | n + 1, taken, text, after =>
    match round taken text (fun taken' text' => repeatMany round n taken' text' after) with
    | some total => some total
    | none => after taken text

/-- At most `n` rounds of `round`, as few as possible first. -/
def repeatFew (round : Nat → List Char → After → Option Nat) : Nat → Nat → List Char → After → Option Nat
  | 0, taken, text, after => after taken text
  | n + 1, taken, text, after =>
    match after taken text with
    | some total => some total
    | none => round taken text (fun taken' text' => repeatFew round n taken' text' after)

/-- Match a pattern at the front of a text and go on with `after`. No repetition runs more than
`limit` rounds. -/
def run (limit : Nat) : Pattern → Nat → List Char → After → Option Nat
  | .one test, taken, text, after =>
    match text with
    | [] => none
    | c :: rest => if test c then after (taken + 1) rest else none
  | .seq first second, taken, text, after =>
    run limit first taken text (fun taken' text' => run limit second taken' text' after)
  | .choice first second, taken, text, after =>
    match run limit first taken text after with
    | some total => some total
    | none => run limit second taken text after
  | .many body, taken, text, after => repeatMany (run limit body) limit taken text after
  | .few body, taken, text, after => repeatFew (run limit body) limit taken text after

/-- The number of characters that the pattern takes from the front of a text. A round of a
repetition takes at least one character in every pattern used here, so the length of the text
bounds the rounds. -/
def matchLength? (p : Pattern) (text : List Char) : Option Nat :=
  p.run text.length 0 text (fun taken _ => some taken)

/-- The given character and no other. -/
def char (c : Char) : Pattern := .one (· == c)

/-- Any character but those listed. -/
def noneOf (cs : List Char) : Pattern := .one (fun c => !cs.contains c)

/-- Any character at all. -/
def any : Pattern := .one (fun _ => true)

/-- The given characters in order, then the pattern `next`. -/
def word : List Char → Pattern → Pattern
  | [], next => next
  | c :: cs, next => .seq (char c) (word cs next)

/-- The first of several patterns that lets the rest succeed, `last` at the end. -/
def firstOf : List Pattern → Pattern → Pattern
  | [], last => last
  | p :: ps, last => .choice p (firstOf ps last)

end Pattern
end Dartlet.Text
