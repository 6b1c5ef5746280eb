import Dartlet.Syntax.Grammar
import Dartlet.Syntax.Token

/-!
# Charts

A chart records, for each place between two tokens, which rules may be under way there. An item is
a rule, the number of parts of its body that have been read, and the place where reading it began.
A token fits if some item of the place before it expects its terminal; so the first token that does
not fit is the first one that continues no sentence of the grammar.

No rule has an empty body. An item that is complete at some place therefore began at an earlier
one, and the set of a place is found in three steps that do not feed back into each other: items
that read the last token, items that these complete, and items that may begin.
-/

namespace Dartlet.Syntax

/-- A rule under way. -/
structure Item where
  rule : Nat
  dot : Nat
  origin : Nat
  deriving DecidableEq, Repr

/-- The item after one more part has been read. -/
def Item.advance (i : Item) : Item := { i with dot := i.dot + 1 }

/-- A list of rules with its left corners, which are what a place predicts. -/
structure RuleTable where
  rules : Array Rule

namespace RuleTable

/-- The body of a rule. -/
def body (g : RuleTable) (rule : Nat) : List Symbol :=
  match g.rules[rule]? with
  | some r => r.body
  | none => []

/-- The category of a rule, if there is such a rule. -/
def head? (g : RuleTable) (rule : Nat) : Option Category := g.rules[rule]?.map Rule.head

/-- What an item expects next; nothing if it is complete. -/
def next? (g : RuleTable) (i : Item) : Option Symbol := (g.body i.rule)[i.dot]?

/-- The category that an item is a complete reading of. -/
def completed? (g : RuleTable) (i : Item) : Option Category :=
  match g.next? i with
  | some _ => none
  | none => g.head? i.rule

/-- The numbers of the rules for a category. -/
def rulesFor (g : RuleTable) (c : Category) : List Nat :=
  (List.range g.rules.size).filter (fun r => g.head? r == some c)

/-- The categories with which a rule for the given one may begin. -/
def corners (g : RuleTable) (c : Category) : List Category :=
  (g.rulesFor c).filterMap (fun r => match (g.body r).head? with
    | some (.cat d) => some d
    | _ => none)

/-- Everything that can be reached from `todo` in steps, added to `seen`. Each round takes one
thing from `todo`. -/
def closure {α : Type} [DecidableEq α] (step : α → List α) : Nat → List α → List α → List α
  | 0, seen, _ => seen
  | _ + 1, seen, [] => seen
  | n + 1, seen, x :: todo =>
    if x ∈ seen then closure step n seen todo else closure step n (x :: seen) (step x ++ todo)

/-- The number of rounds in which all categories are reached: each is taken up once and adds at
most one step for each rule. -/
def cornerRounds (g : RuleTable) (start : Nat) : Nat := start + (g.rules.size + 1) * (g.rules.size + 1)

/-- The items that begin at a place where the given categories are expected. -/
def predicted (g : RuleTable) (expected : List Category) (place : Nat) : List Item :=
  let categories := closure g.corners (g.cornerRounds expected.length) [] expected
  (List.range g.rules.size).filterMap (fun r => match g.head? r with
    | some c => if c ∈ categories then some ⟨r, 0, place⟩ else none
    | none => none)

/-- The categories that items expect. -/
def expectedCategories (g : RuleTable) (items : List Item) : List Category :=
  items.filterMap (fun i => match g.next? i with
    | some (.cat c) => some c
    | _ => none)

end RuleTable

/-- The sets of items of all places up to the present one. -/
abbrev ItemSets := Array (List Item)

namespace RuleTable

/-- The items that an item advances by being complete. -/
def completions (g : RuleTable) (sets : ItemSets) (i : Item) : List Item :=
  match g.completed? i with
  | none => []
  | some c => ((sets[i.origin]?.getD []).filter (fun j => g.next? j == some (.cat c))).map Item.advance

/-- The number of rounds in which all completions are found: each item is taken up once and adds at
most the items of one set. -/
def completionRounds (g : RuleTable) (sets : ItemSets) (start : Nat) : Nat :=
  let longest := g.rules.foldl (fun n r => max n r.body.length) 0
  let items := g.rules.size * (longest + 1) * (sets.size + 1)
  start + (items + 1) * (items + 1)

/-- The items of the place before the token that expect its terminal, advanced over it. -/
def scanned (g : RuleTable) (items : List Item) (terminal : Terminal) : List Item :=
  (items.filter (fun i => g.next? i == some (.tok terminal))).map Item.advance

/-- The set of the next place, from the items that read the last token. -/
def nextSet (g : RuleTable) (sets : ItemSets) (kernel : List Item) : List Item :=
  let complete := closure (g.completions sets) (g.completionRounds sets kernel.length) [] kernel
  complete ++ g.predicted (g.expectedCategories complete) sets.size

/-- The set of the first place. -/
def firstSet (g : RuleTable) (start : Category) : List Item := g.predicted [start] 0

/-- The sets after reading terminals in turn. Reading stops at a terminal that does not fit; it and
what follows it are left over. -/
def readAll (g : RuleTable) : ItemSets → List Terminal → ItemSets × List Terminal
  | sets, [] => (sets, [])
  | sets, t :: rest =>
    match g.scanned (sets.back?.getD []) t with
    | [] => (sets, t :: rest)
    | kernel => readAll g (sets.push (g.nextSet sets kernel)) rest

end RuleTable

/-- The rules of the grammar with their numbers. -/
def ruleTable : RuleTable := ⟨Grammar.rules.toArray⟩

end Dartlet.Syntax
