import Dartlet.Syntax.Chart

/-!
# Derivations

A derivation shows how a sentence follows from the grammar: each node is a rule with a derivation
for each part of its body. A chart that has read a sentence holds all its derivations. The one that
counts is found from the end of the sentence backwards, by the preferences of the grammar.
-/

namespace Dartlet.Syntax

/-- A derivation of a symbol. -/
inductive Derivation where
  | leaf (token : Token)
  | node (rule : Rule) (location : Location) (parts : List Derivation)

namespace Derivation

mutual

/-- The tokens that a derivation covers. -/
def tokens : Derivation → List Token
  | .leaf t => [t]
  | .node _ _ parts => tokensAll parts

/-- The tokens that several derivations cover. -/
def tokensAll : List Derivation → List Token
  | [] => []
  | d :: rest => tokens d ++ tokensAll rest

end

end Derivation

/-- A chart that has read some tokens. -/
structure Chart where
  table : RuleTable
  tokens : Array Token
  sets : ItemSets

namespace Chart

/-- Whether the set of a place holds an item. -/
def holds (c : Chart) (place : Nat) (i : Item) : Bool := (c.sets[place]?.getD []).contains i

/-- Where a stretch of tokens begins in the text. -/
def location (c : Chart) (place : Nat) : Location := c.tokens[place]?.map Token.position

/-- The rule for a category that counts for a stretch of tokens: the first complete one. -/
def ruleFor? (c : Chart) (category : Category) (low high : Nat) : Option (Nat × Rule) :=
  match (c.table.rulesFor category).find? (fun r => c.holds high ⟨r, (c.table.body r).length, low⟩) with
  | some r => c.table.rules[r]?.map (fun rule => (r, rule))
  | none => none

/-- The places where a complete reading of a category may begin that ends at `high` and follows the
first `dot` parts of a rule begun at `low`. -/
def splits (c : Chart) (category : Category) (rule dot low high : Nat) : List Nat :=
  (c.sets[high]?.getD []).filterMap (fun i =>
    if c.table.completed? i == some category && c.holds i.origin ⟨rule, dot, low⟩ then some i.origin
    else none)

/-- Whether a stretch of tokens is nothing but braces and a semicolon at the end. -/
def isHollow (c : Chart) (low high : Nat) : Bool :=
  match ((c.tokens.extract low high).toList.map Token.terminal).reverse with
  | .semicolon :: rest => rest.all (fun t => t == .leftBrace || t == .rightBrace)
  | _ => false

/-- The place among several where the last part of a rule begins. -/
def choose? (c : Chart) (preference : LastPart) (high : Nat) (places : List Nat) : Option Nat :=
  match preference with
  | .longest => places.min?
  | .shortest => places.max?
  | .longestUnlessHollow =>
    match places.min? with
    | none => none
    | some k => if c.isHollow k high then places.max? else some k

/-- The derivations of the first parts of a rule begun at `low`, whose symbols are given last to
first, in front of derivations already found. -/
def parts? (c : Chart) (derive : Category → Nat → Nat → Option Derivation) (number : Nat) (rule : Rule)
    (low : Nat) : List Symbol → Nat → List Derivation → Option (List Derivation)
  | [], high, found => if high == low then some found else none
  | .tok _ :: before, high, found =>
    match high with
    | 0 => none
    | place + 1 =>
      match c.tokens[place]? with
      | some token => parts? c derive number rule low before place (.leaf token :: found)
      | none => none
  | .cat category :: before, high, found =>
    match c.choose? rule.lastPart high (c.splits category number before.length low high) with
    | none => none
    | some k =>
      match derive category k high with
      | none => none
      | some d => parts? c derive number rule low before k (d :: found)

/-- The derivation that counts for a category and a stretch of tokens. Each step goes to a shorter
stretch or to a category further down, so `depth` steps of nesting suffice. -/
def derive? (c : Chart) : Nat → Category → Nat → Nat → Option Derivation
  | 0, _, _, _ => none
  | depth + 1, category, low, high =>
    match c.ruleFor? category low high with
    | none => none
    | some (number, rule) =>
      (c.parts? (derive? c depth) number rule low rule.body.reverse high []).map
        (.node rule (c.location low))

/-- How deep derivations of the chart's tokens may nest. -/
def depthLimit (c : Chart) : Nat := (c.tokens.size + 1) * (c.table.rules.size + 1)

end Chart

/-- What reading a text comes to. -/
inductive Reading where
  | sentence (derivation : Option Derivation)
  | unexpectedToken (token : Token)
  | unexpectedEnd

/-- Read tokens as a sentence of a category. Only the empty sentence has no derivation. -/
def readTokens (start : Category) (tokens : List Token) : Reading :=
  let (sets, left) := ruleTable.readAll #[ruleTable.firstSet start] (tokens.map Token.terminal)
  match tokens[tokens.length - left.length]? with
  | some token => .unexpectedToken token
  | none =>
    if tokens.isEmpty && Grammar.acceptsEmpty start then .sentence none
    else
      let chart : Chart := ⟨ruleTable, tokens.toArray, sets⟩
      match chart.derive? chart.depthLimit start 0 tokens.length with
      | some derivation => .sentence (some derivation)
      | none => .unexpectedEnd

end Dartlet.Syntax
