import Dartlet.Proofs.Program.Levels
import Dartlet.Proofs.Program.Words

/-!
# Operator expressions in words

An operator expression is made of names, whole numbers, parentheses, operators, conditionals, members,
indices and calls. It is written as its words in order. What it can be read back from is the text in which
these have blanks between them, if its operands bind as tightly as their places require.
-/

namespace Dartlet.Syntax

/-- The terminal of a symbol. What is no symbol counts as an identifier. -/
def Terminal.ofSymbol (s : String) : Terminal :=
  match symbols.find? (fun entry => entry.1 == s) with
  | some entry => entry.2
  | none => .identifier

namespace Word

/-- The word of a symbol. -/
def symbol (s : String) : Word := ⟨.ofSymbol s, s⟩

/-- The word of a name. -/
def name (s : String) : Word := ⟨.identifier, s⟩

/-- The word of a whole number. -/
def number (n : Int) : Word := ⟨.integer, toString n⟩

end Word

mutual

/-- The words of an operator expression in order. Other expressions have none. -/
def Expr.words : Expr → List Word
  | .identifier _ name => [.name name]
  | .intLiteral _ value => [.number value]
  | .parenthesized _ x => .symbol "(" :: x.words ++ [.symbol ")"]
  | .binary _ op x y => x.words ++ .symbol op.spelling :: y.words
  | .unary _ op x => .symbol op.spelling :: x.words
  | .conditional _ c t e => c.words ++ .symbol "?" :: (t.words ++ .symbol ":" :: e.words)
  | .property _ x name => x.words ++ [.symbol ".", .name name]
  | .index _ x key => x.words ++ .symbol "[" :: (key.words ++ [.symbol "]"])
  | .call _ f arguments =>
    f.words ++ .symbol "(" :: ([Word.symbol ","].intercalate (argumentWords arguments) ++ [.symbol ")"])
  | .methodCall _ x name arguments =>
    x.words ++ [.symbol ".", .name name] ++
      .symbol "(" :: ([Word.symbol ","].intercalate (argumentWords arguments) ++ [.symbol ")"])
  | _ => []

/-- The words of each positional argument. -/
def argumentWords : List Argument → List (List Word)
  | [] => []
  | .positional x :: rest => x.words :: argumentWords rest
  | .named .. :: rest => argumentWords rest

end

/-- The text of an operator expression: its words with single blanks between them. -/
def Expr.printed (e : Expr) : String := spaced e.words

mutual

/-- An operator expression without positions. Other expressions stay as they are. -/
def Expr.bare : Expr → Expr
  | .identifier _ name => .identifier none name
  | .intLiteral _ value => .intLiteral none value
  | .parenthesized _ x => .parenthesized none x.bare
  | .binary _ op x y => .binary none op x.bare y.bare
  | .unary _ op x => .unary none op x.bare
  | .conditional _ c t e => .conditional none c.bare t.bare e.bare
  | .property _ x name => .property none x.bare name
  | .index _ x key => .index none x.bare key.bare
  | .call _ f arguments => .call none f.bare (bareArguments arguments)
  | .methodCall _ x name arguments => .methodCall none x.bare name (bareArguments arguments)
  | x => x

/-- Arguments without positions. -/
def bareArguments : List Argument → List Argument
  | [] => []
  | .positional x :: rest => .positional x.bare :: bareArguments rest
  | .named _ name x :: rest => .named none name x.bare :: bareArguments rest

end

/-- Operator expressions whose operands bind as tightly as their places require. A call of a property
would be read as a call of a method. -/
inductive Expr.Printable : Expr → Prop
  | identifier {l : Location} {name : String} : isName name = true → Printable (.identifier l name)
  | intLiteral {l : Location} (n : Nat) : Printable (.intLiteral l n)
  | parenthesized {l : Location} {x : Expr} : Printable x → Printable (.parenthesized l x)
  | binary {l : Location} {op : BinaryOp} {x y : Expr} : Printable x → Printable y → 0 < op.level →
    op.leftLevel ≤ x.level → op.level < y.level → Printable (.binary l op x y)
  | unary {l : Location} {op : UnaryOp} {x : Expr} : Printable x → op = .negate ∨ op = .not →
    prefixLevel ≤ x.level → Printable (.unary l op x)
  | conditional {l : Location} {c t e : Expr} : Printable c → Printable t → Printable e →
    BinaryOp.or.level ≤ c.level → Printable (.conditional l c t e)
  | property {l : Location} {x : Expr} {name : String} : Printable x → postfixLevel ≤ x.level → isName name = true →
    Printable (.property l x name)
  | index {l : Location} {x key : Expr} : Printable x → postfixLevel ≤ x.level → Printable key →
    Printable (.index l x key)
  | call {l : Location} {f : Expr} {xs : List Expr} : Printable f → postfixLevel ≤ f.level →
    (∀ l' x name, f ≠ .property l' x name) → (∀ x ∈ xs, Printable x) → Printable (.call l f (xs.map .positional))
  | methodCall {l : Location} {x : Expr} {name : String} {xs : List Expr} : Printable x → postfixLevel ≤ x.level →
    isName name = true → (∀ x ∈ xs, Printable x) → Printable (.methodCall l x name (xs.map .positional))

theorem argumentWords_positional (xs : List Expr) : argumentWords (xs.map .positional) = xs.map Expr.words := by
  induction xs with
  | nil => rfl
  | cons x xs ih => simp [argumentWords, ih]

theorem bareArguments_positional (xs : List Expr) :
    bareArguments (xs.map .positional) = (xs.map Expr.bare).map .positional := by
  induction xs with
  | nil => rfl
  | cons x xs ih => simp [bareArguments, ih]

theorem callOf_of_ne {f : Expr} (h : ∀ l x name, f ≠ .property l x name) (l : Location) (arguments : List Argument) :
    callOf l f arguments = .call l f arguments := by
  cases f <;> simp_all [callOf]

theorem callOf_bare {f : Expr} (h : ∀ l x name, f ≠ .property l x name) (arguments : List Argument) :
    callOf none f.bare arguments = .call none f.bare arguments := by
  cases f <;> simp_all [Expr.bare, callOf]

/-! ### The words that occur -/

/-- The symbols of operator expressions. -/
def operatorSymbols : List String :=
  ["(", ")", "[", "]", ".", ",", "?", ":", "!", "||", "&&", "==", "!=", "<", "<=", ">", ">=", "+", "-", "*", "/", "~/",
    "%"]

/-- The words that occur in operator expressions. -/
inductive Word.Occurs : Word → Prop
  | name {s : String} : isName s = true → Occurs (.name s)
  | number (n : Nat) : Occurs (.number n)
  | symbol {s : String} : s ∈ operatorSymbols → Occurs (.symbol s)

theorem Word.Occurs.separable {w : Word} (h : w.Occurs) : w.Separable := by
  cases h with
  | name hs => exact separable_name hs
  | number n => exact separable_number n
  | symbol hs =>
    have hmem : ∀ s ∈ operatorSymbols, (s, Terminal.ofSymbol s) ∈ Terminal.symbols := by decide
    exact separable_symbol _ (hmem _ hs)

/-- The terminals of operator expressions. -/
def Terminal.isOperand : Terminal → Bool
  | .identifier | .integer | .or | .and | .eq | .ne | .lt | .le | .gt | .ge | .plus | .minus | .star | .slash
  | .tildeSlash | .percent | .bang | .question | .colon | .comma | .dot | .leftParen | .rightParen | .leftBracket
  | .rightBracket => true
  | _ => false

/-- A word that may stand in an operator expression: if it is a whole number, the host reads as many digits. -/
structure Word.IsOperand [Host] (w : Word) : Prop where
  terminal : w.terminal.isOperand = true
  digits : w.terminal = .integer → Host.refusesNumeral w.text.toList = false

theorem Word.Occurs.isOperand {w : Word} (h : w.Occurs) : w.terminal.isOperand = true := by
  cases h with
  | name | number => rfl
  | symbol hs =>
    have hmem : ∀ s ∈ operatorSymbols, (Terminal.ofSymbol s).isOperand = true := by decide
    exact hmem _ hs

theorem BinaryOp.spelling_mem {op : BinaryOp} (h : 0 < op.level) : op.spelling ∈ operatorSymbols := by
  cases op with
  | other s => exact absurd h (by simp [level])
  | _ => decide

theorem occurs_commaList {wss : List (List Word)} (h : ∀ ws ∈ wss, ∀ w ∈ ws, w.Occurs) :
    ∀ w ∈ [Word.symbol ","].intercalate wss, w.Occurs := by
  have hcomma : (Word.symbol ",").Occurs := .symbol (by decide)
  induction wss with
  | nil => simp
  | cons ws wss ih =>
    rw [List.forall_mem_cons] at h
    cases wss with
    | nil => simpa using h.1
    | cons vs wss =>
      rw [List.intercalate_cons_cons]
      simp only [List.forall_mem_append, List.forall_mem_singleton]
      exact ⟨⟨h.1, hcomma⟩, ih h.2⟩

theorem Expr.Printable.occurs {e : Expr} (h : e.Printable) : ∀ w ∈ e.words, w.Occurs := by
  have harguments {xs : List Expr} (h : ∀ x ∈ xs, ∀ w ∈ x.words, w.Occurs) :
      ∀ w ∈ [Word.symbol ","].intercalate (argumentWords (xs.map .positional)), w.Occurs := by
    rw [argumentWords_positional]
    exact occurs_commaList (List.forall_mem_map.mpr h)
  induction h with
  | identifier hn => simpa [words] using Word.Occurs.name hn
  | intLiteral n => simpa [words] using Word.Occurs.number n
  | parenthesized _ ih =>
    simp only [words, List.mem_append, List.mem_cons, List.not_mem_nil, or_false, or_imp, forall_and, forall_eq]
    exact ⟨⟨.symbol (by decide), ih⟩, .symbol (by decide)⟩
  | binary _ _ hop _ _ ihx ihy =>
    simp only [words, List.mem_append, List.mem_cons, or_imp, forall_and, forall_eq]
    exact ⟨ihx, .symbol (BinaryOp.spelling_mem hop), ihy⟩
  | unary _ hop _ ih =>
    simp only [words, List.mem_cons, or_imp, forall_and, forall_eq]
    exact ⟨by rcases hop with rfl | rfl <;> exact .symbol (by decide), ih⟩
  | conditional _ _ _ _ ihc iht ihe =>
    simp only [words, List.mem_append, List.mem_cons, or_imp, forall_and, forall_eq]
    exact ⟨ihc, .symbol (by decide), iht, .symbol (by decide), ihe⟩
  | property _ _ hn ih =>
    simp only [words, List.mem_append, List.mem_cons, List.not_mem_nil, or_false, or_imp, forall_and, forall_eq]
    exact ⟨ih, .symbol (by decide), .name hn⟩
  | index _ _ _ ih ihkey =>
    simp only [words, List.mem_append, List.mem_cons, List.not_mem_nil, or_false, or_imp, forall_and, forall_eq]
    exact ⟨ih, .symbol (by decide), ihkey, .symbol (by decide)⟩
  | call _ _ _ _ ih ihxs =>
    simp only [words, List.mem_append, List.mem_cons, List.not_mem_nil, or_false, or_imp, forall_and, forall_eq]
    exact ⟨ih, .symbol (by decide), harguments ihxs, .symbol (by decide)⟩
  | methodCall _ _ hn _ ih ihxs =>
    simp only [words, List.mem_append, List.mem_cons, List.not_mem_nil, or_false, or_imp, forall_and, forall_eq]
    exact ⟨⟨ih, .symbol (by decide), .name hn⟩, .symbol (by decide), harguments ihxs, .symbol (by decide)⟩

end Dartlet.Syntax
