import Dartlet.Proofs.Program.BuiltTraits
import Dartlet.Proofs.Program.RoundTrip

/-!
# The places of constructs

Everything in a program that is read from a text has the position of a token of that text, but for what
stands in the braces of an embedded expression. That is a text of its own, and its positions count from
its own beginning. Only the empty program has no place.
-/

namespace Dartlet.Syntax

set_option linter.unusedSectionVars false

/-! ### Everything that runs has a place -/

namespace Node

/-- Whether a construct that can be run has a place. -/
def isLocated : Node → Bool
  | .expr x => x.location.isSome
  | .stmt x => x.location.isSome
  | _ => true

/-- A program in which everything that can be run has a place. -/
def Located (n : Node) : Prop := ∀ m, n.Contains m → m.isLocated = true

namespace Located

variable {n m k : Node}

theorem mk (hn : n.isLocated = true) (h : ∀ m ∈ n.children, m.Located) : n.Located := by
  intro m hm
  rcases contains_iff.mp hm with rfl | ⟨k, hk, hkm⟩
  · exact hn
  · exact h k hk m hkm

theorem part (h : n.Located) (hm : m ∈ n.children) : m.Located := fun k hk => h k (.of_mem hm hk)

theorem leaf (hn : n.isLocated = true) (hchildren : n.children = []) : n.Located :=
  .mk hn (by simp [hchildren])

theorem one (hn : n.isLocated = true) (hchildren : n.children = [m]) (hm : m.Located) : n.Located :=
  .mk hn (by simpa [hchildren] using hm)

theorem two (hn : n.isLocated = true) (hchildren : n.children = [m, k]) (hm : m.Located) (hk : k.Located) :
    n.Located :=
  .mk hn (by simpa [hchildren] using ⟨hm, hk⟩)

end Located

/-! ### Positions of tokens -/

/-- A program whose positions are those of some tokens. The positions of an expression that is embedded
in one of them are those of the tokens of its own text. -/
inductive PlacedIn : List Token → Node → Prop
  | here {ts : List Token} {n : Node} : (∀ l, n.location? = some l → ∃ t ∈ ts, l = some t.position) →
    (∀ m ∈ n.children, PlacedIn ts m) → PlacedIn ts n
  | embedded {ts : List Token} {t : Token} {code : String} {x : Expr} : t ∈ ts → t.terminal = .string →
    t.Embeds code → PlacedIn (lex code).tokens (.expr x) → PlacedIn ts (.part (.code x))

namespace PlacedIn

variable {ts : List Token} {n m : Node}

theorem location (h : n.PlacedIn ts) {l : Location} (hl : n.location? = some l) : ∃ t ∈ ts, l = some t.position := by
  cases h with
  | here hn _ => exact hn l hl
  | embedded => cases hl

theorem located (h : n.PlacedIn ts) : n.Located := by
  induction h with
  | here hn _ ih =>
    refine .mk ?_ ih
    rename_i n _
    cases n with
    | expr x | stmt x =>
      obtain ⟨t, -, ht⟩ := hn _ rfl
      simp [isLocated, ht]
    | _ => rfl
  | embedded _ _ _ _ ih => exact .one rfl rfl ih

/-- Only what an embedded expression contains can have another position than that of one of the tokens. -/
theorem position (h : n.PlacedIn ts) (hm : n.Contains m) {p : Position} (hp : m.location? = some (some p)) :
    (∃ t ∈ ts, t.position = p) ∨
    ∃ t ∈ ts, t.terminal = .string ∧ ∃ code x, t.Embeds code ∧ n.Contains (.part (.code x)) ∧
      (Node.expr x).Contains m ∧ (Node.expr x).PlacedIn (lex code).tokens := by
  induction h with
  | here hn _ ih =>
    rcases contains_iff.mp hm with rfl | ⟨k, hk, hkm⟩
    · obtain ⟨t, ht, hposition⟩ := hn _ hp
      exact .inl ⟨t, ht, (Option.some.inj hposition).symm⟩
    · refine (ih k hk hkm).imp_right ?_
      rintro ⟨t, ht, hstring, code, x, hcode, hx, hrest⟩
      exact ⟨t, ht, hstring, code, x, hcode, .of_mem hk hx, hrest⟩
  | embedded ht hstring hcode hx _ =>
    rcases contains_iff.mp hm with rfl | ⟨k, hk, hkm⟩
    · cases hp
    · cases List.mem_singleton.mp hk
      exact .inr ⟨_, ht, hstring, _, _, hcode, .self, hkm, hx⟩

end PlacedIn
end Node

/-- To have the positions of some tokens is a trait. -/
def placing (ts : List Token) : Trait where
  Covers t := t ∈ ts
  Shape _ := True
  Holds n := n.PlacedIn ts
  make hn _ h := .here hn h
  incidental _ := trivial
  receiver h := by
    cases h with
    | here _ h => exact h _ List.mem_cons_self
  parameter _ h := .here (fun _ hl => h.location hl) (List.forall_mem_nil _)

section

variable [Host]

theorem placing_shapes {read : String → Except SyntaxError Expr} (ts : List Token) : (placing ts).Shapes read :=
  fun _ _ _ _ _ _ _ _ _ _ _ _ _ => trivial

/-- The position of a token that stands in a text. -/
def IsTokenPosition (text : String) (p : Position) : Prop :=
  ∃ t ∈ (lex text).tokens, t.position = p ∧
    ∃ before after, text.toList = before ++ t.text.toList ++ after ∧ p = Position.start.after before

/-- A token stands in its text where it says. -/
theorem isTokenPosition {text : String} {t : Token} (ht : t ∈ (lex text).tokens) : IsTokenPosition text t.position := by
  have hscan (limit : Nat) (position : Position) (chars : List Char) : ∀ t ∈ (Lexer.scan limit position chars).tokens,
      ∃ before after, chars = before ++ t.text.toList ++ after ∧ t.position = position.after before := by
    induction limit generalizing position chars with
    | zero => cases chars <;> simp [Lexer.scan, Lexed.tokens]
    | succ limit ih =>
      cases chars with
      | nil => simp [Lexer.scan, Lexed.tokens]
      | cons c rest =>
        simp only [Lexer.scan]
        split
        · simp [Lexed.tokens]
        · rename_i terminal? length _
          intro t ht
          obtain ⟨lexeme, hlexeme, htoken⟩ := List.mem_filterMap.mp ht
          rcases List.mem_cons.mp hlexeme with rfl | hlexeme
          · obtain ⟨terminal, -, rfl⟩ := Option.map_eq_some_iff.mp htoken
            exact ⟨[], (c :: rest).drop length, by simp, rfl⟩
          · obtain ⟨before, after, hchars, hposition⟩ :=
              ih _ _ t (List.mem_filterMap.mpr ⟨lexeme, hlexeme, htoken⟩)
            refine ⟨(c :: rest).take length ++ before, after, ?_, by rw [hposition, Position.after_append]⟩
            rw [List.append_assoc, List.append_assoc, ← List.append_assoc before, ← hchars, List.take_append_drop]
  exact ⟨t, ht, rfl, hscan _ _ _ t ht⟩

theorem readExpr_placed {depth : Nat} {text : String} {x : Expr} (h : readExpr depth text = .ok x) :
    (Node.expr x).PlacedIn (lex text).tokens := by
  induction depth generalizing text x with
  | zero => cases h
  | succ depth ih =>
    exact readExpr_on (T := placing (lex text).tokens) (fun _ _ _ ht hstring hcode hx => .embedded ht hstring hcode (ih hx))
      (placing_shapes _) (fun _ ht => ht) h

theorem placing_reads (ts : List Token) (depth : Nat) : (placing ts).Reads (readExpr depth) :=
  fun _ _ _ ht hstring hcode hx => .embedded ht hstring hcode (readExpr_placed hx)

/-- Everything read from a text has the positions of its tokens, but for the empty program. -/
theorem Node.IsReadFrom.placed {text : String} {n : Node} (h : n.IsReadFrom text) :
    n.PlacedIn (lex text).tokens ∨ n = .stmt (.unit none []) :=
  h.on (placing_reads _) (fun _ => placing_shapes _) (fun _ ht => ht)

/-- Whole programs have places everywhere, but for the empty one. -/
theorem parseUnit_located {text : String} {x : Stmt} (h : parseUnit text = .ok x) :
    (Node.stmt x).Located ∨ x = .unit none [] :=
  (Node.IsReadFrom.program h).placed.imp Node.PlacedIn.located Node.stmt.inj

/-- A position that something read from a text carries is one where a token of the text stands, whether the
text is a program, statements or an expression. Only what stands in an expression that a string token
embeds may have another one: its positions are those of the tokens of the text between the braces, which
counts from its own beginning. -/
theorem positions_are_those_of_tokens {text : String} {n m : Node} {p : Position} (h : n.IsReadFrom text)
    (hm : n.Contains m) (hp : m.location? = some (some p)) :
    IsTokenPosition text p ∨
    ∃ t ∈ (lex text).tokens, t.terminal = .string ∧ ∃ code x, t.Embeds code ∧ n.Contains (.part (.code x)) ∧
      (Node.expr x).Contains m ∧ (Node.expr x).PlacedIn (lex code).tokens := by
  rcases h.placed with hplaced | rfl
  · refine (hplaced.position hm hp).imp_left ?_
    rintro ⟨t, ht, rfl⟩
    exact isTokenPosition ht
  · -- The empty program has no place and nothing in it.
    rcases Node.contains_iff.mp hm with rfl | ⟨k, hk, -⟩
    · cases hp
    · cases hk

end

/-- An expression with five tokens, none of them a string: its position is that of one of them. -/
theorem positions_are_those_of_tokens_difference :
    ∃ x p, parseExpression "a - b - 1" = .ok x ∧ x.location = some p ∧ IsTokenPosition "a - b - 1" p := by
  have hplain : ∀ t ∈ (lex "a - b - 1").tokens, t.terminal ≠ .string := by decide
  obtain ⟨x, hx⟩ := exists_difference
  obtain ⟨t, -, ht⟩ := (readExpr_placed hx).location rfl
  refine ⟨x, t.position, hx, ht, ?_⟩
  rcases positions_are_those_of_tokens (.expression hx) .self (congrArg some ht) with hposition | ⟨s, hs, hstring, -⟩
  · exact hposition
  · exact absurd hstring (hplain s hs)

end Dartlet.Syntax
