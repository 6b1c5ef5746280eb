import Dartlet.Proofs.Program.Levels
import Dartlet.Proofs.Program.Words

/-!
# Operator expressions have one reading

The grammar relates lists of words to the operator expressions that they form, level by level. A reader
that goes through the words from left to right, and never has a choice, finds each such expression; so the
same words never form two of them. Words that can form something else on the way, such as a list or a named
argument, form no operator expression, and the reader stops at them.
-/

namespace Dartlet.Syntax

/-- What goes on after an expression. -/
inductive Joint where
  | question
  | operator (op : BinaryOp)
  | dot | bracket | parenthesis
  deriving DecidableEq

/-- The level at which an expression goes on. -/
def Joint.level : Joint → Nat
  | .question => 0
  | .operator op => op.level
  | .dot | .bracket | .parenthesis => postfixLevel

namespace Terminal

/-- How an expression goes on at a terminal, if it does. -/
def joint? : Terminal → Option Joint
  | .question => some .question
  | .dot => some .dot
  | .leftBracket => some .bracket
  | .leftParen => some .parenthesis
  | .or => some (.operator .or)
  | .and => some (.operator .and)
  | .eq => some (.operator .eq)
  | .ne => some (.operator .ne)
  | .lt => some (.operator .lt)
  | .le => some (.operator .le)
  | .gt => some (.operator .gt)
  | .ge => some (.operator .ge)
  | .plus => some (.operator .add)
  | .minus => some (.operator .sub)
  | .star => some (.operator .mul)
  | .slash => some (.operator .div)
  | .tildeSlash => some (.operator .truncDiv)
  | .percent => some (.operator .rem)
  | _ => none

/-- The operator that a terminal is in front of an operand. -/
def sign? : Terminal → Option UnaryOp
  | .minus => some .negate
  | .bang => some .not
  | _ => none

theorem level_of_joint? {t : Terminal} {op : BinaryOp} (h : t.joint? = some (.operator op)) :
    0 < op.level ∧ op.level < prefixLevel := by
  cases t <;> simp only [joint?, reduceCtorEq, Option.some.injEq, Joint.operator.injEq] at h <;> subst h <;> decide

end Terminal

/-! ### The reader -/

/-- A result and what is left of some words, fewer of them. -/
abbrev Taken (α : Type) (ws : List Word) : Type := { r : α × List Word // r.2.length < ws.length }

/-- A result and what is left of some words, maybe all of them. -/
abbrev Continued (α : Type) (ws : List Word) : Type := { r : α × List Word // r.2.length ≤ ws.length }

/-- The words after one of the given terminal. -/
def skip (t : Terminal) : (ws : List Word) → Option { rest : List Word // rest.length < ws.length }
  | [] => none
  | w :: rest => if w.terminal = t then some ⟨rest, Nat.lt_succ_self _⟩ else none

mutual

/-- Take an expression of some level from words. -/
def takeAt (level : Nat) (ws : List Word) : Option (Taken Expr ws) :=
  if _h : level < prefixLevel then do
    let ⟨(x, rest), hrest⟩ ← takeAt (level + 1) ws
    let ⟨r, hr⟩ ← takeOn level x rest
    some ⟨r, hr.trans_lt hrest⟩
  else
    match ws with
    | [] => none
    | w :: rest =>
      if _h : level = prefixLevel then
        match w.terminal.sign? with
        | some op => do
          let ⟨(x, rest'), hrest⟩ ← takeAt prefixLevel rest
          some ⟨(.unary none op x, rest'), Nat.lt_succ_of_lt hrest⟩
        | none => takeAt postfixLevel (w :: rest)
      else
        match w.terminal with
        | .identifier => do
          let ⟨r, hr⟩ ← takeOn postfixLevel (.identifier none w.text) rest
          some ⟨r, Nat.lt_succ_of_le hr⟩
        | .integer => do
          let ⟨r, hr⟩ ← takeOn postfixLevel (.intLiteral none (integerValue w.text)) rest
          some ⟨r, Nat.lt_succ_of_le hr⟩
        | .leftParen => do
          let ⟨(x, rest'), hrest⟩ ← takeAt 0 rest
          let ⟨after, hafter⟩ ← skip .rightParen rest'
          let ⟨r, hr⟩ ← takeOn postfixLevel (.parenthesized none x) after
          some ⟨r, Nat.lt_succ_of_le ((hr.trans_lt hafter).le.trans hrest.le)⟩
        | _ => none
termination_by (ws.length, 1, postfixLevel - level)
decreasing_by all_goals simp_wf; simp only [Prod.lex_def, prefixLevel, postfixLevel, true_and] at *; omega

/-- Go on after an expression as long as it goes on at some level. -/
def takeOn (level : Nat) (x : Expr) (ws : List Word) : Option (Continued Expr ws) :=
  match ws with
  | [] => some ⟨(x, []), le_rfl⟩
  | w :: rest =>
    match w.terminal.joint? with
    | none => some ⟨(x, w :: rest), le_rfl⟩
    | some joint =>
      if joint.level = level then
        match joint with
        | .question => do
          let ⟨(t, rest'), hrest⟩ ← takeAt 0 rest
          let ⟨after, hafter⟩ ← skip .colon rest'
          let ⟨(e, last), hlast⟩ ← takeAt 0 after
          some ⟨(.conditional none x t e, last), Nat.le_succ_of_le ((hlast.trans hafter).trans hrest).le⟩
        | .operator op => do
          let ⟨(y, rest'), hrest⟩ ← takeAt (level + 1) rest
          let ⟨r, hr⟩ ← takeOn level (.binary none op x y) rest'
          some ⟨r, Nat.le_succ_of_le (hr.trans_lt hrest).le⟩
        | .dot =>
          match rest with
          | [] => none
          | name :: rest' => do
            let ⟨r, hr⟩ ← takeOn level (.property none x name.text) rest'
            some ⟨r, Nat.le_succ_of_le (Nat.le_succ_of_le hr)⟩
        | .bracket => do
          let ⟨(key, rest'), hrest⟩ ← takeAt 0 rest
          let ⟨after, hafter⟩ ← skip .rightBracket rest'
          let ⟨r, hr⟩ ← takeOn level (.index none x key) after
          some ⟨r, Nat.le_succ_of_le ((hr.trans_lt hafter).trans hrest).le⟩
        | .parenthesis => do
          let ⟨(arguments, rest'), hrest⟩ ← takeArguments rest
          let ⟨r, hr⟩ ← takeOn level (callOf none x arguments) rest'
          some ⟨r, Nat.le_succ_of_le (hr.trans_lt hrest).le⟩
      else some ⟨(x, w :: rest), le_rfl⟩
termination_by (ws.length, 0, 0)
decreasing_by all_goals simp_wf; simp only [Prod.lex_def, true_and] at *; omega

/-- Take positional arguments up to the closing parenthesis. -/
def takeArguments (ws : List Word) : Option (Taken (List Argument) ws) :=
  match ws with
  | [] => none
  | w :: rest =>
    if w.terminal = .rightParen then some ⟨([], rest), Nat.lt_succ_self _⟩ else takeMore (w :: rest)
termination_by (ws.length, 3, 0)
decreasing_by simp_wf; simp [Prod.lex_def]

/-- Take one positional argument and those after it, up to the closing parenthesis. -/
def takeMore (ws : List Word) : Option (Taken (List Argument) ws) := do
  let ⟨(x, rest), hrest⟩ ← takeAt 0 ws
  match rest, hrest with
  | [], _ => none
  | w :: rest, hrest =>
    have hlt : rest.length < ws.length := Nat.lt_of_succ_lt hrest
    if w.terminal = .comma then do
      let ⟨(arguments, last), hlast⟩ ← takeArguments rest
      some ⟨(.positional x :: arguments, last), hlast.trans hlt⟩
    else if w.terminal = .rightParen then some ⟨([.positional x], rest), hlt⟩
    else none
termination_by (ws.length, 2, 0)
decreasing_by all_goals simp_wf; simp only [Prod.lex_def, true_and] at *; omega

end

/-- Read an expression of some level, and what is left after it. -/
def readAt (level : Nat) (ws : List Word) : Option (Expr × List Word) := (takeAt level ws).map Subtype.val

/-- Go on after an expression, and what is left in the end. -/
def climb (level : Nat) (x : Expr) (ws : List Word) : Option (Expr × List Word) := (takeOn level x ws).map Subtype.val

/-- Read positional arguments, and what is left after the closing parenthesis. -/
def readArguments (ws : List Word) : Option (List Argument × List Word) := (takeArguments ws).map Subtype.val

theorem skip_cons (t : Terminal) (s : String) (rest : List Word) :
    skip t (⟨t, s⟩ :: rest) = some ⟨rest, Nat.lt_succ_self _⟩ := by
  simp [skip]

/-- It can be forgotten before or after going on that fewer words are left. -/
theorem map_bind_val {α β : Type} {p : α → Prop} {q : β → Prop} {o : Option (Subtype p)}
    {f : Subtype p → Option (Subtype q)} {g : α → Option β} (h : ∀ r, (f r).map Subtype.val = g r.1) :
    (o >>= f).map Subtype.val = (o.map Subtype.val).bind g := by
  cases o with
  | none => rfl
  | some r => exact h r

/-- To say again how many words are left changes nothing but that. -/
theorem map_val_again {α : Type} {p q : α → Prop} {o : Option (Subtype p)} (h : ∀ r : Subtype p, q r.1) :
    (o >>= fun r => some (⟨r.1, h r⟩ : Subtype q)).map Subtype.val = o.map Subtype.val := by
  cases o <;> rfl

theorem readAt_lower {level : Nat} (h : level < prefixLevel) (ws : List Word) :
    readAt level ws = (readAt (level + 1) ws).bind (fun r => climb level r.1 r.2) := by
  rw [readAt, takeAt.eq_def, dif_pos h]
  exact map_bind_val (fun _ => map_val_again _)

theorem readAt_signed {w : Word} {op : UnaryOp} (h : w.terminal.sign? = some op) (rest : List Word) :
    readAt prefixLevel (w :: rest) = (readAt prefixLevel rest).bind (fun r => some (.unary none op r.1, r.2)) := by
  rw [readAt, takeAt, dif_neg (Nat.lt_irrefl _), dif_pos rfl]
  simp only [h]
  exact map_bind_val (fun _ => rfl)

theorem readAt_unsigned {w : Word} (h : w.terminal.sign? = none) (rest : List Word) :
    readAt prefixLevel (w :: rest) = readAt postfixLevel (w :: rest) := by
  rw [readAt, takeAt, dif_neg (Nat.lt_irrefl _), dif_pos rfl]
  simp only [h]
  rfl

theorem readAt_identifier (name : String) (rest : List Word) :
    readAt postfixLevel (⟨.identifier, name⟩ :: rest) = climb postfixLevel (.identifier none name) rest := by
  rw [readAt, takeAt]
  exact map_val_again _

theorem readAt_number (s : String) (rest : List Word) :
    readAt postfixLevel (⟨.integer, s⟩ :: rest) = climb postfixLevel (.intLiteral none (integerValue s)) rest := by
  rw [readAt, takeAt]
  exact map_val_again _

theorem readAt_parenthesis (s : String) (rest : List Word) :
    readAt postfixLevel (⟨.leftParen, s⟩ :: rest) = (readAt 0 rest).bind (fun r =>
      (skip .rightParen r.2).bind (fun after => climb postfixLevel (.parenthesized none r.1) after.1)) := by
  rw [readAt, takeAt]
  refine map_bind_val (fun r => ?_)
  obtain ⟨⟨x, left⟩, hleft⟩ := r
  dsimp only
  cases skip .rightParen left with
  | none => rfl
  | some after => exact map_val_again _

/-- Whether a postfix expression can begin with a terminal. -/
def Terminal.isStart (t : Terminal) : Bool := t == .identifier || t == .integer || t == .leftParen

theorem readAt_foreign {w : Word} (h : w.terminal.isStart = false) (rest : List Word) :
    readAt postfixLevel (w :: rest) = none := by
  rw [readAt, takeAt]
  obtain ⟨t, s⟩ := w
  cases t <;> first | rfl | simp [Terminal.isStart] at h

/-- An expression ends where it cannot go on at a level. -/
theorem climb_stop {level : Nat} {x : Expr} {rest : List Word}
    (h : ∀ w ∈ rest.head?, ∀ j ∈ w.terminal.joint?, j.level ≠ level) : climb level x rest = some (x, rest) := by
  rw [climb]
  cases rest with
  | nil =>
    rw [takeOn]
    rfl
  | cons w rest =>
    rw [takeOn.eq_def]
    cases hj : w.terminal.joint? with
    | none => simp only [hj, Option.map_some]
    | some j => simp only [hj, if_neg (h w rfl j hj), Option.map_some]

theorem climb_other {level : Nat} {w : Word} {j : Joint} (h : w.terminal.joint? = some j) (hj : j.level ≠ level)
    (x : Expr) (rest : List Word) : climb level x (w :: rest) = some (x, w :: rest) := by
  refine climb_stop (fun w' hw' j' hj' => ?_)
  obtain rfl : w = w' := Option.some.inj hw'
  obtain rfl : j = j' := Option.some.inj (h.symm.trans hj')
  exact hj

theorem climb_question {w : Word} (h : w.terminal.joint? = some .question) (x : Expr) (rest : List Word) :
    climb 0 x (w :: rest) = (readAt 0 rest).bind (fun t => (skip .colon t.2).bind (fun after =>
      (readAt 0 after.1).bind (fun e => some (.conditional none x t.1 e.1, e.2)))) := by
  rw [climb, takeOn.eq_def]
  simp only [h, Joint.level, if_pos]
  refine map_bind_val (fun r => ?_)
  obtain ⟨⟨t, left⟩, hleft⟩ := r
  dsimp only
  cases skip .colon left with
  | none => rfl
  | some after => exact map_bind_val (g := fun e : Expr × List Word => some (Expr.conditional none x t e.1, e.2)) (fun _ => rfl)

theorem climb_operator {w : Word} {op : BinaryOp} (h : w.terminal.joint? = some (.operator op)) (x : Expr)
    (rest : List Word) :
    climb op.level x (w :: rest) =
      (readAt (op.level + 1) rest).bind (fun r => climb op.level (.binary none op x r.1) r.2) := by
  rw [climb, takeOn.eq_def]
  simp only [h, Joint.level, if_pos]
  exact map_bind_val (fun _ => map_val_again _)

theorem climb_dot {w name : Word} (h : w.terminal.joint? = some .dot) (x : Expr) (rest : List Word) :
    climb postfixLevel x (w :: name :: rest) = climb postfixLevel (.property none x name.text) rest := by
  rw [climb, takeOn.eq_def]
  simp only [h, Joint.level, if_pos]
  exact map_val_again _

theorem climb_bracket {w : Word} (h : w.terminal.joint? = some .bracket) (x : Expr) (rest : List Word) :
    climb postfixLevel x (w :: rest) = (readAt 0 rest).bind (fun r =>
      (skip .rightBracket r.2).bind (fun after => climb postfixLevel (.index none x r.1) after.1)) := by
  rw [climb, takeOn.eq_def]
  simp only [h, Joint.level, if_pos]
  refine map_bind_val (fun r => ?_)
  obtain ⟨⟨key, left⟩, hleft⟩ := r
  dsimp only
  cases skip .rightBracket left with
  | none => rfl
  | some after => exact map_val_again _

theorem climb_parenthesis {w : Word} (h : w.terminal.joint? = some .parenthesis) (x : Expr) (rest : List Word) :
    climb postfixLevel x (w :: rest) =
      (readArguments rest).bind (fun r => climb postfixLevel (callOf none x r.1) r.2) := by
  rw [climb, takeOn.eq_def]
  simp only [h, Joint.level, if_pos]
  exact map_bind_val (fun _ => map_val_again _)

theorem readArguments_close (s : String) (rest : List Word) :
    readArguments (⟨.rightParen, s⟩ :: rest) = some ([], rest) := by
  rw [readArguments, takeArguments]
  rfl

/-- Arguments that do not end are an expression, and after a comma more arguments. -/
theorem readArguments_open {w : Word} (h : w.terminal ≠ .rightParen) (rest : List Word) :
    readArguments (w :: rest) = (readAt 0 (w :: rest)).bind (fun r =>
      match r.2 with
      | [] => none
      | w :: rest =>
        if w.terminal = .comma then (readArguments rest).bind (fun found => some (.positional r.1 :: found.1, found.2))
        else if w.terminal = .rightParen then some ([.positional r.1], rest)
        else none) := by
  rw [readArguments, takeArguments, if_neg h, takeMore.eq_def]
  refine map_bind_val (fun r => ?_)
  obtain ⟨⟨x, left⟩, hleft⟩ := r
  cases left with
  | nil => rfl
  | cons w rest =>
    by_cases hcomma : w.terminal = .comma
    · simp only [if_pos hcomma]
      exact map_bind_val (fun _ => rfl)
    · simp only [if_neg hcomma]
      split <;> rfl

/-! ### What words form -/

/-- What stands in the place of an argument: an expression, or a name with a colon before one. -/
inductive Slot where
  | filled (words : List Word) (value : Option Expr)
  | named (name colon : String) (words : List Word)

namespace Slot

/-- The words of a slot. -/
def words : Slot → List Word
  | filled ws _ => ws
  | named name colon ws => ⟨.identifier, name⟩ :: ⟨.colon, colon⟩ :: ws

/-- The expression in a slot. -/
def value : Slot → Option Expr
  | filled _ x => x
  | named .. => none

end Slot

/-- The words of slots with commas between them, and maybe one after the last. -/
inductive Row : List Slot → List Word → Prop
  | nil : Row [] []
  | last (s : Slot) : Row [s] s.words
  | more (s : Slot) (comma : String) {slots : List Slot} {ws : List Word} : Row slots ws →
    Row (s :: slots) (s.words ++ ⟨.comma, comma⟩ :: ws)

/-- The expression that words form at a level. Words that form something else at the level, which is no
operator expression, form none. -/
inductive Forms : Nat → List Word → Option Expr → Prop
  | lower {level : Nat} {ws : List Word} {x : Option Expr} : level < postfixLevel → Forms (level + 1) ws x →
    Forms level ws x
  | conditional (a b : String) {us vs ws : List Word} {x y z : Option Expr} : Forms BinaryOp.or.level us x →
    Forms 0 vs y → Forms 0 ws z →
    Forms 0 (us ++ ⟨.question, a⟩ :: (vs ++ ⟨.colon, b⟩ :: ws))
      (x.bind (fun x => y.bind (fun y => z.map (fun z => .conditional none x y z))))
  | binary {w : Word} {op : BinaryOp} {us vs : List Word} {x y : Option Expr} :
    w.terminal.joint? = some (.operator op) → Forms op.leftLevel us x → Forms (op.level + 1) vs y →
    Forms op.level (us ++ w :: vs) (x.bind (fun x => y.map (fun y => .binary none op x y)))
  | unary {w : Word} {op : UnaryOp} {ws : List Word} {x : Option Expr} : w.terminal.sign? = some op →
    Forms prefixLevel ws x → Forms prefixLevel (w :: ws) (x.map (fun x => .unary none op x))
  | property (dot name : String) {ws : List Word} {x : Option Expr} : Forms postfixLevel ws x →
    Forms postfixLevel (ws ++ [⟨.dot, dot⟩, ⟨.identifier, name⟩]) (x.map (fun x => .property none x name))
  | index (a b : String) {us vs : List Word} {x key : Option Expr} : Forms postfixLevel us x → Forms 0 vs key →
    Forms postfixLevel (us ++ ⟨.leftBracket, a⟩ :: (vs ++ [⟨.rightBracket, b⟩]))
      (x.bind (fun x => key.map (fun key => .index none x key)))
  | call (a b : String) {us vs : List Word} {x : Option Expr} {slots : List Slot} : Forms postfixLevel us x →
    Row slots vs → (∀ ws y, .filled ws y ∈ slots → Forms 0 ws y) →
    Forms postfixLevel (us ++ ⟨.leftParen, a⟩ :: (vs ++ [⟨.rightParen, b⟩]))
      (x.bind (fun x => (slots.mapM Slot.value).map (fun ys => callOf none x (ys.map .positional))))
  | identifier (name : String) : Forms postfixLevel [⟨.identifier, name⟩] (some (.identifier none name))
  | number (s : String) : Forms postfixLevel [⟨.integer, s⟩] (some (.intLiteral none (integerValue s)))
  | parenthesized (a b : String) {ws : List Word} {x : Option Expr} : Forms 0 ws x →
    Forms postfixLevel (⟨.leftParen, a⟩ :: (ws ++ [⟨.rightParen, b⟩])) (x.map (fun x => .parenthesized none x))
  | collection {w : Word} (ws : List Word) : w.terminal = .leftBracket ∨ w.terminal = .lt →
    Forms postfixLevel (w :: ws) none

theorem Forms.lower_le {level m : Nat} {ws : List Word} {x : Option Expr} (h : Forms m ws x) (hm : m ≤ postfixLevel)
    (hle : level ≤ m) : Forms level ws x := by
  obtain ⟨k, rfl⟩ := Nat.exists_eq_add_of_le hle
  induction k with
  | zero => exact h
  | succ k ih => exact ih (.lower (by omega) h) (by omega) (by omega)

/-- What an expression begins with: no closing parenthesis, and no operator if it is a postfix expression. -/
theorem Forms.begins {level : Nat} {ws : List Word} {x : Option Expr} (h : Forms level ws x) :
    ∃ w rest, ws = w :: rest ∧ w.terminal ≠ .rightParen ∧ (level = postfixLevel → w.terminal.sign? = none) := by
  induction h with
  | lower hlevel _ ih =>
    obtain ⟨w, rest, rfl, hw, -⟩ := ih
    exact ⟨w, rest, rfl, hw, fun h => absurd h hlevel.ne⟩
  | conditional _ _ _ _ _ ih =>
    obtain ⟨w, rest, rfl, hw, -⟩ := ih
    exact ⟨w, _, rfl, hw, fun h => absurd h (by decide)⟩
  | binary hop _ _ ih =>
    obtain ⟨w, rest, rfl, hw, -⟩ := ih
    refine ⟨w, _, rfl, hw, fun h => ?_⟩
    have := (Terminal.level_of_joint? hop).2
    simp only [h, prefixLevel, postfixLevel] at this
    omega
  | @unary w op ws x hop _ _ =>
    refine ⟨w, ws, rfl, fun h => ?_, fun h => absurd h (by decide)⟩
    rw [h] at hop
    cases hop
  | property _ _ _ ih | index _ _ _ _ ih | call _ _ _ _ _ ih =>
    obtain ⟨w, rest, rfl, hw, hsign⟩ := ih
    exact ⟨w, _, rfl, hw, hsign⟩
  | identifier | number | parenthesized => exact ⟨_, _, rfl, by simp, fun _ => rfl⟩
  | collection ws hw =>
    refine ⟨_, ws, rfl, ?_, fun _ => ?_⟩ <;> rcases hw with hw | hw <;> simp [hw, Terminal.sign?]

/-! ### The reader finds what words form -/

/-- Words after an expression of some level that do not belong to it, or go on at that level. -/
def Stops (level : Nat) (rest : List Word) : Prop :=
  ∀ w ∈ rest.head?, ∀ j ∈ w.terminal.joint?, 0 < level ∧ j.level ≤ level

namespace Stops

variable {level m : Nat} {rest : List Word}

theorem mono (h : Stops level rest) (hm : level ≤ m) : Stops m rest :=
  fun w hw j hj => ⟨(h w hw j hj).1.trans_le hm, (h w hw j hj).2.trans hm⟩

/-- Nothing goes on at a tighter level, nor at the loosest one. -/
theorem climb (h : Stops level rest) (hm : level < m ∨ level = 0) (x : Expr) : climb m x rest = some (x, rest) := by
  refine climb_stop (fun w hw j hj hlevel => ?_)
  have := h w hw j hj
  omega

theorem of_joint? {w : Word} {j : Joint} (h : w.terminal.joint? = some j) (hlevel : 0 < level) (hj : j.level ≤ level) :
    Stops level (w :: rest) := by
  intro w' hw' j' hj'
  obtain rfl : w = w' := Option.some.inj hw'
  obtain rfl : j = j' := Option.some.inj (h.symm.trans hj')
  exact ⟨hlevel, hj⟩

theorem of_none {w : Word} (h : w.terminal.joint? = none) : Stops level (w :: rest) := by
  intro w' hw' j' hj'
  obtain rfl : w = w' := Option.some.inj hw'
  exact nomatch h.symm.trans hj'

end Stops

theorem Terminal.level_ne_prefixLevel {t : Terminal} {j : Joint} (h : t.joint? = some j) : j.level ≠ prefixLevel := by
  cases j with
  | operator op => exact (level_of_joint? h).2.ne
  | _ => decide

theorem Terminal.level_le_postfixLevel {t : Terminal} {j : Joint} (h : t.joint? = some j) :
    j.level ≤ postfixLevel := by
  cases j with
  | operator op => exact (level_of_joint? h).2.le.trans (by decide)
  | _ => decide

theorem stops_tightest (rest : List Word) : Stops postfixLevel rest :=
  fun _ _ _ hj => ⟨by decide, Terminal.level_le_postfixLevel hj⟩

/-- Words that the reader reads as an expression of some level, before words that do not belong to it. -/
def IsReadAs (level : Nat) (ws : List Word) (x : Option Expr) : Prop :=
  ∀ rest, Stops level rest → readAt level (ws ++ rest) = x.bind (fun x => climb level x rest)

namespace IsReadAs

variable {level : Nat} {us vs ws : List Word} {x y z : Option Expr}

theorem lower (h : IsReadAs (level + 1) ws x) (hlevel : level < prefixLevel) : IsReadAs level ws x := by
  intro rest hrest
  rw [readAt_lower hlevel, h rest (hrest.mono (Nat.le_succ level)), Option.bind_assoc]
  congr 1
  funext x
  rw [hrest.climb (.inl (Nat.lt_succ_self level)), Option.bind_some]

theorem lower_unsigned (h : IsReadAs postfixLevel ws x) {w : Word} {rest : List Word} (hws : ws = w :: rest)
    (hw : w.terminal.sign? = none) : IsReadAs prefixLevel ws x := by
  intro rest' hrest'
  subst hws
  rw [List.cons_append, readAt_unsigned hw, ← List.cons_append, h rest' (stops_tightest rest')]
  congr 1
  funext x
  rw [hrest'.climb (.inl (by decide)), climb_stop (fun w _ j hj => Terminal.level_ne_prefixLevel hj)]

theorem loosest (h : IsReadAs level ws x) (hlevel : level ≤ prefixLevel) : IsReadAs 0 ws x := by
  induction level with
  | zero => exact h
  | succ level ih => exact ih (h.lower hlevel) (Nat.le_of_succ_le hlevel)

theorem conditional (a b : String) (hx : IsReadAs 1 us x) (hy : IsReadAs 0 vs y) (hz : IsReadAs 0 ws z) :
    IsReadAs 0 (us ++ ⟨.question, a⟩ :: (vs ++ ⟨.colon, b⟩ :: ws))
      (x.bind (fun x => y.bind (fun y => z.map (fun z => .conditional none x y z)))) := by
  intro rest hrest
  have hstop {s : String} {rest : List Word} : Stops 0 (⟨.colon, s⟩ :: rest) := .of_none rfl
  rw [List.append_assoc, List.cons_append, readAt_lower (by decide), Nat.zero_add,
    hx _ (.of_joint? rfl (by decide) (by decide))]
  cases x with
  | none => rfl
  | some x =>
    simp only [Option.bind_some]
    rw [climb_other rfl (by decide), Option.bind_some, climb_question rfl, List.append_assoc,
      List.cons_append, hy _ hstop]
    cases y with
    | none => rfl
    | some y =>
      simp only [Option.bind_some]
      rw [hstop.climb (.inr rfl), Option.bind_some, skip_cons, Option.bind_some, hz _ hrest]
      cases z with
      | none => rfl
      | some z =>
        simp only [Option.bind_some, Option.map_some]
        rw [hrest.climb (.inr rfl), hrest.climb (.inr rfl), Option.bind_some]

theorem binary {w : Word} {op : BinaryOp} (hop : w.terminal.joint? = some (.operator op))
    (hx : IsReadAs op.leftLevel us x) (hy : IsReadAs (op.level + 1) vs y) :
    IsReadAs op.level (us ++ w :: vs) (x.bind (fun x => y.map (fun y => .binary none op x y))) := by
  intro rest hrest
  obtain ⟨hpos, hlt⟩ := Terminal.level_of_joint? hop
  have hleft : IsReadAs op.level us x := by
    unfold BinaryOp.leftLevel at hx
    split at hx
    · exact hx
    · exact hx.lower hlt
  rw [List.append_assoc, List.cons_append, hleft _ (.of_joint? hop hpos le_rfl)]
  cases x with
  | none => rfl
  | some x =>
    simp only [Option.bind_some]
    rw [climb_operator hop, hy _ (hrest.mono (Nat.le_succ op.level))]
    cases y with
    | none => rfl
    | some y =>
      simp only [Option.bind_some, Option.map_some]
      rw [hrest.climb (.inl (Nat.lt_succ_self op.level)), Option.bind_some]

theorem unary {w : Word} {op : UnaryOp} (hop : w.terminal.sign? = some op) (hx : IsReadAs prefixLevel ws x) :
    IsReadAs prefixLevel (w :: ws) (x.map (fun x => .unary none op x)) := by
  intro rest hrest
  have hclimb (x : Expr) : climb prefixLevel x rest = some (x, rest) :=
    climb_stop (fun w _ j hj => Terminal.level_ne_prefixLevel hj)
  rw [List.cons_append, readAt_signed hop, hx rest hrest]
  cases x with
  | none => rfl
  | some x => simp only [Option.bind_some, Option.map_some, hclimb]

theorem property (dot name : String) (hx : IsReadAs postfixLevel ws x) :
    IsReadAs postfixLevel (ws ++ [⟨.dot, dot⟩, ⟨.identifier, name⟩]) (x.map (fun x => .property none x name)) := by
  intro rest _
  rw [List.append_assoc, hx _ (stops_tightest _)]
  cases x with
  | none => rfl
  | some x =>
    simp only [Option.bind_some, Option.map_some]
    exact climb_dot rfl x rest

theorem index (a b : String) (hx : IsReadAs postfixLevel us x) (hy : IsReadAs 0 vs y) :
    IsReadAs postfixLevel (us ++ ⟨.leftBracket, a⟩ :: (vs ++ [⟨.rightBracket, b⟩]))
      (x.bind (fun x => y.map (fun y => .index none x y))) := by
  intro rest _
  have hstop {s : String} {rest : List Word} : Stops 0 (⟨.rightBracket, s⟩ :: rest) := .of_none rfl
  rw [List.append_assoc, hx _ (stops_tightest _)]
  cases x with
  | none => rfl
  | some x =>
    simp only [Option.bind_some]
    rw [List.cons_append, climb_bracket rfl, List.append_assoc, List.singleton_append, hy _ hstop]
    cases y with
    | none => rfl
    | some y =>
      simp only [Option.bind_some, Option.map_some]
      rw [hstop.climb (.inr rfl), Option.bind_some, skip_cons, Option.bind_some]

theorem identifier (name : String) :
    IsReadAs postfixLevel [⟨.identifier, name⟩] (some (.identifier none name)) :=
  fun rest _ => readAt_identifier name rest

theorem number (s : String) :
    IsReadAs postfixLevel [⟨.integer, s⟩] (some (.intLiteral none (integerValue s))) :=
  fun rest _ => readAt_number s rest

theorem parenthesized (a b : String) (hx : IsReadAs 0 ws x) :
    IsReadAs postfixLevel (⟨.leftParen, a⟩ :: (ws ++ [⟨.rightParen, b⟩])) (x.map (fun x => .parenthesized none x)) := by
  intro rest _
  have hstop {s : String} {rest : List Word} : Stops 0 (⟨.rightParen, s⟩ :: rest) := .of_none rfl
  rw [List.cons_append, readAt_parenthesis, List.append_assoc, List.singleton_append, hx _ hstop]
  cases x with
  | none => rfl
  | some x =>
    simp only [Option.bind_some, Option.map_some]
    rw [hstop.climb (.inr rfl), Option.bind_some, skip_cons, Option.bind_some]

theorem foreign {w : Word} (hw : w.terminal.isStart = false) (ws : List Word) :
    IsReadAs postfixLevel (w :: ws) none :=
  fun rest _ => readAt_foreign hw (ws ++ rest)

end IsReadAs

/-! ### Arguments -/

/-- A slot whose expression is read as such, and which is not the end of the arguments. -/
def Slot.IsRead : Slot → Prop
  | .filled ws x => IsReadAs 0 ws x ∧ ∃ w rest, ws = w :: rest ∧ w.terminal ≠ .rightParen
  | .named .. => True

/-- A slot before words at which its expression ends. -/
theorem Slot.readArguments_words {s : Slot} (h : s.IsRead) {w : Word} (hw : w.terminal.joint? = none)
    (rest : List Word) :
    readArguments (s.words ++ w :: rest) = s.value.bind (fun x =>
      if w.terminal = .comma then (readArguments rest).bind (fun found => some (.positional x :: found.1, found.2))
      else if w.terminal = .rightParen then some ([.positional x], rest)
      else none) := by
  cases s with
  | filled ws x =>
    obtain ⟨hread, v, vs, rfl, hv⟩ := h
    have hstop : Stops 0 (w :: rest) := .of_none hw
    rw [words, List.cons_append, readArguments_open hv, ← List.cons_append, hread _ hstop, value]
    cases x with
    | none => rfl
    | some x =>
      simp only [Option.bind_some]
      rw [hstop.climb (.inr rfl), Option.bind_some]
  | named name colon ws =>
    have hstop {rest : List Word} : Stops 0 (⟨.colon, colon⟩ :: rest) := .of_none rfl
    have hname : readAt 0 (⟨.identifier, name⟩ :: ⟨.colon, colon⟩ :: (ws ++ w :: rest)) =
        some (.identifier none name, ⟨.colon, colon⟩ :: (ws ++ w :: rest)) :=
      ((((IsReadAs.identifier name).lower_unsigned rfl rfl).loosest le_rfl) _ hstop).trans (hstop.climb (.inr rfl) _)
    rw [words, List.cons_append, List.cons_append, readArguments_open (by simp), hname]
    rfl

/-- The reader reads the arguments in a row of slots, up to the parenthesis that closes it. -/
theorem Row.readArguments {slots : List Slot} {ws : List Word} (h : Row slots ws) (hslots : ∀ s ∈ slots, s.IsRead)
    (b : String) (rest : List Word) :
    readArguments (ws ++ ⟨.rightParen, b⟩ :: rest) =
      (slots.mapM Slot.value).map (fun xs => (xs.map .positional, rest)) := by
  induction h with
  | nil => exact readArguments_close b rest
  | last s =>
    rw [Slot.readArguments_words (hslots s List.mem_cons_self) rfl]
    rw [List.mapM_cons, List.mapM_nil]
    cases s.value <;> rfl
  | @more s comma slots ws _ ih =>
    rw [List.forall_mem_cons] at hslots
    rw [List.append_assoc, List.cons_append, Slot.readArguments_words hslots.1 rfl, ih hslots.2]
    rw [List.mapM_cons]
    cases s.value with
    | none => rfl
    | some x => cases slots.mapM Slot.value <;> rfl

/-- A call is read with the arguments in its row. -/
theorem IsReadAs.call (a b : String) {us vs : List Word} {x : Option Expr} {slots : List Slot}
    (hx : IsReadAs postfixLevel us x) (hrow : Row slots vs) (hslots : ∀ s ∈ slots, s.IsRead) :
    IsReadAs postfixLevel (us ++ ⟨.leftParen, a⟩ :: (vs ++ [⟨.rightParen, b⟩]))
      (x.bind (fun x => (slots.mapM Slot.value).map (fun ys => callOf none x (ys.map .positional)))) := by
  intro rest _
  rw [List.append_assoc, hx _ (stops_tightest _)]
  cases x with
  | none => rfl
  | some x =>
    simp only [Option.bind_some]
    rw [List.cons_append, climb_parenthesis rfl, List.append_assoc, List.singleton_append,
      hrow.readArguments hslots]
    cases slots.mapM Slot.value <;> rfl

/-- Whatever words form is what the reader reads. -/
theorem Forms.isReadAs {level : Nat} {ws : List Word} {x : Option Expr} (h : Forms level ws x) :
    IsReadAs level ws x := by
  induction h with
  | @lower level ws x hlevel hform ih =>
    rcases Nat.lt_or_eq_of_le (Nat.le_of_lt_succ hlevel : level ≤ prefixLevel) with hlt | rfl
    · exact ih.lower hlt
    · obtain ⟨w, rest, rfl, -, hsign⟩ := hform.begins
      exact ih.lower_unsigned rfl (hsign rfl)
  | conditional a b _ _ _ ihx ihy ihz => exact ihx.conditional a b ihy ihz
  | binary hop _ _ ihx ihy => exact ihx.binary hop ihy
  | unary hop _ ih => exact ih.unary hop
  | property dot name _ ih => exact ih.property dot name
  | index a b _ _ ihx ihkey => exact ihx.index a b ihkey
  | call a b _ hrow hforms ihx ihslots =>
    refine ihx.call a b hrow (fun s hs => ?_)
    cases s with
    | filled ws y =>
      obtain ⟨w, rest, rfl, hw, -⟩ := (hforms ws y hs).begins
      exact ⟨ihslots _ y hs, w, rest, rfl, hw⟩
    | named => trivial
  | identifier name => exact .identifier name
  | number s => exact .number s
  | parenthesized a b _ ih => exact ih.parenthesized a b
  | collection ws hw =>
    refine .foreign ?_ ws
    rcases hw with hw | hw <;> rw [hw] <;> decide

/-- The same words form at most one operator expression. -/
theorem Forms.unique {ws : List Word} {x y : Option Expr} (hx : Forms 0 ws x) (hy : Forms 0 ws y) : x = y := by
  have hend : Stops 0 [] := fun _ hw => nomatch hw
  have hread {x : Option Expr} (hx : Forms 0 ws x) : readAt 0 ws = x.map (fun x => (x, [])) := by
    have h := hx.isReadAs [] hend
    rw [List.append_nil] at h
    rw [h]
    cases x with
    | none => rfl
    | some x => exact hend.climb (.inr rfl) x
  have h := (hread hx).symm.trans (hread hy)
  cases x <;> cases y <;> simp_all

end Dartlet.Syntax
