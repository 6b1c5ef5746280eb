import Dartlet.Host.Standard
import Dartlet.Proofs.Program.Decoding
import Dartlet.Proofs.Program.Embedded

/-!
# Templates

A template is text with expressions in it. It is written as a literal in double quotes: the characters that mean
something there are escaped, and the expressions stand in braces after a dollar sign. Three scanners go through
the literal: the lexer looks for its end, the decoder for its parts, and the search for the closing brace for the
text of each expression. Each of them takes the literal piece by piece as it was written.
-/

set_option linter.unusedSectionVars false

namespace Dartlet.Text.Pattern

/-! ### Matching piece by piece -/

/-- A way to match that takes a piece from the front of any text where what comes after it then succeeds. -/
def Prefers (match? : Nat → List Char → After → Option Nat) (piece : List Char) : Prop :=
  ∀ ⦃taken rest after total⦄, after (taken + piece.length) rest = some total →
    match? taken (piece ++ rest) after = some total

variable {limit : Nat}

theorem prefers_one {test : Char → Bool} {c : Char} (hc : test c = true) : Prefers ((one test).run limit) [c] := by
  intro taken rest after total h
  simpa [run, hc] using h

theorem prefers_seq {p q : Pattern} {u v : List Char} (hp : Prefers (p.run limit) u) (hq : Prefers (q.run limit) v) :
    Prefers ((seq p q).run limit) (u ++ v) := by
  intro taken rest after total h
  rw [List.append_assoc]
  refine hp (hq ?_)
  rwa [Nat.add_assoc, ← List.length_append]

theorem prefers_word {cs piece : List Char} {p : Pattern} (h : Prefers (p.run limit) piece) :
    Prefers ((word cs p).run limit) (cs ++ piece) := by
  intro taken rest after total hafter
  rw [run_word, if_pos (by simp [List.append_assoc]), List.append_assoc, List.drop_left]
  refine h ?_
  rwa [Nat.add_assoc, ← List.length_append]

/-- Of several patterns one takes the piece, if those before it do not match there. -/
theorem prefers_firstOf (before : List Pattern) {after : List Pattern} {p last : Pattern} {ps : List Pattern} {piece : List Char}
    (hps : ps ++ [last] = before ++ p :: after)
    (hbefore : ∀ q ∈ before, ∀ taken rest after, q.run limit taken (piece ++ rest) after = none)
    (hp : Prefers (p.run limit) piece) : Prefers ((firstOf ps last).run limit) piece := by
  intro taken rest continuation total h
  rw [Syntax.Lexer.run_firstOf]
  exact List.findSome?_eq_some_iff.mpr ⟨before, p, after, hps, hp h, fun q hq => hbefore q hq _ _ _⟩

/-- A repetition takes a piece and goes on. -/
theorem Prefers.repeatMany {round : Nat → List Char → After → Option Nat} {piece rest : List Char} (hpiece : Prefers round piece)
    {n taken total : Nat} {after : After} (h : Pattern.repeatMany round n (taken + piece.length) rest after = some total) :
    Pattern.repeatMany round (n + 1) taken (piece ++ rest) after = some total := by
  have hround : round taken (piece ++ rest) (fun taken text => Pattern.repeatMany round n taken text after) = some total :=
    hpiece h
  simp only [Pattern.repeatMany, hround]

/-- A repetition takes one piece after the other and ends where no round matches. -/
theorem prefers_repeatMany {round : Nat → List Char → After → Option Nat} {pieces : List (List Char)} {rest : List Char}
    (hround : ∀ piece ∈ pieces, piece ≠ [] ∧ Prefers round piece) (hstop : ∀ taken after, round taken rest after = none)
    {n : Nat} (hn : pieces.flatten.length ≤ n) {taken total : Nat} {after : After}
    (h : after (taken + pieces.flatten.length) rest = some total) :
    repeatMany round n taken (pieces.flatten ++ rest) after = some total := by
  induction pieces generalizing n taken with
  | nil =>
    cases n with
    | zero => exact h
    | succ n => simpa [repeatMany, hstop] using h
  | cons piece pieces ih =>
    obtain ⟨⟨hne, hpiece⟩, hrest⟩ := List.forall_mem_cons.mp hround
    have hpos := List.length_pos_iff.mpr hne
    rw [List.flatten_cons, List.length_append] at hn h
    obtain ⟨n, rfl⟩ : ∃ k, n = k + 1 := ⟨n - 1, by omega⟩
    rw [List.flatten_cons, List.append_assoc]
    exact hpiece.repeatMany (ih hrest (by omega) (by rwa [Nat.add_assoc]))

/-- A repetition up to a mark at which no round matches. -/
theorem prefers_manyUntil {unit : Pattern} {pieces : List (List Char)} {mark : Char}
    (hunit : ∀ piece ∈ pieces, piece ≠ [] ∧ Prefers (unit.run limit) piece)
    (hstop : ∀ taken rest after, unit.run limit taken (mark :: rest) after = none) (hlimit : pieces.flatten.length ≤ limit) :
    Prefers ((seq (.many unit) (char mark)).run limit) (pieces.flatten ++ [mark]) := by
  intro taken rest after total h
  have hmark : Prefers ((char mark).run limit) [mark] := prefers_one (beq_self_eq_true mark)
  rw [List.append_assoc]
  refine prefers_repeatMany hunit (fun _ _ => hstop _ rest _) hlimit (hmark ?_)
  rwa [List.length_append, ← Nat.add_assoc] at h

end Dartlet.Text.Pattern

namespace Dartlet.Syntax

open Dartlet.Text Dartlet.Text.Pattern Lexer

/-! ### Templates and how they are written -/

section

variable [Host]

/-- An expression that can be embedded in a literal: its text is read as an expression and has no braces, quotes and
line ends. -/
structure Embedded where
  code : String
  value : Expr
  plain : ∀ c ∈ code.toList, c ∉ ['{', '}', '"', '\'', '\n']
  read : parseExpression code = .ok value

/-- Text with expressions in it, each followed by more text. -/
structure Template where
  first : String
  rest : List (Embedded × String)

/-- How a character of the text is written. -/
def encodeChar (c : Char) : List Char :=
  if c = '\n' then ['\\', 'n'] else if c ∈ ['\\', '"', '$'] then ['\\', c] else [c]

theorem encodeChar_ne_nil (c : Char) : encodeChar c ≠ [] := by
  unfold encodeChar
  split
  · simp
  · split <;> simp

/-- How text is written. -/
def encode (text : String) : List Char := text.toList.flatMap encodeChar

/-- How an embedded expression is written. -/
def Embedded.written (e : Embedded) : List Char := '$' :: '{' :: (e.code.toList ++ ['}'])

namespace Template

/-- What stands between the quotes. -/
def body (t : Template) : List Char :=
  encode t.first ++ t.rest.flatMap (fun (e, text) => e.written ++ encode text)

/-- The literal of a template. -/
def written (t : Template) : String := String.ofList ('"' :: (t.body ++ ['"']))

end Template

/-! ### Where the literal ends -/

namespace Lexer

variable {limit : Nat}

/-- A character of an embedded expression, or a quoted text or nested braces in it. -/
def codeUnit (double single braces : Pattern) : Pattern :=
  .firstOf [.noneOf ['{', '}', '"', '\'', '\n'], .word ['"'] double, .word ['\''] single] (.word ['{'] braces)

theorem quotedBody_eq (quote : Char) : ∃ double single braces, quotedBody quote =
    .seq (.many (lineUnit quote (.seq (.many (codeUnit double single braces)) (.char '}')))) (.char quote) :=
  ⟨_, _, _, rfl⟩

theorem prefers_noneOf {cs : List Char} {c : Char} (hc : c ∉ cs) : Prefers ((noneOf cs).run limit) [c] :=
  prefers_one (by simpa using hc)

section

variable {double single braces : Pattern}

theorem prefers_codeUnit {c : Char} (hc : c ∉ ['{', '}', '"', '\'', '\n']) :
    Prefers ((codeUnit double single braces).run limit) [c] :=
  prefers_firstOf [] rfl (by simp) (prefers_noneOf hc)

/-- The brace that closes the embedded expression is none of it. -/
theorem codeUnit_brace (taken : Nat) (rest : List Char) (after : After) :
    (codeUnit double single braces).run limit taken ('}' :: rest) after = none := by
  simp [codeUnit, run_firstOf, run_word, noneOf, run, List.isPrefixOf]

/-- An embedded expression is taken up to its closing brace. -/
theorem prefers_code {code : List Char} (hcode : ∀ c ∈ code, c ∉ ['{', '}', '"', '\'', '\n']) (hlimit : code.length ≤ limit) :
    Prefers ((Pattern.seq (.many (codeUnit double single braces)) (.char '}')).run limit) (code ++ ['}']) := by
  have hpieces : (code.map fun c => [c]).flatten = code := by simp [← List.flatMap_def]
  rw [← hpieces] at hlimit ⊢
  refine prefers_manyUntil (fun piece hpiece => ?_) codeUnit_brace hlimit
  obtain ⟨c, hc, rfl⟩ := List.mem_map.mp hpiece
  exact ⟨List.cons_ne_nil _ _, prefers_codeUnit (hcode c hc)⟩

variable {quote : Char} {embedded : Pattern}

/-- A backslash is taken with the character that it hides. -/
theorem prefers_escape {c : Char} (hc : c ≠ '\n') : Prefers ((lineUnit quote embedded).run limit) ['\\', c] := by
  refine prefers_firstOf [_] rfl ?_
    (prefers_seq (prefers_one (beq_self_eq_true _)) (prefers_noneOf (by simpa using hc)))
  simp [noneOf, run]

/-- Text is taken character by character. -/
theorem prefers_encodeChar (c : Char) : Prefers ((lineUnit '"' embedded).run limit) (encodeChar c) := by
  unfold encodeChar
  split
  · exact prefers_escape (by decide)
  · split
    · rename_i hend hmem
      exact prefers_escape hend
    · rename_i hend hmem
      refine prefers_firstOf [] rfl (by simp) (prefers_noneOf ?_)
      simp_all

theorem prefers_embedded {code : List Char} (hcode : ∀ c ∈ code, c ∉ ['{', '}', '"', '\'', '\n']) (hlimit : code.length ≤ limit) :
    Prefers ((lineUnit quote (.seq (.many (codeUnit double single braces)) (.char '}'))).run limit)
      ('$' :: '{' :: (code ++ ['}'])) := by
  have hword : Prefers ((word ['$', '{'] (.seq (.many (codeUnit double single braces)) (.char '}'))).run limit)
      ('$' :: '{' :: (code ++ ['}'])) :=
    prefers_word (prefers_code hcode hlimit)
  refine prefers_firstOf [_, _] rfl ?_ hword
  simp [noneOf, char, run]

/-- At the closing quote no piece begins. -/
theorem lineUnit_quote (hquote : quote ≠ '$' ∧ quote ≠ '\\') (taken : Nat) (rest : List Char) (after : After) :
    (lineUnit quote embedded).run limit taken (quote :: rest) after = none := by
  have hnone : ¬ IsEmbedding (quote :: rest) := by
    rintro ⟨more, hmore⟩
    exact hquote.1 (List.cons.inj hmore).1.symm
  rw [rounds_lineUnit hquote hnone]
  cases rest <;> simp [lineStep, hquote.2]

end

/-- What is between the quotes of a template, piece by piece. -/
def pieces (t : Template) : List (List Char) :=
  t.first.toList.map encodeChar ++ t.rest.flatMap (fun (e, text) => e.written :: text.toList.map encodeChar)

theorem flatten_pieces (t : Template) : (pieces t).flatten = t.body := by
  obtain ⟨first, rest⟩ := t
  rw [pieces, List.flatten_append, ← List.flatMap_def, Template.body, encode]
  refine congrArg _ ?_
  induction rest with
  | nil => rfl
  | cons p rest ih => simp only [List.flatMap_cons, List.flatten_append, List.flatten_cons, ih, ← List.flatMap_def, encode]

theorem mem_pieces {t : Template} {piece : List Char} (h : piece ∈ pieces t) :
    (∃ c, piece = encodeChar c) ∨ ∃ e : Embedded, piece = e.written := by
  simp only [pieces, List.mem_append, List.mem_map, List.mem_flatMap, List.mem_cons] at h
  obtain ⟨c, -, rfl⟩ | ⟨⟨e, text⟩, -, rfl | ⟨c, -, rfl⟩⟩ := h
  · exact .inl ⟨c, rfl⟩
  · exact .inr ⟨e, rfl⟩
  · exact .inl ⟨c, rfl⟩

/-- The lexer takes what is between the quotes, and the closing quote. -/
theorem prefers_body {t : Template} (hlimit : t.body.length ≤ limit) :
    Prefers ((quotedBody '"').run limit) (t.body ++ ['"']) := by
  obtain ⟨double, single, braces, hbody⟩ := quotedBody_eq '"'
  rw [← flatten_pieces] at hlimit ⊢
  rw [hbody]
  refine prefers_manyUntil (fun piece hpiece => ?_) (lineUnit_quote (by decide)) hlimit
  have hlength := (List.sublist_flatten_of_mem hpiece).length_le
  rcases mem_pieces hpiece with ⟨c, rfl⟩ | ⟨e, rfl⟩
  · exact ⟨encodeChar_ne_nil c, prefers_encodeChar c⟩
  · have hcode : e.code.toList.length ≤ limit := by
      simp only [Embedded.written, List.length_cons, List.length_append] at hlength
      omega
    exact ⟨List.cons_ne_nil _ _, prefers_embedded e.plain hcode⟩

/-- The literal does not begin with three quotes. -/
theorem not_quotes_body (t : Template) : ¬ ['"', '"'] <+: t.body ++ ['"'] := by
  have hchar (c : Char) : (encodeChar c).head? ≠ some '"' := by
    unfold encodeChar
    split
    · decide
    · split
      · rintro ⟨⟩
      · rename_i hplain
        rintro ⟨⟩
        exact hplain (by decide)
  rw [← flatten_pieces]
  cases hpieces : pieces t with
  | nil => decide
  | cons piece more =>
    have hhead : piece.head? ≠ some '"' ∧ piece ≠ [] := by
      rcases mem_pieces (hpieces ▸ List.mem_cons_self) with ⟨c, rfl⟩ | ⟨e, rfl⟩
      · exact ⟨hchar c, encodeChar_ne_nil c⟩
      · exact ⟨by rintro ⟨⟩, List.cons_ne_nil _ _⟩
    obtain ⟨c, piece, rfl⟩ := List.exists_cons_of_ne_nil hhead.2
    rw [List.flatten_cons, List.cons_append, List.cons_append, List.cons_prefix_cons]
    rintro ⟨rfl, -⟩
    exact hhead.1 rfl

/-- A literal that begins with one quote and not with three is taken as one on one line. -/
theorem matchLength?_quoted {quote : Char} (hquote : isQuote quote = true) {tail : List Char}
    (hthree : ¬ [quote, quote] <+: tail) :
    stringLiteral.matchLength? (quote :: tail) = (quotedBody quote).run (tail.length + 1) 1 tail whole := by
  have hother {opening : List Char} (body : Pattern) (h : ¬ opening <+: quote :: tail) :
      (word opening body).run (quote :: tail).length 0 (quote :: tail) whole = none := by
    rw [run_word, if_neg (by rwa [List.isPrefixOf_iff_prefix])]
  have hone (body : Pattern) : (word [quote] body).run (quote :: tail).length 0 (quote :: tail) whole =
      body.run (tail.length + 1) 1 tail whole := by
    simp [run_word, List.isPrefixOf]
  rw [matchLength?_stringLiteral, literalForms]
  rcases isQuote_iff.mp hquote with rfl | rfl <;>
  · simp only [List.findSome?_cons, List.findSome?_nil, hone, hother, List.cons_prefix_cons, hthree, Char.reduceEq, false_and,
      and_false, not_false_eq_true]
    cases Pattern.run _ _ _ _ _ <;> rfl

end Lexer

theorem Quotation.inside_quoted {tail : List Char} (hthree : ¬ ['"', '"'] <+: tail) :
    inside ('"' :: tail) = tail.dropLast := by
  unfold inside
  split
  · rename_i a b c rest heq
    obtain ⟨rfl, rfl⟩ := List.cons.inj heq
    rw [if_neg]
    simp only [Bool.and_eq_true, beq_iff_eq, not_and]
    rintro ⟨-, rfl⟩ rfl
    exact hthree (List.prefix_append ['"', '"'] rest)
  · rename_i heq
    obtain ⟨rfl, rfl⟩ := List.cons.inj heq
    rfl
  · rename_i heq
    cases heq

namespace Template

/-- The literal is one token. -/
theorem lex_written (t : Template) : lex t.written = ⟨[⟨some .string, t.written.toList, .start⟩], none⟩ := by
  have hbody : t.written.toList = '"' :: (t.body ++ ['"']) := String.toList_ofList
  have hprefers : Prefers ((quotedBody '"').run ((t.body ++ ['"']).length + 1)) (t.body ++ ['"']) :=
    prefers_body (by simp only [List.length_append]; omega)
  have hrun : (quotedBody '"').run ((t.body ++ ['"']).length + 1) 1 (t.body ++ ['"']) whole = some t.written.toList.length := by
    have h := @hprefers 1 [] whole (1 + (t.body ++ ['"']).length) rfl
    rw [List.append_nil] at h
    rw [h, hbody, List.length_cons, Nat.add_comm]
  have hmatch : stringLiteral.matchLength? t.written.toList = some t.written.toList.length := by
    rw [← hrun, hbody]
    exact matchLength?_quoted rfl (not_quotes_body t)
  have hnext : next? t.written.toList = some (some .string, t.written.toList.length) := by
    simp only [next?, hmatch]
  obtain ⟨limit, hlimit⟩ : ∃ k, t.written.toList.length = k + 1 := ⟨_, by rw [hbody, List.length_cons]⟩
  have hne : t.written.toList ≠ [] := by simp [hbody]
  have hscan : scan (limit + 1) .start t.written.toList = _ := scan_next hnext hne
  rw [List.take_length, List.drop_length] at hscan
  change scan t.written.toList.length .start t.written.toList = _
  rw [hlimit, hscan]
  simp [scan]

end Template

/-! ### What the literal stands for -/

/-- Text as a part of its own, unless there is none. -/
def textPart (text : String) : List Part := if text = "" then [] else [.text text]

namespace Template

/-- The parts of a template. -/
def parts (t : Template) : List Part :=
  textPart t.first ++ t.rest.flatMap (fun (e, text) => .code e.value :: textPart text)

/-- The expression of a template, as it is read from the beginning of a text. -/
def expr (t : Template) : Expr :=
  if t.rest = [] then .stringLiteral (some .start) t.first else .interpolation (some .start) t.parts

variable {first text : String} {e : Embedded} {rest : List (Embedded × String)}

theorem body_cons : body ⟨first, (e, text) :: rest⟩ = encode first ++ (e.written ++ body ⟨text, rest⟩) := by
  simp only [body, List.flatMap_cons, List.append_assoc]

theorem parts_cons : parts ⟨first, (e, text) :: rest⟩ = textPart first ++ .code e.value :: parts ⟨text, rest⟩ := by
  simp only [parts, List.flatMap_cons, List.cons_append]

end Template

namespace Quotation

variable {read : String → Except SyntaxError Expr} {l : Location} {pending : Option (List Char)} {rest : List Char}
  {found : List Part}

/-- What the decoder finds in a text, however many steps it has left. -/
def Decodes (read : String → Except SyntaxError Expr) (l : Location) (pending : Option (List Char)) (text : List Char)
    (found : List Part) : Prop :=
  ∀ limit, text.length ≤ limit → parts read l limit pending text = .ok found

theorem decodes_nil : Decodes read l pending [] (flush pending) := fun limit _ => by
  cases limit <;> rfl

/-- One character of the text is collected. -/
theorem Decodes.encodeChar {c : Char} (h : Decodes read l (some (c :: pending.getD [])) rest found) :
    Decodes read l pending (Syntax.encodeChar c ++ rest) found := by
  have hescape {d : Char} (hd : escape (d :: rest) = .ok ([c.toNat], 1)) : Decodes read l pending ('\\' :: d :: rest) found := by
    intro limit hlimit
    obtain ⟨limit, rfl⟩ : ∃ k, limit = k + 1 := ⟨limit - 1, by rw [List.length_cons] at hlimit; omega⟩
    simp only [List.length_cons] at hlimit
    rw [parts_escape hd, List.map_singleton, Char.ofNat_toNat]
    exact h limit (by omega)
  unfold Syntax.encodeChar
  split
  · rename_i hend
    exact hescape (by rw [hend]; rfl)
  · split
    · rename_i hmem
      refine hescape ?_
      simp only [List.mem_cons, List.not_mem_nil, or_false] at hmem
      rcases hmem with rfl | rfl | rfl <;> rfl
    · rename_i hplain
      intro limit hlimit
      obtain ⟨limit, rfl⟩ : ∃ k, limit = k + 1 := ⟨limit - 1, by simp at hlimit; omega⟩
      rw [List.singleton_append, parts_plain ⟨by rintro rfl; simp at hplain, by rintro rfl; simp at hplain⟩]
      exact h limit (by simpa using hlimit)

/-- Characters that are collected. -/
def gather (pending : Option (List Char)) (text : List Char) : Option (List Char) :=
  text.foldl (fun pending c => some (c :: pending.getD [])) pending

theorem gather_some (collected text : List Char) : gather (some collected) text = some (text.reverse ++ collected) := by
  induction text generalizing collected with
  | nil => rfl
  | cons c text ih => simpa [gather] using ih (c :: collected)

/-- What has been collected is the text. -/
theorem flush_gather (text : String) : flush (gather none text.toList) = textPart text := by
  unfold textPart
  cases htext : text.toList with
  | nil =>
    rw [if_pos (String.toList_eq_nil_iff.mp htext)]
    rfl
  | cons c cs =>
    have hne : text ≠ "" := by
      rintro rfl
      cases htext
    have hgather : gather none (c :: cs) = some (text.toList.reverse) := by
      rw [htext, List.reverse_cons]
      exact gather_some [c] cs
    rw [if_neg hne, hgather, flush, List.reverse_reverse, String.ofList_toList]

theorem Decodes.chars {text : List Char} (h : Decodes read l (gather pending text) rest found) :
    Decodes read l pending (text.flatMap Syntax.encodeChar ++ rest) found := by
  induction text generalizing pending with
  | nil => exact h
  | cons c text ih =>
    rw [List.flatMap_cons, List.append_assoc]
    exact .encodeChar (ih h)

theorem untilBrace_plain {code : List Char} (hcode : ∀ c ∈ code, c ∉ ['{', '}', '"', '\'', '\n']) :
    untilBrace 0 none (code ++ '}' :: rest) = some code := by
  induction code with
  | nil => rfl
  | cons c code ih =>
    obtain ⟨hc, hmore⟩ := List.forall_mem_cons.mp hcode
    simp only [List.mem_cons, List.not_mem_nil, or_false, not_or] at hc
    simp [untilBrace, hc, ih hmore]

/-- An embedded expression is a part of its own, after the text that has been collected. -/
theorem Decodes.code {e : Embedded} (hread : read e.code = .ok e.value) (h : Decodes read l none rest found) :
    Decodes read l pending (e.written ++ rest) (flush pending ++ .code e.value :: found) := by
  intro limit hlimit
  have htext : e.written ++ rest = '$' :: '{' :: (e.code.toList ++ '}' :: rest) := by simp [Embedded.written]
  rw [htext] at hlimit ⊢
  simp only [List.length_cons, List.length_append] at hlimit
  obtain ⟨limit, rfl⟩ : ∃ k, limit = k + 1 := ⟨limit - 1, by omega⟩
  have hdrop : (e.code.toList ++ '}' :: rest).drop (e.code.toList.length + 1) = rest := by
    rw [List.drop_length_add_append]
    rfl
  rw [parts_code (untilBrace_plain e.plain) (by rwa [String.ofList_toList]), hdrop, h limit (by omega)]
  rfl

/-- The decoder finds the parts of a template. -/
theorem decodes_body {t : Template} (hread : ∀ p ∈ t.rest, read p.1.code = .ok p.1.value) : Decodes read l none t.body t.parts := by
  obtain ⟨first, rest⟩ := t
  induction rest generalizing first with
  | nil =>
    have h : Decodes read l none (encode first ++ []) _ := .chars decodes_nil
    simpa [flush_gather, Template.body, Template.parts] using h
  | cons p rest ih =>
    obtain ⟨e, text⟩ := p
    obtain ⟨he, hmore⟩ := List.forall_mem_cons.mp hread
    rw [Template.body_cons, Template.parts_cons, ← flush_gather]
    exact .chars (.code he (ih text hmore))

/-- A template has no two texts next to each other. -/
theorem joinTexts_parts (t : Template) : joinTexts t.parts = t.parts := by
  obtain ⟨first, rest⟩ := t
  have htext (text : String) {more : List Part} (hmore : joinTexts more = more) (hhead : ∀ s rest, more ≠ .text s :: rest) :
      joinTexts (textPart text ++ more) = textPart text ++ more := by
    unfold textPart
    split
    · exact hmore
    · rw [List.singleton_append, joinTexts, hmore]
      split
      · exact absurd rfl (hhead _ _)
      · rfl
  induction rest generalizing first with
  | nil => exact htext first rfl (by simp)
  | cons p rest ih =>
    obtain ⟨e, text⟩ := p
    rw [Template.parts_cons]
    refine htext first ?_ (by simp)
    rw [joinTexts, ih]
    simp

/-- A template is plain text if nothing is embedded in it. -/
theorem plainText?_parts (t : Template) : plainText? t.parts = if t.rest = [] then some t.first else none := by
  obtain ⟨first, rest⟩ := t
  have htext (more : List Part) : plainText? (textPart first ++ more) = (plainText? more).map (first ++ ·) := by
    unfold textPart
    split
    · rename_i hempty
      subst hempty
      simp
    · rfl
  cases rest with
  | nil =>
    change plainText? (textPart first ++ []) = _
    rw [htext, plainText?, if_pos rfl, Option.map_some, String.append_empty]
  | cons p rest =>
    obtain ⟨e, text⟩ := p
    rw [Template.parts_cons, htext, plainText?, if_neg (by simp)]
    rfl

/-- The token of a template is the template. -/
theorem literal_written {t : Template} (hread : ∀ p ∈ t.rest, read p.1.code = .ok p.1.value) :
    literal read (some .start) [⟨.string, t.written, .start⟩] = .ok t.expr := by
  have hbody : t.written.toList = '"' :: (t.body ++ ['"']) := String.toList_ofList
  have htoken : ofToken read ⟨.string, t.written, .start⟩ = .ok t.parts := by
    have hinside : inside ('"' :: (t.body ++ ['"'])) = t.body := by
      rw [inside_quoted (not_quotes_body t), List.dropLast_concat]
    simp only [ofToken, hbody]
    change parts read _ (inside _).length none (inside _) = _
    rw [hinside]
    exact decodes_body hread _ le_rfl
  have hfound : [(⟨.string, t.written, .start⟩ : Token)].mapM (ofToken read) = .ok [t.parts] := by
    rw [List.mapM_cons, htoken]
    rfl
  simp only [literal, hfound, List.flatten_cons, List.flatten_nil, List.append_nil, joinTexts_parts, plainText?_parts,
    Template.expr]
  by_cases hrest : t.rest = []
  · simp only [if_pos hrest]
  · simp only [if_neg hrest]

end Quotation

namespace Template

/-- The literal of a template is read as the template. -/
theorem parseExpression_written (t : Template) : parseExpression t.written = .ok t.expr := by
  have htokens : (lex t.written).tokens = [⟨.string, t.written, .start⟩] := by
    rw [lex_written]
    simp [Lexed.tokens, Lexeme.token?]
  rw [parseExpression_strings htokens (by rw [lex_written]) (by simp [htokens])]
  exact Quotation.literal_written fun p _ => p.1.read

end Template

end

example : (Template.mk "say \"$x\"\n" []).written = "\"say \\\"\\$x\\\"\\n\"" := by decide

end Dartlet.Syntax
