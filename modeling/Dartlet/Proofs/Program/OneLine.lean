import Dartlet.Proofs.Program.Templates

/-!
# Literals on one line

Where a literal on one line ends may depend on what follows it: an expression that is embedded in it can hold
quotes and braces of its own, and the lexer may give up one way to read it for another. If no embedded expression
holds any, there is one way only, and the literal is the same token wherever a blank follows it.
-/

namespace Dartlet.Syntax

open Lexer Dartlet.Text Dartlet.Text.Pattern

namespace Lexer

/-! ### Embedded expressions without quotes and braces -/

/-- What an embedded expression may not hold. -/
def codeMarks : List Char := ['{', '}', '"', '\'']

/-- Whether the embedded expressions of a text hold no quotes and no braces and are closed, read from outside or from
inside of one. What a backslash hides begins none. -/
def embedsPlainly : Bool → List Char → Bool
  | inside, [] => !inside
  | true, '}' :: rest => embedsPlainly false rest
  | true, c :: rest => !codeMarks.contains c && embedsPlainly true rest
  | false, '$' :: '{' :: rest => embedsPlainly true rest
  | false, ['\\'] => false
  | false, '\\' :: _ :: rest => embedsPlainly false rest
  | false, _ :: rest => embedsPlainly false rest

/-- What stands between the quotes of a literal, piece by piece: characters that stand for themselves, a backslash with
what it hides, and embedded expressions. -/
inductive Inside (quote : Char) : List Char → Prop
  | nil : Inside quote []
  | plain {c : Char} {rest : List Char} : c ≠ quote → c ≠ '\\' → ¬ IsEmbedding (c :: rest) → Inside quote rest →
    Inside quote (c :: rest)
  | escape {c : Char} {rest : List Char} : Inside quote rest → Inside quote (['\\', c] ++ rest)
  | code {code rest : List Char} : (∀ c ∈ code, c ∉ codeMarks) → Inside quote rest →
    Inside quote (('$' :: '{' :: (code ++ ['}'])) ++ rest)

/-- A text is the inside of a literal up to the end or up to a closing quote. -/
def Divides (quote : Char) (text : List Char) : Prop :=
  ∃ body rest, text = body ++ rest ∧ Inside quote body ∧ (rest = [] ∨ ∃ more, rest = quote :: more)

theorem Divides.cons {quote c : Char} {text : List Char} (hc : c ≠ '\\') (hnone : ¬ IsEmbedding (c :: text))
    (h : Divides quote text) : Divides quote (c :: text) := by
  by_cases hquote : c = quote
  · exact ⟨[], c :: text, rfl, .nil, .inr ⟨text, by rw [hquote]⟩⟩
  · obtain ⟨body, rest, rfl, hbody, hrest⟩ := h
    refine ⟨c :: body, rest, rfl, .plain hquote hc (fun hembeds => hnone ?_) hbody, hrest⟩
    exact hembeds.trans (List.prefix_append (c :: body) rest)

/-- A literal whose embedded expressions are plain is closed by the first quote outside of them that nothing hides. -/
theorem divides_of_embedsPlainly {quote : Char} {inside : Bool} {text : List Char} (h : embedsPlainly inside text = true) :
    if inside then ∃ code rest, text = code ++ '}' :: rest ∧ (∀ c ∈ code, c ∉ codeMarks) ∧ Divides quote rest
    else Divides quote text := by
  fun_induction embedsPlainly inside text with
  | case1 inside =>
    cases inside with
    | false => exact ⟨[], [], rfl, .nil, .inl rfl⟩
    | true => cases h
  | case2 rest ih => exact ⟨[], rest, rfl, by simp, ih h⟩
  | case3 c rest hc ih =>
    simp only [Bool.and_eq_true, Bool.not_eq_true', List.contains_eq_mem, decide_eq_false_iff_not] at h
    obtain ⟨code, more, rfl, hcode, hmore⟩ := ih h.2
    exact ⟨c :: code, more, rfl, List.forall_mem_cons.mpr ⟨h.1, hcode⟩, hmore⟩
  | case4 rest ih =>
    obtain ⟨code, more, rfl, hcode, body, last, rfl, hbody, hlast⟩ := ih h
    exact ⟨_, last, by simp, .code hcode hbody, hlast⟩
  | case5 => cases h
  | case6 c rest ih =>
    obtain ⟨body, last, rfl, hbody, hlast⟩ := ih h
    exact ⟨_, last, rfl, .escape hbody, hlast⟩
  | case7 c rest hembeds hlast hescape ih =>
    refine Divides.cons ?_ ?_ (ih h)
    · rintro rfl
      cases rest with
      | nil => exact hlast rfl rfl
      | cons d rest => exact hescape d rest rfl rfl
    · rintro ⟨more, hmore⟩
      cases hmore
      exact hembeds more rfl rfl

/-! ### What the lexer takes -/

section

variable {quote : Char} {double single braces : Pattern} {limit : Nat}

/-- An embedded expression with its closing brace. -/
abbrev embeddedCode (double single braces : Pattern) : Pattern := .seq (.many (codeUnit double single braces)) (.char '}')

theorem not_isEmbedding_append {c quote : Char} {body rest : List Char} (hquote : quote ≠ '{') (h : ¬ IsEmbedding (c :: body)) :
    ¬ IsEmbedding (c :: (body ++ quote :: rest)) := by
  cases body with
  | nil =>
    rintro ⟨more, hmore⟩
    cases hmore
    exact hquote rfl
  | cons d body =>
    rintro ⟨more, hmore⟩
    cases hmore
    exact h ⟨body, rfl⟩

/-- The lexer takes what is inside of a literal, up to its closing quote. -/
theorem repeatMany_inside (hquote : isQuote quote = true) {body : List Char} (h : Inside quote body) (hline : '\n' ∉ body)
    {n taken total : Nat} {rest : List Char} {after : After} (hn : body.length ≤ n) (hlimit : body.length ≤ limit)
    (hafter : after (taken + body.length) (quote :: rest) = some total) :
    repeatMany ((lineUnit quote (embeddedCode double single braces)).run limit) n taken (body ++ quote :: rest) after =
      some total := by
  have hplain := not_special_of_isQuote hquote
  have hbrace : quote ≠ '{' := by
    rintro rfl
    simp [isQuote] at hquote
  induction h generalizing n taken with
  | nil =>
    cases n with
    | zero => exact hafter
    | succ n => simpa [repeatMany, lineUnit_quote hplain] using hafter
  | @plain c body hc hescape hnone _ ih =>
    simp only [List.mem_cons, not_or, List.length_cons] at hline hn hlimit hafter
    obtain ⟨n, rfl⟩ : ∃ k, n = k + 1 := ⟨n - 1, by omega⟩
    have hstep : lineStep quote (c :: (body ++ quote :: rest)) = 1 := by
      simp [lineStep, hescape, hc, Ne.symm hline.1]
    have hmore := @ih hline.2 n (taken + 1) (by omega) (by omega) (by rwa [Nat.add_assoc, Nat.add_comm 1])
    rw [List.cons_append, repeatMany, rounds_lineUnit hplain (not_isEmbedding_append hbrace hnone), hstep]
    simp only [Nat.one_ne_zero, if_false, List.drop_succ_cons, List.drop_zero, hmore]
  | @escape c body _ ih =>
    rw [List.mem_append, not_or] at hline
    rw [List.length_append, ← Nat.add_assoc] at hafter
    simp only [List.length_append, List.length_cons, List.length_nil] at hn hlimit
    obtain ⟨n, rfl⟩ : ∃ k, n = k + 1 := ⟨n - 1, by omega⟩
    rw [List.append_assoc]
    exact (prefers_escape (by rintro rfl; simp at hline)).repeatMany (ih hline.2 (by omega) (by omega) hafter)
  | @code code body hcode _ ih =>
    rw [List.mem_append, not_or] at hline
    rw [List.length_append, ← Nat.add_assoc] at hafter
    simp only [List.length_append, List.length_cons] at hn hlimit
    obtain ⟨n, rfl⟩ : ∃ k, n = k + 1 := ⟨n - 1, by omega⟩
    have hcode' : ∀ c ∈ code, c ∉ ['{', '}', '"', '\'', '\n'] := by
      intro c hc hmem
      have hend : c ≠ '\n' := by
        rintro rfl
        simp [hc] at hline
      have hmarks := hcode c hc
      simp_all [codeMarks]
    rw [List.append_assoc]
    exact (prefers_embedded hcode' (by omega)).repeatMany (ih hline.2 (by omega) (by omega) hafter)

/-! ### What the lexer does not take -/

theorem codeUnit_of_not_mark {c : Char} (hc : c ∉ codeMarks) (taken : Nat) (rest : List Char) (after : After) :
    (codeUnit double single braces).run limit taken (c :: rest) after = if c = '\n' then none else after (taken + 1) rest := by
  simp only [codeMarks, List.mem_cons, List.not_mem_nil, or_false, not_or] at hc
  by_cases hend : c = '\n'
  · simp [codeUnit, firstOf, run_word, noneOf, run, List.isPrefixOf, hend]
  · simp only [codeUnit, firstOf, run_word, noneOf, run, List.isPrefixOf, List.contains_cons, beq_eq_false_iff_ne.mpr, hc, hend,
      Ne.symm hc.1, Ne.symm hc.2.2.1, Ne.symm hc.2.2.2, ne_eq, not_false_eq_true]
    cases after (taken + 1) rest <;> rfl

/-- What is embedded ends at its closing brace. -/
theorem exists_of_repeatMany_code {code rest : List Char} (hcode : ∀ c ∈ code, c ∉ codeMarks) {n taken total : Nat} {after : After}
    (h : repeatMany ((codeUnit double single braces).run limit) n taken (code ++ '}' :: rest)
      (fun taken text => (char '}').run limit taken text after) = some total) : ∃ taken, after taken rest = some total := by
  induction code generalizing n taken with
  | nil =>
    cases n with
    | zero => exact ⟨taken + 1, h⟩
    | succ n =>
      simp only [List.nil_append, repeatMany, codeUnit_brace] at h
      exact ⟨taken + 1, h⟩
  | cons c code ih =>
    obtain ⟨hc, hcode⟩ := List.forall_mem_cons.mp hcode
    have hother : (char '}').run limit taken (c :: (code ++ '}' :: rest)) after = none := by
      have hbrace : c ≠ '}' := by
        rintro rfl
        simp [codeMarks] at hc
      simp [char, run, hbrace]
    cases n with
    | zero =>
      rw [List.cons_append, repeatMany, hother] at h
      cases h
    | succ n =>
      rw [List.cons_append, repeatMany, codeUnit_of_not_mark hc, hother] at h
      split at h
      · rename_i hsome
        cases h
        split at hsome
        · cases hsome
        · exact ih hcode hsome
      · cases h

theorem repeatMany_eq_none {round : Nat → List Char → After → Option Nat} {n taken : Nat} {text : List Char} {after : After}
    (hround : ∀ n, round taken text (fun taken text => repeatMany round n taken text after) = none)
    (hafter : after taken text = none) :
    repeatMany round n taken text after = none := by
  cases n with
  | zero => exact hafter
  | succ n => simp only [repeatMany, hround, hafter]

theorem lineUnit_dollar_eq_none {quote : Char} {embedded : Pattern} {taken : Nat} {rest : List Char} {after : After}
    (hembedded : embedded.run limit (taken + 2) rest after = none) (hafter : after (taken + 1) ('{' :: rest) = none) :
    (lineUnit quote embedded).run limit taken ('$' :: '{' :: rest) after = none := by
  simp [lineUnit, firstOf, run, run_word, noneOf, char, List.isPrefixOf, hembedded, hafter]

/-- A backslash that ends an embedded expression hides its brace where the expression is taken for text. -/
theorem Inside.of_code {quote : Char} (hquote : isQuote quote = true) {code rest : List Char} (hcode : ∀ c ∈ code, c ∉ codeMarks)
    (hrest : Inside quote rest) : Inside quote (code ++ '}' :: rest) := by
  have hplain (c : Char) (hc : c ∉ codeMarks) : c ≠ quote ∧ c ≠ '{' := by
    refine ⟨?_, ?_⟩ <;> rintro rfl
    · rcases isQuote_iff.mp hquote with rfl | rfl <;> simp [codeMarks] at hc
    · simp [codeMarks] at hc
  have hclosed : Inside quote ('}' :: rest) := by
    have hbrace : '}' ≠ quote := by
      rintro rfl
      simp [isQuote] at hquote
    exact .plain hbrace (by decide) (by rintro ⟨_, ⟨⟩⟩) hrest
  induction code using List.twoStepInduction with
  | nil => exact hclosed
  | singleton c =>
    by_cases hc : c = '\\'
    · exact hc ▸ .escape hrest
    · obtain ⟨hother, -⟩ := hplain c (hcode c List.mem_cons_self)
      exact .plain hother hc (by rintro ⟨_, ⟨⟩⟩) hclosed
  | cons_cons c d code ih ihMore =>
    by_cases hc : c = '\\'
    · have hmore : Inside quote (code ++ '}' :: rest) := ih fun c hc => hcode c (by simp [hc])
      exact hc ▸ .escape hmore
    · obtain ⟨hother, -⟩ := hplain c (hcode c List.mem_cons_self)
      have hmore : Inside quote (d :: code ++ '}' :: rest) := ihMore d fun c hc => hcode c (List.mem_cons_of_mem _ hc)
      refine .plain hother hc ?_ hmore
      rintro ⟨_, ⟨⟩⟩
      exact (hplain '{' (hcode '{' (by simp))).2 rfl

/-- A text in which nothing closes the literal is no literal. -/
theorem repeatMany_inside_eq_none (hquote : isQuote quote = true) {text : List Char} (h : Inside quote text) (n taken : Nat) :
    repeatMany ((lineUnit quote (embeddedCode double single braces)).run limit) n taken text
      (fun taken text => (char quote).run limit taken text whole) = none := by
  have hplain := not_special_of_isQuote hquote
  have hafter {c : Char} (hc : c ≠ quote) (taken : Nat) (rest : List Char) : (char quote).run limit taken (c :: rest) whole = none := by
    simp [char, run, hc]
  -- a dollar sign taken for itself leaves a text that is no part of the given one, only shorter
  generalize hlength : text.length = length
  induction length using Nat.strong_induction_on generalizing text n taken with
  | _ length ih =>
    subst hlength
    have hshorter {rest : List Char} (hrest : Inside quote rest) (hlt : rest.length < text.length) (n taken : Nat) :=
      ih _ hlt hrest n taken rfl
    cases h with
    | nil =>
      refine repeatMany_eq_none (fun n => ?_) rfl
      rw [rounds_lineUnit hplain (by rintro ⟨_, ⟨⟩⟩)]
      rfl
    | @plain c rest hc hescape hnone hrest =>
      refine repeatMany_eq_none (fun n => ?_) (hafter hc taken rest)
      rw [rounds_lineUnit hplain hnone]
      split
      · rfl
      · rename_i hne
        have hstep : lineStep quote (c :: rest) = 1 := by
          by_cases hend : c = '\n' <;> simp_all [lineStep]
        rw [hstep]
        exact hshorter hrest (by simp) _ _
    | @escape c rest hrest =>
      refine repeatMany_eq_none (fun n => ?_) (hafter hplain.2.symm taken _)
      rw [rounds_lineUnit hplain (by rintro ⟨_, ⟨⟩⟩)]
      split
      · rfl
      · rename_i hne
        have hstep : lineStep quote (['\\', c] ++ rest) = 2 := by
          by_cases hend : c = '\n' <;> simp_all [lineStep]
        rw [hstep]
        exact hshorter hrest (by rw [List.length_append]; exact Nat.lt_add_of_pos_left (by simp)) _ _
    | @code code rest hcode hrest =>
      have htext : '$' :: '{' :: (code ++ ['}']) ++ rest = '$' :: '{' :: (code ++ '}' :: rest) := by simp
      rw [htext] at hshorter ⊢
      simp only [List.length_cons, List.length_append] at hshorter
      refine repeatMany_eq_none (fun n => ?_) (hafter hplain.1.symm taken _)
      -- the dollar sign begins an embedded expression, or it stands for itself
      refine lineUnit_dollar_eq_none ?_ ?_
      · refine Option.eq_none_iff_forall_ne_some.mpr fun total htotal => ?_
        obtain ⟨taken, hsome⟩ := exists_of_repeatMany_code hcode htotal
        rw [hshorter hrest (by omega)] at hsome
        cases hsome
      · have hbrace : '{' ≠ quote := by
          rintro rfl
          simp [isQuote] at hquote
        exact hshorter (.plain hbrace (by decide) (by rintro ⟨_, ⟨⟩⟩) (.of_code hquote hcode hrest)) (by simp) _ _

end

/-! ### The token of a literal -/

theorem accepts_quotedBody {quote : Char} (hquote : isQuote quote = true) : (quotedBody quote).Accepts (· ≠ '\n') := by
  rcases isQuote_iff.mp hquote with rfl | rfl <;> simp [quotedBody, Accepts, firstOf, word, noneOf, char]
  all_goals exact fun _ _ _ hend _ => hend

/-- A literal on one line whose embedded expressions are plain ends at the first quote outside of them. -/
theorem exists_inside {quote : Char} (hquote : isQuote quote = true) {tail : List Char}
    (hplain : embedsPlainly false tail = true) {limit : Nat} (hlimit : tail.length ≤ limit)
    (h : (quotedBody quote).run limit 1 tail whole = some (tail.length + 1)) :
    ∃ body, tail = body ++ [quote] ∧ Inside quote body ∧ '\n' ∉ body := by
  obtain ⟨double, single, braces, hbody⟩ := quotedBody_eq quote
  have hline : '\n' ∉ tail := by
    obtain ⟨m, hm, honly, htotal⟩ := takesOnly_run (accepts_quotedBody hquote) limit h
    obtain rfl : m = tail.length := by
      have := Option.some.inj htotal
      omega
    rw [List.take_length] at honly
    exact fun hmem => honly '\n' hmem rfl
  obtain ⟨body, rest, rfl, hinside, hrest⟩ : Divides quote tail := divides_of_embedsPlainly hplain
  rw [List.mem_append, not_or] at hline
  rw [List.length_append] at hlimit h
  rcases hrest with rfl | ⟨more, rfl⟩
  · -- nothing closes the literal
    rw [List.append_nil, hbody] at h
    exact absurd (h.symm.trans (repeatMany_inside_eq_none hquote hinside limit 1)) (by simp)
  · have hclosed : (quotedBody quote).run limit 1 (body ++ quote :: more) whole = some (1 + body.length + 1) := by
      rw [hbody]
      exact repeatMany_inside hquote hinside hline.1 (by omega) (by omega) (by simp [char, run])
    have hlength := Option.some.inj (h.symm.trans hclosed)
    simp only [List.length_cons] at hlength
    obtain rfl : more = [] := List.length_eq_zero_iff.mp (by omega)
    exact ⟨body, rfl, hinside, hline.1⟩

/-- A literal on one line does not begin with three quotes before a blank. -/
theorem not_prefix_of_isBreak {quote : Char} (hquote : isQuote quote = true) {body rest : List Char}
    (hthree : ¬ [quote, quote] <+: body ++ [quote]) (hrest : IsBreak rest) : ¬ [quote, quote] <+: body ++ quote :: rest := by
  intro htwo
  cases body with
  | nil =>
    obtain ⟨more, hmore⟩ := htwo
    have hhead : rest.head? = some quote := by rw [← (List.cons.inj hmore).2]; rfl
    exact absurd hquote (by simp [eq_false_of_isSpace isQuote (by simp) quote (hrest quote hhead)])
  | cons c body =>
    refine hthree (List.prefix_of_prefix_length_le htwo ?_ (by simp))
    rw [List.append_cons (c :: body) quote rest]
    exact List.prefix_append _ _

/-- A literal on one line is taken up to its closing quote before a blank. -/
theorem matchLength?_inside {quote : Char} (hquote : isQuote quote = true) {body rest : List Char} (hbody : Inside quote body)
    (hline : '\n' ∉ body) (hthree : ¬ [quote, quote] <+: body ++ [quote]) (hrest : IsBreak rest) :
    stringLiteral.matchLength? (quote :: (body ++ quote :: rest)) = some (1 + body.length + 1) := by
  obtain ⟨double, single, braces, hform⟩ := quotedBody_eq quote
  rw [matchLength?_quoted hquote (not_prefix_of_isBreak hquote hthree hrest), hform]
  refine repeatMany_inside hquote hbody hline ?_ ?_ (by simp [char, run])
  all_goals
    simp only [List.length_append]
    omega

end Lexer

/-- A text is one string literal: the lexer takes all of it as its first token, and it holds no quote and no brace in
the expressions that it embeds, if it stands on one line. -/
structure IsLiteral (text : String) : Prop where
  token : Lexer.next? text.toList = some (some .string, text.toList.length)
  plain : Lexer.isOneLine text.toList = true → Lexer.embedsPlainly false text.toList = true

/-- A literal is the same token wherever the text ends or a blank follows. -/
theorem IsLiteral.separable {text : String} (h : IsLiteral text) : Word.Separable ⟨.string, text⟩ := by
  have hmatch := Lexer.matchLength?_of_next? h.token
  by_cases hline : Lexer.isOneLine text.toList = true
  · have hembeds := h.plain hline
    cases htext : text.toList with
    | nil => simp [htext, isOneLine] at hline
    | cons quote tail =>
      simp only [htext, isOneLine, Bool.and_eq_true, Bool.not_eq_true', ← Bool.not_eq_true, List.isPrefixOf_iff_prefix] at hline
      obtain ⟨hquote, hthree⟩ := hline
      have hcases := isQuote_iff.mp hquote
      have htail : embedsPlainly false tail = true := by
        rw [htext] at hembeds
        rcases hcases with rfl | rfl <;> simpa [embedsPlainly] using hembeds
      rw [htext, matchLength?_quoted hquote hthree] at hmatch
      obtain ⟨body, rfl, hinside, hend⟩ := exists_inside hquote htail (by omega) hmatch
      refine ⟨⟨quote, _, htext, by rcases hcases with rfl | rfl <;> rfl⟩, fun {rest} hrest => ?_⟩
      simp only [htext, List.cons_append, List.append_assoc, List.nil_append, next?,
        matchLength?_inside hquote hinside hend hthree hrest, List.length_cons, List.length_append, List.length_nil]
      congr 2
      omega
  · obtain ⟨s, more, htext, hlength, hseparable⟩ := Word.separable_literal hmatch (fun honeLine => absurd (by simpa using honeLine) hline)
    obtain rfl : more = [] := by
      have := congrArg List.length htext
      rw [List.length_append] at this
      exact List.length_eq_zero_iff.mp (by omega)
    rw [List.append_nil] at htext
    rwa [String.toList_inj.mp htext]

end Dartlet.Syntax
