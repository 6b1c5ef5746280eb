import Dartlet.Proofs.Program.Layout

/-!
# A semicolon on a new line

What is cut from a text is cut from it as well when a new line with a semicolon follows: the line break ends
whatever stands before it, and nothing on the new line could close a literal or a comment.
-/

namespace Dartlet.Text.Pattern

/-! ### What follows a text -/

/-- What happens after a pattern is the same with a tail after the text and without it, and fails inside the tail. -/
structure Ends (tail : List Char) (f g : After) : Prop where
  same : ∀ taken rest, f taken (rest ++ tail) = g taken rest
  inside : ∀ taken k, 1 ≤ k → f taken (tail.drop k) = none

/-- A way to match does not see a tail in which what happens after it fails. -/
def Blind (tail : List Char) (match? : Nat → List Char → After → Option Nat) : Prop :=
  ∀ ⦃f g⦄, Ends tail f g → Ends tail (fun taken text => match? taken text f)
    (fun taken text => match? taken text g)

variable {tail : List Char}

/-- A match that begins inside the tail ends there. -/
theorem Ends.of_takes {match? : Nat → List Char → After → Option Nat} {f g : After} (h : Ends tail f g)
    (htakes : Takes match?) {k : Nat} (hk : 1 ≤ k) (taken : Nat) : match? taken (tail.drop k) f = none := by
  refine Option.eq_none_iff_forall_ne_some.mpr fun total htotal => ?_
  obtain ⟨m, -, hm⟩ := htakes htotal
  rw [List.drop_drop, h.inside _ _ (by omega)] at hm
  cases hm

theorem blind_repeatMany {round : Nat → List Char → After → Option Nat} (htakes : Takes round) (hround : Blind tail round)
    (n : Nat) : Blind tail (repeatMany round n) := by
  induction n with
  | zero => exact fun _ _ h => h
  | succ n ih =>
    refine fun _ _ h => ⟨fun taken rest => ?_, fun taken k hk => h.of_takes (takes_repeatMany htakes _) hk taken⟩
    simp only [repeatMany, (hround (ih h)).same, h.same]

theorem blind_repeatFew {round : Nat → List Char → After → Option Nat} (htakes : Takes round) (hround : Blind tail round)
    (n : Nat) : Blind tail (repeatFew round n) := by
  induction n with
  | zero => exact fun _ _ h => h
  | succ n ih =>
    refine fun _ _ h => ⟨fun taken rest => ?_, fun taken k hk => h.of_takes (takes_repeatFew htakes _) hk taken⟩
    simp only [repeatFew, (hround (ih h)).same, h.same]

/-- No pattern sees a tail in which what happens after it fails. -/
theorem blind_run (p : Pattern) (limit : Nat) : Blind tail (p.run limit) := by
  induction p with
  | one test =>
    refine fun _ _ h => ⟨fun taken rest => ?_, fun taken k hk => h.of_takes (takes_run (.one test) limit) hk taken⟩
    cases rest with
    | cons c rest => simp only [List.cons_append, run, h.same]
    | nil =>
      cases tail with
      | nil => rfl
      | cons c tail =>
        have hinside := h.inside (taken + 1) 1 (Nat.le_refl 1)
        simp only [List.drop_succ_cons, List.drop_zero] at hinside
        simp only [List.nil_append, run, hinside, ite_self]
  | seq first second ihFirst ihSecond => exact fun _ _ h => ihFirst (ihSecond h)
  | choice first second ihFirst ihSecond =>
    refine fun _ _ h => ⟨fun taken rest => ?_, fun taken k hk => h.of_takes (takes_run (.choice first second) limit) hk taken⟩
    simp only [run, (ihFirst h).same, (ihSecond h).same]
  | many body ih => exact blind_repeatMany (takes_run body limit) ih limit
  | few body ih => exact blind_repeatFew (takes_run body limit) ih limit

/-! ### How many rounds are allowed -/

/-- Whether a pattern takes at least one character. -/
def takesSome : Pattern → Bool
  | .one _ => true
  | .seq first second => first.takesSome || second.takesSome
  | .choice first second => first.takesSome && second.takesSome
  | .many _ | .few _ => false

/-- Whether every round of a repetition takes at least one character. -/
def takesInRounds : Pattern → Bool
  | .one _ => true
  | .seq first second | .choice first second => first.takesInRounds && second.takesInRounds
  | .many body | .few body => body.takesSome && body.takesInRounds

/-- Two ways to match do the same with texts that are not too long, as far as what happens after them does the same
with texts that are shorter than they are. -/
def SameRounds (round round' : Nat → List Char → After → Option Nat) (bound : Nat) : Prop :=
  ∀ ⦃taken text after after'⦄, text.length ≤ bound →
    (∀ taken rest, rest.length < text.length → after taken rest = after' taken rest) →
      round taken text after = round' taken text after'

section

variable {round round' : Nat → List Char → After → Option Nat} {bound : Nat} (h : SameRounds round round' bound)

include h

/-- Where nothing is left there is no round that takes something. -/
theorem SameRounds.nil (htakes : Takes round') (taken : Nat) (after : After) : round taken [] after = none := by
  have hnone : round taken [] after = round' taken [] (fun _ _ => none) :=
    h (Nat.zero_le _) (fun _ _ hlt => absurd hlt (Nat.not_lt_zero _))
  refine hnone.trans (Option.eq_none_iff_forall_ne_some.mpr fun total htotal => ?_)
  obtain ⟨m, -, hm⟩ := htakes htotal
  cases hm

variable (htakes : Takes round) (htakes' : Takes round')

include htakes htakes'

/-- As many rounds as possible are no more than there are characters. -/
theorem SameRounds.repeatMany {n n' taken : Nat} {text : List Char} {after after' : After} (hbound : text.length ≤ bound)
    (hn : text.length ≤ n) (hn' : text.length ≤ n')
    (hafter : ∀ taken rest, rest.length ≤ text.length → after taken rest = after' taken rest) :
    Pattern.repeatMany round n taken text after = Pattern.repeatMany round' n' taken text after' := by
  have hback : SameRounds round' round bound := fun _ _ _ _ hbound hafter =>
    (h hbound fun taken rest hlt => (hafter taken rest hlt).symm).symm
  have hhere := hafter taken text (Nat.le_refl _)
  induction n generalizing n' taken text with
  | zero =>
    obtain rfl := List.length_eq_zero_iff.mp (Nat.le_zero.mp hn)
    cases n' with
    | zero => exact hhere
    | succ n' => simp only [Pattern.repeatMany, hback.nil htakes, hhere]
  | succ n ih =>
    cases n' with
    | zero =>
      obtain rfl := List.length_eq_zero_iff.mp (Nat.le_zero.mp hn')
      simp only [Pattern.repeatMany, h.nil htakes', hhere]
    | succ n' =>
      have hround : round taken text (fun taken rest => Pattern.repeatMany round n taken rest after) =
          round' taken text (fun taken rest => Pattern.repeatMany round' n' taken rest after') :=
        h hbound fun taken rest hlt => ih (by omega) (by omega) (by omega)
          (fun taken rest' hle => hafter taken rest' (by omega)) (hafter taken rest (by omega))
      simp only [Pattern.repeatMany, hround, hhere]

/-- As few rounds as possible are no more than there are characters. -/
theorem SameRounds.repeatFew {n n' taken : Nat} {text : List Char} {after after' : After} (hbound : text.length ≤ bound)
    (hn : text.length ≤ n) (hn' : text.length ≤ n')
    (hafter : ∀ taken rest, rest.length ≤ text.length → after taken rest = after' taken rest) :
    Pattern.repeatFew round n taken text after = Pattern.repeatFew round' n' taken text after' := by
  have hback : SameRounds round' round bound := fun _ _ _ _ hbound hafter =>
    (h hbound fun taken rest hlt => (hafter taken rest hlt).symm).symm
  have hhere := hafter taken text (Nat.le_refl _)
  induction n generalizing n' taken text with
  | zero =>
    obtain rfl := List.length_eq_zero_iff.mp (Nat.le_zero.mp hn)
    cases n' with
    | zero => exact hhere
    | succ n' =>
      simp only [Pattern.repeatFew, hback.nil htakes, hhere]
      cases after' taken [] <;> rfl
  | succ n ih =>
    cases n' with
    | zero =>
      obtain rfl := List.length_eq_zero_iff.mp (Nat.le_zero.mp hn')
      simp only [Pattern.repeatFew, h.nil htakes', hhere]
      cases after' taken [] <;> rfl
    | succ n' =>
      have hround : round taken text (fun taken rest => Pattern.repeatFew round n taken rest after) =
          round' taken text (fun taken rest => Pattern.repeatFew round' n' taken rest after') :=
        h hbound fun taken rest hlt => ih (by omega) (by omega) (by omega)
          (fun taken rest' hle => hafter taken rest' (by omega)) (hafter taken rest (by omega))
      simp only [Pattern.repeatFew, hround, hhere]

end

/-- How many rounds are allowed does not matter, if there is one for each character and each round takes one. -/
theorem run_limit {p : Pattern} (hp : p.takesInRounds = true) {limit limit' taken : Nat} {text : List Char}
    {after after' : After} (hlimit : text.length ≤ limit) (hlimit' : text.length ≤ limit')
    (hafter : ∀ taken rest, rest.length ≤ text.length → (p.takesSome = true → rest.length < text.length) →
      after taken rest = after' taken rest) : p.run limit taken text after = p.run limit' taken text after' := by
  induction p generalizing taken text after after' with
  | one test =>
    cases text with
    | nil => rfl
    | cons c rest => simp only [run, hafter (taken + 1) rest (by simp) (by simp)]
  | seq first second ihFirst ihSecond =>
    simp only [takesInRounds, Bool.and_eq_true] at hp
    simp only [takesSome, Bool.or_eq_true] at hafter
    refine ihFirst hp.1 hlimit hlimit' fun taken rest hle hlt => ?_
    refine ihSecond hp.2 (by omega) (by omega) fun taken rest' hle' hlt' => hafter taken rest' (by omega) ?_
    rintro (htakes | htakes)
    · exact Nat.lt_of_le_of_lt hle' (hlt htakes)
    · exact Nat.lt_of_lt_of_le (hlt' htakes) hle
  | choice first second ihFirst ihSecond =>
    simp only [takesInRounds, Bool.and_eq_true] at hp
    simp only [takesSome, Bool.and_eq_true] at hafter
    have hfirst : first.run limit taken text after = first.run limit' taken text after' :=
      ihFirst hp.1 hlimit hlimit' fun taken rest hle hlt => hafter taken rest hle fun htakes => hlt htakes.1
    have hsecond : second.run limit taken text after = second.run limit' taken text after' :=
      ihSecond hp.2 hlimit hlimit' fun taken rest hle hlt => hafter taken rest hle fun htakes => hlt htakes.2
    simp only [run, hfirst, hsecond]
  | many body ih =>
    simp only [takesInRounds, Bool.and_eq_true] at hp
    have hrounds : SameRounds (body.run limit) (body.run limit') text.length := fun _ _ _ _ hbound hshorter =>
      ih hp.2 (by omega) (by omega) fun taken rest _ hlt => hshorter taken rest (hlt hp.1)
    exact hrounds.repeatMany (takes_run body limit) (takes_run body limit') (Nat.le_refl _) hlimit hlimit'
      fun taken rest hle => hafter taken rest hle (by simp [takesSome])
  | few body ih =>
    simp only [takesInRounds, Bool.and_eq_true] at hp
    have hrounds : SameRounds (body.run limit) (body.run limit') text.length := fun _ _ _ _ hbound hshorter =>
      ih hp.2 (by omega) (by omega) fun taken rest _ hlt => hshorter taken rest (hlt hp.1)
    exact hrounds.repeatFew (takes_run body limit) (takes_run body limit') (Nat.le_refl _) hlimit hlimit'
      fun taken rest hle => hafter taken rest hle (by simp [takesSome])

end Dartlet.Text.Pattern

namespace Dartlet.Syntax

namespace Lexer

open Dartlet.Text Dartlet.Text.Pattern

/-! ### Literals before a tail without quotes -/

/-- A pattern takes the same from a text whether a tail follows it or not, and nothing inside the tail. -/
def EndsBefore (tail : List Char) (p : Pattern) : Prop :=
  ∀ limit, Ends tail (fun taken text => p.run limit taken text whole) (fun taken text => p.run limit taken text whole)

section

variable {tail : List Char}

theorem EndsBefore.seq {first second : Pattern} (h : EndsBefore tail second) : EndsBefore tail (.seq first second) :=
  fun limit => blind_run first limit (h limit)

theorem EndsBefore.choice {first second : Pattern} (hfirst : EndsBefore tail first) (hsecond : EndsBefore tail second) :
    EndsBefore tail (.choice first second) := by
  refine fun limit => ⟨fun taken rest => ?_, fun taken k hk => ?_⟩
  · simp only [run, (hfirst limit).same, (hsecond limit).same]
  · simp only [run, (hfirst limit).inside taken k hk, (hsecond limit).inside taken k hk]

theorem EndsBefore.word (cs : List Char) {p : Pattern} (h : EndsBefore tail p) : EndsBefore tail (.word cs p) := by
  induction cs with
  | nil => exact h
  | cons c cs ih => exact ih.seq

theorem EndsBefore.firstOf {ps : List Pattern} {last : Pattern} (hps : ∀ p ∈ ps, EndsBefore tail p)
    (hlast : EndsBefore tail last) : EndsBefore tail (.firstOf ps last) := by
  induction ps with
  | nil => exact hlast
  | cons p ps ih =>
    obtain ⟨hp, hps⟩ := List.forall_mem_cons.mp hps
    exact hp.choice (ih hps)

variable (htail : ∀ c ∈ tail, isQuote c = false)

include htail

theorem endsBefore_quote {quote : Char} (hquote : isQuote quote = true) : EndsBefore tail (.char quote) := by
  have hother (c : Char) (hc : c ∈ tail) : (c == quote) = false := by
    rw [beq_eq_false_iff_ne]
    rintro rfl
    exact absurd hquote (by simp [htail c hc])
  refine fun limit => ⟨fun taken rest => ?_, fun taken k hk => ?_⟩
  · cases rest with
    | cons c rest => rfl
    | nil =>
      cases tail with
      | nil => rfl
      | cons c tail => simp [char, run, hother c List.mem_cons_self]
  · cases hdrop : tail.drop k with
    | nil => rfl
    | cons c rest =>
      have hc : c ∈ tail := List.mem_of_mem_drop (hdrop ▸ List.mem_cons_self)
      simp [char, run, hother c hc]

/-- String literals end before a tail without quotes. -/
theorem endsBefore_stringLiteral : EndsBefore tail stringLiteral := by
  have hforms {quote : Char} (hquote : isQuote quote = true) : EndsBefore tail (rawTripleBody quote) ∧
      EndsBefore tail (tripleBody quote) ∧ EndsBefore tail (rawBody quote) ∧ EndsBefore tail (quotedBody quote) :=
    have hend := endsBefore_quote htail hquote
    ⟨.seq (.word _ hend), .seq (.word _ hend), .seq hend, .seq hend⟩
  obtain ⟨hrawTriple, htriple, hraw, hquoted⟩ := hforms (show isQuote '"' = true from rfl)
  obtain ⟨hrawTriple', htriple', hraw', hquoted'⟩ := hforms (show isQuote '\'' = true from rfl)
  refine .firstOf ?_ (.word _ hquoted')
  simp only [List.forall_mem_cons, List.not_mem_nil, false_imp_iff, implies_true, and_true]
  exact ⟨.word _ hrawTriple, .word _ hrawTriple', .word _ htriple, .word _ htriple', .word _ hraw, .word _ hraw', .word _ hquoted⟩

theorem matchLength?_append (text : List Char) :
    stringLiteral.matchLength? (text ++ tail) = stringLiteral.matchLength? text := by
  have hrounds : stringLiteral.takesInRounds = true := by decide
  rw [matchLength?, (endsBefore_stringLiteral htail _).same, matchLength?]
  exact run_limit hrounds (by simp) (Nat.le_refl _) fun _ _ _ _ => rfl

end

/-! ### Other lexemes before a line break -/

theorem takeWhile_line {p : Char → Bool} (hp : p '\n' = false) (text more : List Char) :
    (text ++ '\n' :: more).takeWhile p = text.takeWhile p := by
  induction text with
  | nil => simp [hp]
  | cons c text ih => simp only [List.cons_append, List.takeWhile_cons, ih]

theorem dropWhile_line {p : Char → Bool} (hp : p '\n' = false) (text more : List Char) :
    (text ++ '\n' :: more).dropWhile p = text.dropWhile p ++ '\n' :: more := by
  induction text with
  | nil => simp [hp]
  | cons c text ih =>
    simp only [List.cons_append, List.dropWhile_cons, ih]
    split <;> rfl

theorem exponentLength_line (text more : List Char) : exponentLength (text ++ '\n' :: more) = exponentLength text := by
  match text with
  | [] => rfl
  | [mark] => cases h : mark == 'e' || mark == 'E' <;> simp [exponentLength, h, isDigit_of_isSpace, isSpace]
  | mark :: sign :: text =>
    have hdigits := takeWhile_line (p := isDigit) rfl text more
    have hdigits' := takeWhile_line (p := isDigit) rfl (sign :: text) more
    rw [List.cons_append] at hdigits'
    simp only [List.cons_append, exponentLength, hdigits, hdigits']

theorem doubleLength?_line (text more : List Char) : doubleLength? (text ++ '\n' :: more) = doubleLength? text := by
  have hrest (rest : List Char) : exponentLength (rest ++ '\n' :: more) = exponentLength rest := exponentLength_line rest more
  simp only [doubleLength?, takeWhile_line (p := isDigit) rfl, dropWhile_line (p := isDigit) rfl]
  cases text.dropWhile isDigit with
  | nil => simp [exponentLength]
  | cons c rest =>
    by_cases hc : c = '.'
    · subst hc
      simp only [List.cons_append, takeWhile_line (p := isDigit) rfl, dropWhile_line (p := isDigit) rfl, hrest]
    · have hexponent := hrest (c :: rest)
      rw [List.cons_append] at hexponent
      simp [hc, hexponent]

theorem integerLength?_line (text more : List Char) : integerLength? (text ++ '\n' :: more) = integerLength? text := by
  have hdecimal := takeWhile_line (p := isDigit) rfl text more
  unfold integerLength?
  rw [hdecimal]
  match text with
  | [] => rfl
  | [c] => by_cases hc : c = '0' <;> simp [hc]
  | c :: x :: rest => by_cases hc : c = '0' <;> simp [hc, takeWhile_line (p := isHexDigit) rfl]

/-- The line after a text closes no comment that the text leaves open. -/
theorem blockCommentRest?_line (text : List Char) : blockCommentRest? (text ++ ['\n', ';']) = blockCommentRest? text := by
  induction text with
  | nil => rfl
  | cons c text ih =>
    cases text with
    | nil => by_cases hc : c = '*' <;> simp [hc, blockCommentRest?]
    | cons d text =>
      by_cases hclosed : c = '*' ∧ d = '/'
      · obtain ⟨rfl, rfl⟩ := hclosed
        rfl
      · have hopen (rest : List Char) : blockCommentRest? (c :: d :: rest) = (blockCommentRest? (d :: rest)).map (· + 1) := by
          rw [blockCommentRest?]
          rintro _ rfl ⟨⟩
          exact hclosed ⟨rfl, rfl⟩
        rw [List.cons_append, List.cons_append, hopen, hopen, ← ih, List.cons_append]

theorem commentLength?_line (text : List Char) : commentLength? (text ++ ['\n', ';']) = commentLength? text := by
  match text with
  | [] => rfl
  | [c] => by_cases hc : c = '/' <;> simp [commentLength?, hc]
  | c :: d :: rest =>
    have hcomment := takeWhile_line (p := (· != '\n')) rfl rest [';']
    by_cases hc : c = '/'
    · subst hc
      by_cases hslash : d = '/'
      · subst hslash
        simp only [List.cons_append, commentLength?, hcomment]
      · by_cases hstar : d = '*'
        · subst hstar
          simp only [List.cons_append, commentLength?, blockCommentRest?_line]
        · simp [commentLength?, hslash, hstar]
    · simp [commentLength?, hc]

/-- The next lexeme is the same if a semicolon follows on a new line, unless the text is blank. -/
theorem next?_line {text : List Char} (htext : ∃ c ∈ text, isSpace c = false) :
    next? (text ++ ['\n', ';']) = next? text := by
  have hquotes : ∀ c ∈ ['\n', ';'], isQuote c = false := by decide
  have hbreak : IsBreak ['\n', ';'] := by simp [IsBreak, isSpace]
  have hstring := matchLength?_append hquotes text
  have hdouble := doubleLength?_line text [';']
  have hinteger := integerLength?_line text [';']
  have hcomment := commentLength?_line text
  have hsymbol : symbol? (text ++ ['\n', ';']) = symbol? text := symbol?_append hbreak
  unfold next?
  rw [hstring, hdouble, hinteger, hcomment]
  cases text with
  | nil => simp at htext
  | cons c rest =>
    have hword := takeWhile_line (p := isWordRest) rfl rest [';']
    rw [List.cons_append] at hsymbol
    simp only [List.cons_append, hword, hsymbol]
    by_cases hc : isSpace c = true
    · -- the blanks end before the end of the text
      have hblanks : (rest ++ ['\n', ';']).takeWhile isSpace = rest.takeWhile isSpace := by
        obtain ⟨d, hd, hspace⟩ := htext
        have hrest : d ∈ rest := (List.mem_cons.mp hd).resolve_left (fun heq => by simp [heq, hc] at hspace)
        rw [List.takeWhile_append, if_neg]
        intro hall
        have hprefix := (List.takeWhile_prefix isSpace (l := rest)).eq_of_length hall
        rw [← hprefix] at hrest
        have hblank := List.all_eq_true.mp List.all_takeWhile d hrest
        simp [hblank] at hspace
      simp only [hblanks]
    · simp only [hc, Bool.false_eq_true, if_false]

theorem next?_blank {text : List Char} (htext : ∀ c ∈ text, isSpace c = true) :
    next? (text ++ ['\n', ';']) = some (none, text.length + 1) := by
  have hblank : ∀ c ∈ text ++ ['\n'], isSpace c = true := List.forall_mem_append.mpr ⟨htext, by simp [isSpace]⟩
  have hsemicolon : ∀ c ∈ [';'].head?, isSpace c = false := by simp [isSpace]
  simpa using next?_blanks (by simp) hblank hsemicolon

theorem length_le_of_comment {text : List Char} {n : Nat} (h : commentLength? text = some n) : n ≤ text.length := by
  have hblock (rest : List Char) {n : Nat} (h : blockCommentRest? rest = some n) : n ≤ rest.length := by
    fun_induction blockCommentRest? rest generalizing n with
    | case1 => cases h
    | case2 => simp_all; omega
    | case3 c rest _ ih =>
      obtain ⟨m, hm, rfl⟩ := Option.map_eq_some_iff.mp h
      exact Nat.succ_le_succ (ih hm)
  unfold commentLength? at h
  split at h
  · rename_i rest
    have hle := (List.takeWhile_prefix (· != '\n') (l := rest)).length_le
    cases h
    simp only [List.length_cons]
    omega
  · obtain ⟨m, hm, rfl⟩ := Option.map_eq_some_iff.mp h
    exact Nat.succ_le_succ (Nat.succ_le_succ (hblock _ hm))
  · cases h

/-- A lexeme is a part of the text. -/
theorem length_le_of_next? {text : List Char} {terminal? : Option Terminal} {n : Nat}
    (h : next? text = some (terminal?, n)) : n ≤ text.length := by
  cases terminal? with
  | some t =>
    by_cases hstring : t = .string
    · subst hstring
      obtain ⟨m, hm, htotal⟩ := takes_run _ _ (matchLength?_of_next? h)
      simp only [Nat.zero_add, Option.some.injEq] at htotal
      omega
    · obtain ⟨s, more, rfl, rfl, -⟩ := Word.separable_token h hstring
      simp
  | none =>
    unfold next? at h
    split at h
    · cases h
    split at h
    · cases h
    split at h
    · cases h
    split at h
    · rename_i hcomment
      cases h
      exact length_le_of_comment hcomment
    split at h
    · cases h
    · rename_i c rest _ _ _ _
      have hle := (List.takeWhile_prefix isSpace (l := rest)).length_le
      split at h
      · cases h
      · split at h
        · cases h
          simp only [List.length_cons]
          omega
        · obtain ⟨found, -, heq⟩ := Option.map_eq_some_iff.mp h
          cases heq

theorem scan_nil (limit : Nat) (position : Position) : scan limit position [] = ⟨[], none⟩ := by
  cases limit <;> rfl

/-- Nothing but blanks and the semicolon on a new line. -/
theorem scan_blank_line {limit : Nat} {position : Position} {text : List Char} (htext : ∀ c ∈ text, isSpace c = true) :
    ∃ place, (scan (limit + 2) position (text ++ ['\n', ';'])).tokens = [⟨.semicolon, ";", place⟩] ∧
      (scan (limit + 2) position (text ++ ['\n', ';'])).stop = none := by
  have hsemicolon : next? [';'] = some (some .semicolon, 1) := by decide
  have hdrop : (text ++ ['\n', ';']).drop (text.length + 1) = [';'] := by simp
  have hend : [';'].drop 1 = [] := rfl
  rw [scan_next (next?_blank htext) (by simp), hdrop, scan_next hsemicolon (by simp), hend, scan_nil]
  exact ⟨_, rfl, rfl⟩

/-- If a text falls into lexemes up to its end, then with a semicolon on a new line after it there is one more token,
which is the semicolon. -/
theorem scan_line {limit : Nat} {position : Position} {text : List Char} (h : (scan limit position text).stop = none) :
    ∃ place, (scan (limit + 2) position (text ++ ['\n', ';'])).tokens =
        (scan limit position text).tokens ++ [⟨.semicolon, ";", place⟩] ∧
      (scan (limit + 2) position (text ++ ['\n', ';'])).stop = none := by
  have hnothing (limit : Nat) (position : Position) : (scan limit position []).tokens = [] := by rw [scan_nil]; rfl
  induction limit generalizing position text with
  | zero =>
    cases text with
    | nil => simpa [hnothing] using @scan_blank_line 0 position [] (by simp)
    | cons c rest => simp [scan] at h
  | succ limit ih =>
    by_cases htext : ∃ c ∈ text, isSpace c = false
    · have hne : text ≠ [] := by
        rintro rfl
        simp at htext
      cases hnext : next? text with
      | none =>
        obtain ⟨c, rest, rfl⟩ := List.exists_cons_of_ne_nil hne
        simp [scan, hnext] at h
      | some found =>
        obtain ⟨terminal?, n⟩ := found
        have hle := length_le_of_next? hnext
        rw [scan_next hnext hne] at h
        obtain ⟨place, htokens, hstop⟩ := ih h
        rw [show limit + 1 + 2 = limit + 2 + 1 from rfl, scan_next (next?_line htext ▸ hnext) (by simp), scan_next hnext hne,
          List.take_append_of_le_length hle, List.drop_append_of_le_length hle]
        refine ⟨place, ?_, hstop⟩
        simp only [Lexed.tokens, List.filterMap_cons] at htokens ⊢
        split <;> simp [htokens]
    · have hblank : ∀ c ∈ text, isSpace c = true := by simpa using htext
      have htokens : (scan (limit + 1) position text).tokens = [] := by
        by_cases hne : text = []
        · rw [hne, hnothing]
        · have hblanks := @next?_blanks text [] hne hblank (by simp)
          rw [List.append_nil] at hblanks
          rw [scan_next hblanks hne]
          simpa [Lexed.tokens, Lexeme.token?] using hnothing limit (position.after text)
      simp only [htokens, List.nil_append]
      exact scan_blank_line hblank

end Lexer

/-- A semicolon on a new line after a text that falls into tokens is one more token. -/
theorem lex_line {text : String} (h : (lex text).stop = none) : ∃ place, (lex (text ++ "\n;")).tokens =
    (lex text).tokens ++ [⟨.semicolon, ";", place⟩] ∧ (lex (text ++ "\n;")).stop = none := by
  have hchars : (text ++ "\n;").toList = text.toList ++ ['\n', ';'] := String.toList_append
  have hlength : (text ++ "\n;").toList.length = text.toList.length + 2 := by rw [hchars]; simp
  unfold lex at h ⊢
  dsimp only at h ⊢
  rw [hlength, hchars]
  exact Lexer.scan_line h

end Dartlet.Syntax
