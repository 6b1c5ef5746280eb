import Dartlet.Host.Standard
import Dartlet.Proofs.Evaluation.Endings
import Dartlet.Proofs.Program.OneLine
import Mathlib.Data.List.Forall2

/-!
# Adjacent literals

String literals next to each other are one literal: it consists of what the first one consists of and then of what the
second one does, whatever neighbouring texts are joined. So its value is what the values of both are together, and they
are evaluated one after the other.
-/

namespace Dartlet

open Dartlet.Syntax (Embedded Expr IsLiteral Location Part SyntaxError Template Token Word encode lex lex_spaced parseExpression
  parseExpression_strings spaced)

set_option linter.unusedSectionVars false

section

variable [Host]

namespace Syntax

/-! ### What a literal consists of -/

/-- The characters of a part, or its expression. -/
def Part.items : Part → List (Char ⊕ Expr)
  | .text t => t.toList.map .inl
  | .code x => [.inr x]

/-- The characters of a literal with the expressions among them. -/
def Expr.items : Expr → List (Char ⊕ Expr)
  | .stringLiteral _ t => (Part.text t).items
  | .interpolation _ ps => ps.flatMap Part.items
  | x => [.inr x]

/-- Parts that are the same but for the place of a name. -/
inductive Part.Alike : Part → Part → Prop
  | same (p : Part) : Alike p p
  | name (l l' : Location) (name : String) : Alike (.code (.identifier l name)) (.code (.identifier l' name))

/-- Alike parts have the same characters and the same expressions up to places. -/
theorem Part.items_alike {ps ps' : List Part} (h : List.Forall₂ Part.Alike ps ps') :
    (ps'.flatMap Part.items).map (Sum.map id Expr.placeless) = (ps.flatMap Part.items).map (Sum.map id Expr.placeless) := by
  induction h with
  | nil => rfl
  | cons hp _ ih =>
    cases hp with
    | same p => rw [List.flatMap_cons, List.flatMap_cons, List.map_append, List.map_append, ih]
    | name l l' name => exact congrArg (.inr (.identifier none name) :: ·) ih

namespace Quotation

variable {l l' : Location} {ps : List Part}

/-- The expression that some parts form. -/
def ofParts (l : Location) (ps : List Part) : Expr :=
  match plainText? (joinTexts ps) with
  | some text => .stringLiteral l text
  | none => .interpolation l (joinTexts ps)

theorem items_joinTexts (ps : List Part) : (joinTexts ps).flatMap Part.items = ps.flatMap Part.items := by
  fun_induction joinTexts ps with
  | case1 a rest b more hjoin ih =>
    rw [hjoin] at ih
    simp only [List.flatMap_cons] at ih ⊢
    rw [← ih]
    simp [Part.items]
  | case2 a rest _ ih => simp only [List.flatMap_cons, ih]
  | case3 part rest _ ih => simp only [List.flatMap_cons, ih]
  | case4 => rfl

theorem items_of_plainText {text : String} (h : plainText? ps = some text) : ps.flatMap Part.items = (Part.text text).items := by
  induction ps generalizing text with
  | nil =>
    cases h
    rfl
  | cons p ps ih =>
    cases p with
    | code x => cases h
    | text a =>
      obtain ⟨more, hmore, rfl⟩ := Option.map_eq_some_iff.mp h
      simp [ih hmore, Part.items]

/-- Joining texts drops, duplicates and reorders nothing. -/
theorem items_ofParts (l : Location) (ps : List Part) : (ofParts l ps).items = ps.flatMap Part.items := by
  unfold ofParts
  rw [← items_joinTexts ps]
  split
  · rename_i text hplain
    exact (items_of_plainText hplain).symm
  · rfl

theorem forall₂_alike (ps : List Part) : List.Forall₂ Part.Alike ps ps := List.forall₂_same.mpr fun p _ => .same p

/-- An embedded expression after some text, and then what follows it at another place. -/
theorem embedded_alike {x x' : Expr} (hx : Part.Alike (.code x) (.code x')) (pending : Option (List Char))
    {r r' : Except SyntaxError (List Part)}
    (hr : ∀ {more}, r = .ok more → ∃ more', r' = .ok more' ∧ List.Forall₂ Part.Alike more more')
    (h : r.map (fun more => flush pending ++ .code x :: more) = .ok ps) :
    ∃ ps', r'.map (fun more => flush pending ++ .code x' :: more) = .ok ps' ∧ List.Forall₂ Part.Alike ps ps' := by
  cases r with
  | error e => cases h
  | ok more =>
    cases h
    obtain ⟨more', rfl, hmore⟩ := hr rfl
    exact ⟨_, rfl, List.rel_append (forall₂_alike _) (.cons hx hmore)⟩

/-- A text at another place has the same parts but for the places of names. -/
theorem parts_alike {read : String → Except SyntaxError Expr} (l' : Location) {limit : Nat} {pending : Option (List Char)}
    {text : List Char} (h : parts read l limit pending text = .ok ps) :
    ∃ ps', parts read l' limit pending text = .ok ps' ∧ List.Forall₂ Part.Alike ps ps' := by
  fun_induction parts read l limit pending text generalizing ps with
  | case1 | case2 =>
    simp only [parts]
    exact ⟨ps, h, forall₂_alike ps⟩
  | case3 | case5 | case6 | case8 | case10 => cases h
  | case4 _ _ _ _ _ hdecoded ih =>
    simp only [parts, hdecoded]
    exact ih h
  | case7 _ pending rest code hcode x hx ih =>
    simp only [parts, hcode, hx]
    exact embedded_alike (.same _) pending ih h
  | case9 _ pending c more hbegins =>
    rename_i ih
    simp only [parts, hbegins, if_true]
    exact embedded_alike (.name _ _ _) pending ih h
  | case11 _ _ _ _ _ _ _ ih =>
    simp only [parts]
    exact ih h

theorem ofToken_alike {read : String → Except SyntaxError Expr} {t t' : Token} (hword : t.word = t'.word)
    (h : ofToken read t = .ok ps) : ∃ ps', ofToken read t' = .ok ps' ∧ List.Forall₂ Part.Alike ps ps' := by
  have htext : t.text = t'.text := congrArg Word.text hword
  unfold ofToken at h ⊢
  rw [← htext]
  split at h
  · exact ⟨ps, h, forall₂_alike ps⟩
  · exact parts_alike _ h

end Quotation

/-! ### How literals are read -/

theorem Quotation.literal_eq {read : String → Except SyntaxError Expr} {l : Location} {ts : List Token} :
    literal read l ts = (ts.mapM (ofToken read)).map (fun found => ofParts l found.flatten) := by
  unfold literal ofParts
  cases ts.mapM (ofToken read) with
  | error e => rfl
  | ok found =>
    cases hplain : plainText? (joinTexts found.flatten) <;> simp [hplain, Except.map]

/-- A text of literals with blanks between them is read as all their parts. -/
theorem parseExpression_literals (texts : List String) (hne : texts ≠ []) (h : ∀ text ∈ texts, IsLiteral text) :
    ∃ ts : List Token, ts.map Token.word = texts.map (⟨.string, ·⟩) ∧ parseExpression (spaced (texts.map (⟨.string, ·⟩))) =
      (ts.mapM (Quotation.ofToken parseExpression)).map
        (fun found => Quotation.ofParts (some Position.start) found.flatten) := by
  have hseparable : ∀ w ∈ texts.map (⟨.string, ·⟩), Word.Separable w := by
    intro w hw
    obtain ⟨text, htext, rfl⟩ := List.mem_map.mp hw
    exact (h text htext).separable
  obtain ⟨hwords, hstop⟩ := lex_spaced hseparable
  have hstrings : ∀ t ∈ (lex (spaced (texts.map (⟨.string, ·⟩)))).tokens, t.terminal = .string := by
    intro t ht
    have hword : t.word ∈ texts.map (⟨.string, ·⟩) := hwords ▸ List.mem_map_of_mem ht
    obtain ⟨text, -, heq⟩ := List.mem_map.mp hword
    exact (congrArg Word.terminal heq).symm
  cases htokens : (lex (spaced (texts.map (⟨.string, ·⟩)))).tokens with
  | nil => simp [htokens, hne] at hwords
  | cons t rest =>
    obtain ⟨text, more, rfl⟩ := List.exists_cons_of_ne_nil hne
    have hposition : t.position = Position.start :=
      lex_laid_position (h text List.mem_cons_self).separable (laid_spaced _) htokens
    refine ⟨t :: rest, htokens ▸ hwords, ?_⟩
    rw [parseExpression_strings htokens hstop hstrings, Quotation.literal_eq, hposition]

/-- A single literal is read as its parts. -/
theorem IsLiteral.exists_parts {text : String} {x : Expr} (h : IsLiteral text) (hx : parseExpression text = .ok x) :
    ∃ t ps, t.word = ⟨.string, text⟩ ∧ Quotation.ofToken parseExpression t = .ok ps ∧
      x = Quotation.ofParts (some Position.start) ps := by
  obtain ⟨ts, hwords, hread⟩ := parseExpression_literals [text] (by simp) (by simpa using h)
  obtain ⟨t, rfl, hword⟩ : ∃ t, ts = [t] ∧ t.word = ⟨.string, text⟩ := by
    simpa [List.map_eq_cons_iff] using hwords
  have htext : spaced ([text].map (⟨.string, ·⟩)) = text := rfl
  rw [htext, hx, List.mapM_cons] at hread
  cases hps : Quotation.ofToken parseExpression t with
  | error e => simp [hps, bind, Except.bind, Except.map] at hread
  | ok ps =>
    refine ⟨t, ps, hword, hps, ?_⟩
    simpa [hps, bind, Except.bind, pure, Except.pure, Except.map] using hread

/-- Two adjacent literals are read as the parts of the first and then those of the second. -/
theorem parseExpression_adjacent {first second : String} {t t' : Token} {ps qs : List Part} (hfirst : IsLiteral first)
    (hsecond : IsLiteral second) (ht : t.word = ⟨.string, first⟩) (ht' : t'.word = ⟨.string, second⟩)
    (hps : Quotation.ofToken parseExpression t = .ok ps) (hqs : Quotation.ofToken parseExpression t' = .ok qs) :
    ∃ ps' qs', parseExpression (first ++ " " ++ second) = .ok (Quotation.ofParts (some Position.start) (ps' ++ qs')) ∧
      List.Forall₂ Part.Alike ps ps' ∧ List.Forall₂ Part.Alike qs qs' := by
  obtain ⟨ts, hwords, hread⟩ := parseExpression_literals [first, second] (by simp) (by simp [hfirst, hsecond])
  obtain ⟨s, s', rfl, hs, hs'⟩ : ∃ s s', ts = [s, s'] ∧ s.word = ⟨.string, first⟩ ∧ s'.word = ⟨.string, second⟩ := by
    obtain ⟨s, ts, rfl, hs, hrest⟩ := List.map_eq_cons_iff.mp hwords
    obtain ⟨s', ts, rfl, hs', hrest⟩ := List.map_eq_cons_iff.mp hrest
    exact ⟨s, s', by rw [List.map_eq_nil_iff.mp hrest], hs, hs'⟩
  obtain ⟨ps', hps', halike⟩ := Quotation.ofToken_alike (ht.trans hs.symm) hps
  obtain ⟨qs', hqs', halike'⟩ := Quotation.ofToken_alike (ht'.trans hs'.symm) hqs
  have htext : spaced ([first, second].map (⟨.string, ·⟩)) = first ++ " " ++ second := by
    simp [spaced, String.intercalate_cons_cons]
  refine ⟨ps', qs', ?_, halike, halike'⟩
  rw [← htext, hread]
  simp [hps', hqs', bind, Except.bind, pure, Except.pure, Except.map]

end Syntax
/-! ### How they are evaluated -/

open Dartlet.Action

open Dartlet.Syntax.Quotation (joinTexts ofParts plainText?)

variable {e : Engine} {c : Context}

theorem location_ofParts (l : Location) (ps : List Part) : (ofParts l ps).location = l := by
  unfold ofParts
  split <;> rfl

theorem evalParts_joinTexts (ps : List Part) : evalParts e c (joinTexts ps) = evalParts e c ps := by
  fun_induction joinTexts ps with
  | case1 a rest b more hjoin ih =>
    rw [hjoin] at ih
    simp only [evalParts, ← ih, bind_assoc, pure_bind, String.append_assoc]
  | case2 a rest _ ih => simp only [evalParts, ih]
  | case3 part rest hpart ih =>
    cases part with
    | text a => exact absurd rfl (hpart a)
    | code x => simp only [evalParts, ih]
  | case4 => rfl

theorem evalParts_of_plainText {ps : List Part} {text : String} (h : plainText? ps = some text) :
    evalParts e c ps = pure text := by
  induction ps generalizing text with
  | nil =>
    cases h
    rfl
  | cons p ps ih =>
    cases p with
    | code x => cases h
    | text a =>
      obtain ⟨more, hmore, rfl⟩ := Option.map_eq_some_iff.mp h
      simp only [evalParts, ih hmore, pure_bind]

theorem evalParts_append (ps qs : List Part) : evalParts e c (ps ++ qs) = (do
    let first ← evalParts e c ps
    let second ← evalParts e c qs
    pure (first ++ second)) := by
  induction ps with
  | nil => simp only [List.nil_append, evalParts, pure_bind, String.empty_append, bind_pure]
  | cons p ps ih => cases p <;> simp only [List.cons_append, evalParts, ih, bind_assoc, pure_bind, String.append_assoc]

/-- The value of a literal is the text of its parts, whichever form it has. -/
theorem evalForm_ofParts (l : Location) (ps : List Part) : evalForm e c (ofParts l ps) = (do
    let text ← evalParts e c ps
    pure (.string text)) := by
  unfold ofParts
  rw [← evalParts_joinTexts ps]
  split
  · rename_i text hplain
    rw [evalParts_of_plainText hplain, pure_bind]
    rfl
  · rfl

/-- The place of a name makes no difference but for the place of an error. -/
theorem sameUpTo_identifier (e : Engine) (l l' : Location) (name : String) (s : Store) :
    (evalExpr e c (.identifier l name) s).SameUpTo ErrorRecord.placeless (evalExpr e c (.identifier l' name) s) := by
  have hunhooked := evalIdentifier_unhooked c name s
  have hlocated (l : Location) : evalExpr e c (.identifier l name) s = (evalIdentifier c name s).locate l :=
    within_of_unhooked hunhooked
  rw [hlocated, hlocated]
  exact (Outcome.SameUpTo.locate ErrorRecord.placeless_placedAt hunhooked l).symm.trans
    (.locate ErrorRecord.placeless_placedAt hunhooked l')

/-- Parts that are the same but for the places of names yield the same text. -/
theorem evalParts_alike {level : Nat} {ps ps' : List Part} (h : List.Forall₂ Part.Alike ps ps') (s : Store) :
    (evalParts (interpreter level) c ps s).SameUpTo ErrorRecord.placeless (evalParts (interpreter level) c ps' s) := by
  induction h generalizing s with
  | nil => exact .same _
  | @cons p p' ps ps' hp _ ih =>
    cases hp with
    | same =>
      cases p with
      | text a => exact .bind (ih s) fun _ _ => .same _
      | code x =>
        refine .bind (.same _) fun v t => .bind (.same _) fun shown t => .bind (ih t) fun _ _ => .same _
    | name l l' name =>
      refine .bind ?_ fun v t => .bind (.same _) fun shown t => .bind (ih t) fun _ _ => .same _
      cases level with
      | zero => exact .same _
      | succ level => exact sameUpTo_identifier (interpreter level) l l' name s

/-- Two strings as one: the first one is computed, then the second one, and their texts are put together. -/
def concatenated (first second : Action Value) : Action Value := do
  let v ← first
  let w ← second
  match v, w with
  | .string a, .string b => pure (.string (a ++ b))
  | _, _ => exhaust

/-- The value of a literal is a string. -/
theorem exists_string_of_done {l : Location} {ps : List Part} {s t : Store} {v : Value}
    (h : evalExpr e c (ofParts l ps) s = .done v t) : ∃ text, v = .string text := by
  rw [evalExpr, within_eq_done_iff, evalForm_ofParts] at h
  change Action.bind (evalParts e c ps) _ s = _ at h
  rw [Action.bind] at h
  cases hparts : evalParts e c ps s with
  | done text t' =>
    rw [hparts] at h
    cases h
    exact ⟨text, rfl⟩
  | _ =>
    rw [hparts] at h
    cases h

/-- Two literals at one place, one after the other: an error leaves one construct, whichever of them has it. -/
theorem concatenated_ofParts (l : Location) (ps qs : List Part) :
    concatenated (evalExpr e c (ofParts l ps)) (evalExpr e c (ofParts l qs)) = within (e.caller c.depth) l (do
      let a ← evalParts e c ps
      let b ← evalParts e c qs
      pure (.string (a ++ b))) := by
  simp only [concatenated, evalExpr, evalForm_ofParts, location_ofParts, within_bind, within_pure, bind_assoc,
    pure_bind]

/-- The value of some parts and then some others is both strings together. -/
theorem evalExpr_ofParts_append (l : Location) (ps qs : List Part) :
    evalExpr e c (ofParts l (ps ++ qs)) = within (e.caller c.depth) l (do
      let a ← evalParts e c ps
      let b ← evalParts e c qs
      pure (.string (a ++ b))) := by
  simp only [evalExpr, evalForm_ofParts, evalParts_append, location_ofParts, bind_assoc, pure_bind]

/-- Adjacent literals concatenate: next to each other, two literals that can be read alone are one literal. It holds the
characters and the expressions of the first one and then those of the second one, all of them and nothing else. However
many levels there are, its evaluation ends like that of the first literal, then of the second, whose values are
strings, and then of both strings together. -/
theorem adjacent_literals_concatenate {first second : String} (hfirst : IsLiteral first) (hsecond : IsLiteral second) {x y : Expr}
    (hx : parseExpression first = .ok x) (hy : parseExpression second = .ok y) :
    (∀ e c s v t, evalExpr e c x s = .done v t ∨ evalExpr e c y s = .done v t → ∃ text, v = .string text) ∧
    ∃ z, parseExpression (first ++ " " ++ second) = .ok z ∧
      z.items.map (Sum.map id Expr.placeless) = (x.items ++ y.items).map (Sum.map id Expr.placeless) ∧
      ∀ level c s, (evalExpr (interpreter level) c z s).SameUpTo ErrorRecord.placeless
        (concatenated (evalExpr (interpreter level) c x) (evalExpr (interpreter level) c y) s) := by
  obtain ⟨t, ps, ht, hps, rfl⟩ := hfirst.exists_parts hx
  obtain ⟨t', qs, ht', hqs, rfl⟩ := hsecond.exists_parts hy
  obtain ⟨ps', qs', hread, halike, halike'⟩ := Syntax.parseExpression_adjacent hfirst hsecond ht ht' hps hqs
  refine ⟨fun e c s v t h => h.elim exists_string_of_done exists_string_of_done,
    ofParts (some Syntax.Position.start) (ps' ++ qs'), hread, ?_, fun level c s => ?_⟩
  · simp only [Syntax.Quotation.items_ofParts, List.flatMap_append, List.map_append, Part.items_alike halike,
      Part.items_alike halike']
  · rw [evalExpr_ofParts_append, concatenated_ofParts]
    refine (Outcome.SameUpTo.within ErrorRecord.placedAt_congr_placeless ?_ _ _).symm
    exact .bind (evalParts_alike halike s) fun _ t => .bind (evalParts_alike halike' t) fun _ _ => .same _

end

theorem adjacent_literals_concatenate_number : ∃ z, parseExpression ("\"a$\x7b1\x7d\"" ++ " " ++ "\"b\"") = .ok z ∧
    ∀ n c s, evalExpr (interpreter (n + 1)) c z s = .done (.string "a1b") s := by
  obtain ⟨l, hvalue⟩ := Syntax.readExpr_number (n := 1) (by decide) "1".length
  let t : Template := ⟨"a", [(⟨"1", _, by decide, hvalue⟩, "")]⟩
  have hwritten : t.written = "\"a$\x7b1\x7d\"" := by
    have hchars : t.written = String.ofList ('"' :: (encode "a" ++ ('$' :: '{' :: ("1".toList ++ ['}']) ++ encode "") ++ ['"'])) := by
      simp [t, Template.written, Template.body, Embedded.written]
    rw [hchars]
    decide
  have hx := t.parseExpression_written
  rw [hwritten] at hx
  obtain ⟨-, z, hz, -, hends⟩ := adjacent_literals_concatenate ⟨by decide, by decide⟩ ⟨by decide, by decide⟩ hx
    (Template.mk "b" []).parseExpression_written
  exact ⟨z, hz, fun n c s => (hends (n + 1) c s).symm.eq_of_done⟩

end Dartlet
