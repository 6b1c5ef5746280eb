import Dartlet.Proofs.Grammar.Acceptance

/-!
# Nested brackets

Reading the brackets of a sentence from left to right, each one that closes is of the kind of the
innermost one that is open, and none is open at the end. It suffices that the body of every rule
is so, since what a category stands for leaves open what was open before.
-/

namespace Dartlet.Syntax

set_option maxRecDepth 1000

namespace Terminal

/-- The terminal that closes what a terminal opens, if that is a bracket. -/
def closer? : Terminal → Option Terminal
  | leftParen => some rightParen
  | leftBracket => some rightBracket
  | leftBrace => some rightBrace
  | _ => none

/-- Whether a terminal opens a bracket. -/
def opens (t : Terminal) : Bool := [leftParen, leftBracket, leftBrace].contains t

/-- Whether a terminal closes a bracket. -/
def closes (t : Terminal) : Bool := [rightParen, rightBracket, rightBrace].contains t

/-- The brackets that are open after one more terminal, each given by what closes it, the innermost
first. There is no answer if the terminal closes a bracket that is not the innermost one. -/
def track (opened : List Terminal) (t : Terminal) : Option (List Terminal) :=
  match t.closer? with
  | some closer => some (closer :: opened)
  | none =>
    if t.closes then
      match opened with
      | [] => none
      | closer :: outer => if closer = t then some outer else none
    else some opened

variable {opened opened' : List Terminal} {t : Terminal}

/-- What is open further out does not matter. -/
theorem track_append (outer : List Terminal) (h : track opened t = some opened') :
    track (opened ++ outer) t = some (opened' ++ outer) := by
  unfold track at h ⊢
  cases hcloser : t.closer? with
  | some closer =>
    rw [hcloser] at h
    cases h
    rfl
  | none =>
    simp only [hcloser] at h ⊢
    split at h
    · rw [if_pos ‹_›]
      cases opened with
      | nil => cases h
      | cons closer opened =>
        simp only [Option.ite_none_right_eq_some, Option.some.injEq] at h
        obtain ⟨rfl, rfl⟩ := h
        exact if_pos rfl
    · rw [if_neg ‹_›]
      cases h
      rfl

/-- A bracket that is opened is closed or stays open. -/
theorem count_of_track (h : track opened t = some opened') :
    opened.length + (if t.opens then 1 else 0) = opened'.length + (if t.closes then 1 else 0) := by
  have hopens : t.opens = t.closer?.isSome := by cases t <;> rfl
  unfold track at h
  rw [hopens]
  cases hcloser : t.closer? with
  | some closer =>
    have hcloses : t.closes = false := by cases t <;> first | rfl | cases hcloser
    rw [hcloser] at h
    cases h
    simp [hcloses]
  | none =>
    simp only [hcloser] at h
    split at h
    · cases opened with
      | nil => cases h
      | cons closer opened =>
        simp only [Option.ite_none_right_eq_some, Option.some.injEq] at h
        obtain ⟨rfl, rfl⟩ := h
        simp_all
    · cases h
      simp_all

end Terminal

/-- The brackets that are open after some terminals. -/
def openAfter (opened w : List Terminal) : Option (List Terminal) := w.foldlM Terminal.track opened

/-- Terminals whose brackets are nested. -/
def Nested (w : List Terminal) : Prop := openAfter [] w = some []

instance (w : List Terminal) : Decidable (Nested w) := inferInstanceAs (Decidable (_ = _))

variable {opened opened' outer : List Terminal} {t : Terminal} {v w : List Terminal}

theorem openAfter_cons_eq_some :
    openAfter opened (t :: w) = some opened' ↔ ∃ now, Terminal.track opened t = some now ∧ openAfter now w = some opened' := by
  rw [openAfter, List.foldlM_cons]
  exact Option.bind_eq_some_iff

theorem openAfter_append (hv : openAfter opened v = some opened') (w : List Terminal) :
    openAfter opened (v ++ w) = openAfter opened' w := by
  have h : openAfter opened (v ++ w) = (openAfter opened v).bind (openAfter · w) := List.foldlM_append
  rw [h, hv, Option.bind_some]

/-- Nested brackets may stand inside others. -/
theorem Nested.openAfter (h : Nested w) (outer : List Terminal) : openAfter outer w = some outer := by
  have hinside {opened opened' : List Terminal} (h : Syntax.openAfter opened w = some opened') :
      Syntax.openAfter (opened ++ outer) w = some (opened' ++ outer) := by
    clear * - h
    induction w generalizing opened with
    | nil =>
      cases h
      rfl
    | cons t w ih =>
      obtain ⟨now, ht, hw⟩ := openAfter_cons_eq_some.mp h
      exact openAfter_cons_eq_some.mpr ⟨now ++ outer, Terminal.track_append outer ht, ih hw⟩
  exact hinside h

/-- As many brackets are closed as are opened. -/
theorem Nested.count (h : Nested w) : w.countP Terminal.opens = w.countP Terminal.closes := by
  have hcount {opened opened' : List Terminal} (h : Syntax.openAfter opened w = some opened') :
      opened.length + w.countP Terminal.opens = opened'.length + w.countP Terminal.closes := by
    clear * - h
    induction w generalizing opened with
    | nil =>
      cases h
      rfl
    | cons t w ih =>
      obtain ⟨now, ht, hw⟩ := openAfter_cons_eq_some.mp h
      have hstep := Terminal.count_of_track ht
      have hrest := ih hw
      rw [List.countP_cons, List.countP_cons]
      omega
  simpa using hcount h

namespace Grammar

/-- The terminals among symbols. -/
def terminalsOf (symbols : List Symbol) : List Terminal :=
  symbols.filterMap (fun s => match s with
    | .tok t => some t
    | .cat _ => none)

theorem nested_body : ∀ r ∈ rules, Nested (terminalsOf r.body) := by
  decide

/-- What symbols stand for opens and closes what their own terminals do. -/
theorem openAfter_of_derives {symbols : List Symbol} (h : ruleTable.Derives symbols w)
    (hsymbols : openAfter opened (terminalsOf symbols) = some opened') : openAfter opened w = some opened' := by
  induction h generalizing opened opened' with
  | nil => exact hsymbols
  | tok t _ ih =>
    obtain ⟨now, ht, hrest⟩ := openAfter_cons_eq_some.mp hsymbols
    exact openAfter_cons_eq_some.mpr ⟨now, ht, ih hrest⟩
  | cat hr _ _ ihbody ihrest =>
    have hbody := nested_body _ (mem_ruleTable.mp hr)
    rw [openAfter_append (ihbody (hbody.openAfter opened))]
    exact ihrest hsymbols

theorem Sentence.nested {c : Category} (h : Sentence c w) : Nested w := by
  rcases sentence_iff.mp h with hw | ⟨rfl, -⟩
  · exact openAfter_of_derives hw rfl
  · rfl

end Grammar

/-- A text that is no sentence is not read, and the complaint is not a fatal one. -/
theorem derive_error_of_not_sentence {start : Category} {text : String}
    (hmisfit : ¬ Grammar.Sentence start (terminals (lex text).tokens)) :
    ∃ e, derive start text = .error e ∧ e.isFatal = false := by
  unfold derive
  dsimp only
  obtain ⟨k, -, ⟨t, -, hread⟩ | ⟨-, hsentence, -⟩ | ⟨-, -, hread⟩⟩ := readTokens_cases start (lex text).tokens
  · rw [hread]
    exact ⟨_, rfl, rfl⟩
  · exact absurd hsentence hmisfit
  · rw [hread]
    cases (lex text).stop with
    | none => exact ⟨_, rfl, rfl⟩
    | some bad => exact ⟨_, rfl, rfl⟩

/-- A text whose brackets are not nested is not read, and the complaint is not a fatal one. -/
theorem derive_error_of_not_nested (start : Category) {text : String} (h : ¬ Nested (terminals (lex text).tokens)) :
    ∃ e, derive start text = .error e ∧ e.isFatal = false :=
  derive_error_of_not_sentence fun hs => h hs.nested

end Dartlet.Syntax
