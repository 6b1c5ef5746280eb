import Dartlet.Host.Standard
import Dartlet.Members.Type
import Dartlet.Proofs.Collections.Equality
import Dartlet.Proofs.Evaluation.Operands
import Dartlet.Proofs.Program.Partition
import Dartlet.Proofs.Program.RoundTrip

/-!
# Whole numbers in texts

A whole number that is written is read back, by the member that reads numbers from texts as well as by the reader of
programs. The two agree on every text that is a whole number in a program, in decimal and in hexadecimal digits; texts
may have blanks around them and a plus sign in front besides.
-/

namespace Dartlet

open Dartlet.Syntax
open Dartlet.Syntax.Lexer (integers)
open Dartlet.Text

/-! ### Blanks -/

/-- No character of a number is removed by trimming. -/
theorem not_numeral_of_isBlank {c : Char} (h : isBlank c = true) :
    isDigit c = false ∧ isHexDigit c = false := by
  rw [isBlank, List.contains_iff_mem] at h
  rw [← Char.ofNat_toNat c]
  generalize c.toNat = code at h ⊢
  revert code
  decide

/-- A text with blanks around it. -/
def Padded (core text : List Char) : Prop :=
  ∃ front back : List Char, (∀ c ∈ front, isBlank c = true) ∧ (∀ c ∈ back, isBlank c = true) ∧
    text = front ++ core ++ back

theorem Padded.refl (core : List Char) : Padded core core := ⟨[], [], nofun, nofun, by simp⟩

theorem trim_of_padded {core text : List Char} (h : Padded core text) (hne : core ≠ [])
    (hcore : ∀ c ∈ core, isBlank c = false) : trim text = core := by
  obtain ⟨front, back, hfront, hback, rfl⟩ := h
  have hbegins : ∀ c ∈ (core ++ back).head?, isBlank c = false := by
    obtain ⟨c, cs, rfl⟩ := List.exists_cons_of_ne_nil hne
    rintro d ⟨⟩
    exact hcore _ List.mem_cons_self
  have hends : ∀ c ∈ core.reverse.head?, isBlank c = false :=
    fun c hc => hcore c (List.mem_reverse.mp (List.mem_of_mem_head? hc))
  rw [trim, trimFront, List.append_assoc, Lexer.dropWhile_run hfront hbegins, trimBack, List.reverse_append,
    Lexer.dropWhile_run (fun c hc => hback c (List.mem_reverse.mp hc)) hends, List.reverse_reverse]

/-! ### Digits -/

theorem isRun_iff {p : Char → Bool} {w : List Char} : Number.isRun p w = true ↔ w ∈ Lexer.runs p := by
  have hrun : Number.isRun p w = true ↔ w ≠ [] ∧ ∀ c ∈ w, p c = true := by simp [Number.isRun]
  exact hrun

/-- The texts of whole numbers: digits after a mark, or digits only. -/
theorem integers_cases {w : List Char} (h : w ∈ integers) :
    (∃ x ds, w = '0' :: x :: ds ∧ (x == 'x' || x == 'X') = true ∧ Number.isRun isHexDigit ds = true) ∨
      Number.isRun isDigit w = true := by
  rcases h with h | h
  · obtain ⟨u, hu, ds, hds, rfl⟩ := Language.mem_mul.mp h
    obtain ⟨_, ⟨c, hc, rfl⟩, _, ⟨x, hx, rfl⟩, rfl⟩ := Language.mem_mul.mp hu
    rw [List.mem_singleton] at hc
    subst hc
    exact .inl ⟨x, ds, rfl, by simpa using hx, isRun_iff.mpr hds⟩
  · exact .inr (isRun_iff.mpr h)

/-- A whole number in a program and one in a text have the same value. -/
theorem parseUnsigned?_of_mem {w : List Char} (h : w ∈ integers) :
    ∃ m : ℕ, Number.parseUnsigned? w = some m ∧ integerValue (String.ofList w) = m := by
  rw [integerValue, String.toList_ofList]
  rcases integers_cases h with ⟨x, ds, rfl, hx, hds⟩ | hdigits
  · exact ⟨hexValue ds, by simp [Number.parseUnsigned?, hx, hds], by simp [hx]⟩
  · have hplain {x : Char} {ds : List Char} (hw : w = '0' :: x :: ds) : (x == 'x' || x == 'X') = false := by
      rw [Bool.eq_false_iff]
      intro hx
      simp only [Number.isRun, hw, List.all_cons, Bool.and_eq_true] at hdigits
      simp only [Bool.or_eq_true, beq_iff_eq] at hx
      rcases hx with rfl | rfl <;> exact absurd hdigits.2.2.1 (by decide)
    refine ⟨decimalValue w, ?_, ?_⟩
    · unfold Number.parseUnsigned?
      simp only [hdigits, if_true]
      split
      · rw [hplain rfl]
        rfl
      · rfl
    · split
      · rw [hplain rfl]
        rfl
      · rfl

theorem not_isBlank_of_mem {w : List Char} (h : w ∈ integers) : ∀ c ∈ w, isBlank c = false := by
  have hnumeral {p : Char → Bool} (hp : ∀ c, isBlank c = true → p c = false) {c : Char} (hc : p c = true) :
      isBlank c = false := by
    rw [Bool.eq_false_iff]
    intro hblank
    rw [hp c hblank] at hc
    cases hc
  rcases integers_cases h with ⟨x, ds, rfl, hx, hds⟩ | hdigits
  · have hmark : isBlank '0' = false ∧ isBlank x = false := by
      simp only [Bool.or_eq_true, beq_iff_eq] at hx
      rcases hx with rfl | rfl <;> decide
    have hhexadecimal : ∀ c ∈ ds, isBlank c = false := fun c hc =>
      hnumeral (fun c hc => (not_numeral_of_isBlank hc).2) ((isRun_iff.mp hds).2 c hc)
    exact List.forall_mem_cons.mpr ⟨hmark.1, List.forall_mem_cons.mpr ⟨hmark.2, hhexadecimal⟩⟩
  · exact fun c hc => hnumeral (fun c hc => (not_numeral_of_isBlank hc).1) ((isRun_iff.mp hdigits).2 c hc)

theorem splitSign_of_mem {w : List Char} (h : w ∈ integers) : Number.splitSign w = (false, w) := by
  obtain ⟨d, ds, rfl, hd⟩ := Lexer.exists_of_mem_integers h
  unfold Number.splitSign
  split
  · rename_i heq
    cases heq
    exact absurd hd (by decide)
  · rename_i heq
    cases heq
    exact absurd hd (by decide)
  · rfl

theorem parseInt?_of_trim {core text w : List Char} {negative : Bool} (hw : w ∈ integers)
    (hsign : Number.splitSign core = (negative, w)) (htext : trim text = core) :
    Number.parseInt? text =
      some (if negative then -integerValue (String.ofList w) else integerValue (String.ofList w)) := by
  obtain ⟨m, hm, hvalue⟩ := parseUnsigned?_of_mem hw
  simp only [Number.parseInt?, htext, hsign, hm, hvalue]

/-- The text of a whole number in a program has no blanks and denotes the same number. -/
theorem trim_and_parseInt?_of_mem {w : List Char} (h : w ∈ integers) :
    trim (String.ofList w).toList = w ∧
      Number.parseInt? (String.ofList w).toList = some (integerValue (String.ofList w)) := by
  have hne : w ≠ [] := by
    obtain ⟨d, ds, rfl, -⟩ := Lexer.exists_of_mem_integers h
    simp
  have htrim : trim w = w := trim_of_padded (.refl w) hne (not_isBlank_of_mem h)
  rw [String.toList_ofList]
  exact ⟨htrim, parseInt?_of_trim h (splitSign_of_mem h) htrim⟩

/-! ### Decimal texts -/

theorem toList_toString (n : ℤ) :
    (toString n).toList = if n < 0 then '-' :: Nat.toDigits 10 n.natAbs else Nat.toDigits 10 n.natAbs := by
  rw [Int.toString_eq_repr, Int.repr_eq_if]
  by_cases hn : n < 0
  · have hsize : (-n).toNat = n.natAbs := by omega
    rw [if_pos hn, if_neg hn.not_ge, hsize, String.toList_append, Nat.toList_repr]
    rfl
  · have hsize : n.toNat = n.natAbs := by omega
    rw [if_neg hn, if_pos (Int.not_lt.mp hn), hsize, Nat.toList_repr]

theorem toDigits_mem_integers (m : ℕ) : Nat.toDigits 10 m ∈ integers :=
  .inr ⟨Nat.toDigits_ne_nil, fun _ hc =>
    isDigit_of_mem_toDigits hc⟩

theorem integerValue_toDigits (m : ℕ) : integerValue (String.ofList (Nat.toDigits 10 m)) = m :=
  integerValue_repr m

/-- The texts of a whole number: the one as which it is written, and the one with a plus sign if it is not negative. -/
def numerals (n : ℤ) : Language Char :=
  {core | core = (toString n).toList ∨ 0 ≤ n ∧ core = '+' :: (toString n).toList}

theorem splitSign_numeral {n : ℤ} {core : List Char} (h : core ∈ numerals n) :
    Number.splitSign core = (decide (n < 0), Nat.toDigits 10 n.natAbs) := by
  rcases h with rfl | ⟨hn, rfl⟩
  · rw [toList_toString]
    by_cases hn : n < 0
    · simp [hn, Number.splitSign]
    · rw [if_neg hn, splitSign_of_mem (toDigits_mem_integers _), decide_eq_false hn]
  · rw [toList_toString, if_neg hn.not_gt, decide_eq_false hn.not_gt]
    rfl

theorem numeral_plain {n : ℤ} {core : List Char} (h : core ∈ numerals n) :
    core ≠ [] ∧ ∀ c ∈ core, isBlank c = false := by
  have hdigits := not_isBlank_of_mem (toDigits_mem_integers n.natAbs)
  have hplain : ∀ c ∈ (toString n).toList, isBlank c = false := by
    rw [toList_toString]
    split
    · exact List.forall_mem_cons.mpr ⟨by decide, hdigits⟩
    · exact hdigits
  have hne : (toString n).toList ≠ [] := by
    rw [toList_toString]
    split
    · simp
    · exact Nat.toDigits_ne_nil
  rcases h with rfl | ⟨-, rfl⟩
  · exact ⟨hne, hplain⟩
  · exact ⟨by simp, List.forall_mem_cons.mpr ⟨by decide, hplain⟩⟩

/-- Every text of a whole number, with blanks around it, denotes that number. -/
theorem parseInt?_numeral {n : ℤ} {core text : List Char} (h : core ∈ numerals n) (htext : Padded core text) :
    trim text = core ∧ Number.parseInt? text = some n := by
  obtain ⟨hne, hplain⟩ := numeral_plain h
  have htrim := trim_of_padded htext hne hplain
  refine ⟨htrim, ?_⟩
  rw [parseInt?_of_trim (toDigits_mem_integers _) (splitSign_numeral h) htrim, integerValue_toDigits]
  simp only [decide_eq_true_eq, Option.some.injEq]
  omega

/-! ### Numbers in programs -/

theorem integerLength?_of_mem {w : List Char} (h : w ∈ integers) : Lexer.integerLength? w = some w.length := by
  have hend : IsBreak [] := nofun
  have hlength : Lexer.integerLength? (w ++ []) = some w.length := by
    rcases integers_cases h with ⟨x, ds, rfl, hx, hds⟩ | hdigits
    · obtain ⟨hne, hall⟩ := isRun_iff.mp hds
      exact Lexer.integerLength?_hexadecimal hx hall hne nofun
    · obtain ⟨hne, hall⟩ := isRun_iff.mp hdigits
      exact Lexer.integerLength?_of_isBreak hall hne hend
  rwa [List.append_nil] at hlength

theorem separable_integer {w : List Char} (h : w ∈ integers) : Word.Separable ⟨.integer, String.ofList w⟩ := by
  obtain ⟨v, more, hv, hlength, ⟨d, ds, rfl, hd⟩, hbreak⟩ := Lexer.exists_integer (integerLength?_of_mem h)
  have hmore : more = [] := by
    rw [hv, List.length_append] at hlength
    exact List.length_eq_zero_iff.mp (by omega)
  rw [hv, hmore, List.append_nil]
  exact Word.separable_of_integer hd hbreak

theorem lex_integer {w : List Char} (h : w ∈ integers) :
    (lex (String.ofList w)).Says [⟨.integer, String.ofList w⟩] :=
  lex_laid (List.forall_mem_singleton.mpr (separable_integer h)) (.last ⟨.integer, String.ofList w⟩)

/-- A minus sign before a digit is a word of its own. -/
theorem next?_minus {d : Char} (hd : isDigit d = true) (ds : List Char) :
    Lexer.next? ('-' :: d :: ds) = some (some .minus, 1) := by
  have hother : ('-' == d) = false ∧ ('=' == d) = false := by
    constructor <;> rw [beq_eq_false_iff_ne] <;> rintro rfl <;> exact absurd hd (by decide)
  have hsymbol : Lexer.symbol? ('-' :: d :: ds) = some (.minus, 1) := by
    simp [Lexer.symbol?, Terminal.symbols, List.isPrefixOf, hother]
    rfl
  rw [Lexer.next?_of_plain (Lexer.stringLiteral_eq_none (by decide) (by simp)) (by decide)
    (Lexer.commentLength?_eq_none (by decide) _), if_neg (by decide), if_neg (by decide), hsymbol]
  rfl

theorem lex_negative {w : List Char} (h : w ∈ integers) :
    (lex (String.ofList ('-' :: w))).Says [⟨.minus, "-"⟩, ⟨.integer, String.ofList w⟩] := by
  have hw := separable_integer h
  obtain ⟨d, ds, rfl, hd⟩ := Lexer.exists_of_mem_integers h
  have hdigits : Laid [⟨.integer, String.ofList (d :: ds)⟩] (d :: ds) := by
    have hlast := Laid.last ⟨.integer, String.ofList (d :: ds)⟩
    rwa [String.toList_ofList] at hlast
  have hrest (position : Position) : (Lexer.scan (d :: ds).length position (d :: ds)).Says _ :=
    Lexer.scan_laid hdigits (List.forall_mem_singleton.mpr hw) le_rfl
  rw [lex, String.toList_ofList]
  exact Lexer.scan_front (w := ⟨.minus, "-"⟩) (next?_minus hd ds) (by decide) hrest

/-- The expression of a whole number: a literal, negated if the number is negative. -/
def IsNumeral (n : ℤ) (e : Expr) : Prop :=
  if n < 0 then ∃ l l', e = .unary l .negate (.intLiteral l' (-n)) else ∃ l, e = .intLiteral l n

theorem exists_of_bare_eq {x : Expr} {n : ℤ} (h : x.bare = .intLiteral none n) : ∃ l, x = .intLiteral l n := by
  cases x <;> cases h
  exact ⟨_, rfl⟩

section

variable [Host]

theorem isOperand_integer {w : List Char} (hdigits : Host.refusesNumeral w = false) :
    Word.IsOperand ⟨.integer, String.ofList w⟩ :=
  ⟨rfl, fun _ => by rwa [String.toList_ofList]⟩

/-- A text with a whole number that the host refuses to read is no expression. -/
theorem parseExpression_refused {text : String} {words : List Word} (hlexed : (lex text).Says words) {w : List Char}
    (hw : ⟨.integer, String.ofList w⟩ ∈ words) (hdigits : Host.refusesNumeral w = true) (e : Expr) :
    parseExpression text ≠ .ok e := by
  intro he
  rw [← hlexed.1] at hw
  obtain ⟨t, ht, hword⟩ := List.mem_map.mp hw
  have hread := digits_of_readExpr he t ht (congrArg Word.terminal hword)
  have htext : t.text = String.ofList w := congrArg Word.text hword
  rw [htext, String.toList_ofList, hdigits] at hread
  cases hread

theorem parseExpression_integer {w : List Char} (h : w ∈ integers) (hdigits : Host.refusesNumeral w = false) :
    ∃ l, parseExpression (String.ofList w) = .ok (.intLiteral l (integerValue (String.ofList w))) := by
  have hforms : Forms 0 [⟨.integer, String.ofList w⟩] (some (.intLiteral none (integerValue (String.ofList w)))) :=
    (Forms.number _).lower_le le_rfl (by decide)
  have hoperands : ∀ v ∈ [(⟨.integer, String.ofList w⟩ : Word)], v.IsOperand :=
    List.forall_mem_singleton.mpr (isOperand_integer hdigits)
  obtain ⟨x, hx, hbare⟩ := readExpr_of_forms (lex_integer h) hforms hoperands (String.ofList w).length
  obtain ⟨l, rfl⟩ := exists_of_bare_eq hbare
  exact ⟨l, hx⟩

theorem parseExpression_negative {w : List Char} (h : w ∈ integers) (hdigits : Host.refusesNumeral w = false) :
    ∃ l l', parseExpression (String.ofList ('-' :: w)) =
      .ok (.unary l .negate (.intLiteral l' (integerValue (String.ofList w)))) := by
  have hnumber : Forms prefixLevel [⟨.integer, String.ofList w⟩]
      (some (.intLiteral none (integerValue (String.ofList w)))) :=
    (Forms.number _).lower_le le_rfl (by decide)
  have hforms := (Forms.unary (w := ⟨.minus, "-"⟩) rfl hnumber).lower_le (by decide) (Nat.zero_le _)
  have hoperands : ∀ v ∈ [(⟨.minus, "-"⟩ : Word), ⟨.integer, String.ofList w⟩], v.IsOperand :=
    List.forall_mem_cons.mpr ⟨⟨rfl, nofun⟩, List.forall_mem_singleton.mpr (isOperand_integer hdigits)⟩
  obtain ⟨x, hx, hbare⟩ := readExpr_of_forms (lex_negative h) hforms hoperands (String.ofList ('-' :: w)).length
  obtain ⟨l, y, rfl, hy⟩ : ∃ l y, x = .unary l .negate y ∧
      y.bare = .intLiteral none (integerValue (String.ofList w)) := by
    cases x with
    | unary l op y =>
      obtain ⟨rfl, hy⟩ : op = .negate ∧ y.bare = .intLiteral none (integerValue (String.ofList w)) := by
        simpa [Expr.bare] using hbare
      exact ⟨l, y, rfl, hy⟩
    | _ => cases hbare
  obtain ⟨l', rfl⟩ := exists_of_bare_eq hy
  exact ⟨l, l', hx⟩

theorem parseExpression_toString {n : ℤ} (hn : Host.refusesNumber n = false) :
    ∃ e, parseExpression (toString n) = .ok e ∧ IsNumeral n e := by
  have hvalue := integerValue_toDigits n.natAbs
  have htext : toString n = String.ofList (toString n).toList := String.ofList_toList.symm
  have hdigits : Host.refusesNumeral (Nat.toDigits 10 n.natAbs) = false := (Host.refusesNumeral_toDigits _).trans hn
  rw [htext, toList_toString]
  by_cases hsign : n < 0
  · obtain ⟨l, l', h⟩ := parseExpression_negative (toDigits_mem_integers n.natAbs) hdigits
    rw [if_pos hsign]
    refine ⟨_, h, ?_⟩
    rw [IsNumeral, if_pos hsign]
    exact ⟨l, l', by rw [hvalue, Int.ofNat_natAbs_of_nonpos hsign.le]⟩
  · obtain ⟨l, h⟩ := parseExpression_integer (toDigits_mem_integers n.natAbs) hdigits
    rw [if_neg hsign]
    refine ⟨_, h, ?_⟩
    rw [IsNumeral, if_neg hsign]
    exact ⟨l, by rw [hvalue, Int.natAbs_of_nonneg (Int.not_lt.mp hsign)]⟩

theorem parseExpression_toString_refused {n : ℤ} (hn : Host.refusesNumber n = true) (e : Expr) :
    parseExpression (toString n) ≠ .ok e := by
  have htext : toString n = String.ofList (toString n).toList := String.ofList_toList.symm
  have hdigits : Host.refusesNumeral (Nat.toDigits 10 n.natAbs) = true := (Host.refusesNumeral_toDigits _).trans hn
  have hmem := toDigits_mem_integers n.natAbs
  rw [htext, toList_toString]
  split
  · exact parseExpression_refused (lex_negative hmem) (List.mem_cons_of_mem _ List.mem_cons_self) hdigits e
  · exact parseExpression_refused (lex_integer hmem) List.mem_cons_self hdigits e

/-! ### What programs do with them -/

section Survival

open Dartlet.Action

variable {c : Context} {depth : ℕ} {s : Store} {n : ℤ} {text : String}

theorem IsNumeral.evaluates {e : Expr} (h : IsNumeral n e) : Evaluates c e s (.done (.int n) s) := by
  unfold IsNumeral at h
  split at h
  · obtain ⟨l, l', rfl⟩ := h
    have hnegated : Evaluates c (.unary l .negate (.intLiteral l' (-n))) s (.done (.int (- -n)) s) := ⟨nofun, 2, rfl⟩
    rwa [neg_neg] at hnegated
  · obtain ⟨l, rfl⟩ := h
    exact ⟨nofun, 1, rfl⟩

theorem invokes_toString (hn : Host.refusesNumber n = false) :
    Invokes depth (.int n) "toString" [] s (.done (.string (toString n)) s) := by
  have hwritten : textOf (.int n) s = .done ((Value.int n).text s) s := textOf_eq_done (by simp [hn])
  refine ⟨nofun, 0, ?_⟩
  change Action.bind (textOf (.int n)) (fun text => pure (Value.string text)) s = _
  rw [Action.bind, hwritten, Value.text, Value.textWithin]
  rfl

theorem invokes_toString_refused (hn : Host.refusesNumber n = true) :
    Invokes depth (.int n) "toString" [] s (.escaped (.lengthyNumber Host.digitLimit) s) := by
  have hrefused : textOf (.int n) s = .escaped (.lengthyNumber Host.digitLimit) s := textOf_eq_escaped (by simp [hn])
  refine ⟨nofun, 0, ?_⟩
  change Action.bind (textOf (.int n)) (fun text => pure (Value.string text)) s = _
  rw [Action.bind, hrefused]

theorem invokes_trim (hdepth : depth < Host.callLimit) :
    Invokes depth (.string text) "trim" [] s (.done (.string (String.ofList (trim text.toList))) s) :=
  (invokes_done_iff rfl rfl rfl).mpr ⟨hdepth, nofun, 0, rfl⟩

/-- Reading a whole number from a text, without what is done with its argument. -/
theorem run_parse (caller : Caller) (text : String) : Method.run caller (.type .int) [.string text] (.type .parse) =
    TypeMethod.read .int text >>= fun number => number.elim (escape (TypeMethod.badNumber .int text)) pure := by
  have hargument (method : String) : Action.stringArgument method (.string text) = pure text := rfl
  simp only [Method.run, TypeMethod.run, argument_zero, hargument, pure_bind]
  congr 1
  funext number
  cases number <;> rfl

theorem refusal?_of_trim {w : List Char} {negative : Bool}
    (hsign : Number.splitSign (trim text.toList) = (negative, w)) : TypeMethod.refusal? .int text =
      if Host.refusesNumeral w then some (.lengthyNumeral Host.digitLimit w.length) else none := by
  simp [TypeMethod.refusal?, hsign]

theorem invokes_parse (hdepth : depth < Host.callLimit) (hdigits : TypeMethod.refusal? .int text = none)
    (h : Number.parseInt? text.toList = some n) :
    Invokes depth (.type .int) "parse" [.string text] s (.done (.int n) s) := by
  have hread : TypeMethod.read .int text = pure (some (.int n)) := by
    rw [TypeMethod.read, hdigits, TypeMethod.parsed?, h]
    rfl
  have hrun (caller : Caller) :
      Method.run caller (.type .int) [.string text] (.type .parse) s = .done (.int n) s := by
    rw [run_parse, hread]
    rfl
  exact (invokes_iff_of_run rfl rfl rfl hdepth (by rintro _ ⟨⟩) hrun).mpr rfl

theorem invokes_parse_refused (hdepth : depth < Host.callLimit) {digits : ℕ}
    (hrefused : TypeMethod.refusal? .int text = some (.lengthyNumeral Host.digitLimit digits)) :
    Invokes depth (.type .int) "parse" [.string text] s (fail (.host (.lengthyNumeral Host.digitLimit digits)) s) := by
  have hread : TypeMethod.read .int text = escape (.lengthyNumeral Host.digitLimit digits) := by
    rw [TypeMethod.read, hrefused]
  have hrun (caller : Caller) : Method.run caller (.type .int) [.string text] (.type .parse) s =
      .escaped (.lengthyNumeral Host.digitLimit digits) s := by
    rw [run_parse, hread]
    rfl
  exact (invokes_iff_of_run rfl rfl rfl hdepth (by rintro _ ⟨⟩) hrun).mpr rfl

/-- Whole numbers survive texts, as far as the host writes and reads their digits. What a number is written as is read
back as the number, and so is that text with blanks around it, which trimming removes, and with a plus sign in front
unless the number is negative. Read as an expression, it is a literal or a negated literal with the number as its value.
Whatever is a whole number in a program, in decimal or hexadecimal digits, has the value that is read from its text. A
number with more digits is not written, and decimal digits that are more are read neither as a number nor as an
expression. -/
theorem integers_survive_texts (hdepth : c.depth < Host.callLimit) (n : ℤ) :
    (n.natAbs < 10 ^ Host.digitLimit →
      Invokes c.depth (.int n) "toString" [] s (.done (.string (toString n)) s) ∧
      (∀ core ∈ numerals n, ∀ text : String, Padded core text.toList →
        Invokes c.depth (.string text) "trim" [] s (.done (.string (String.ofList core)) s) ∧
          Invokes c.depth (.type .int) "parse" [.string text] s (.done (.int n) s)) ∧
      (∀ l l' l'' x type, Evaluates c type s (.done (.type .int) s) → Evaluates c x s (.done (.int n) s) →
        Evaluates c (.binary l .eq (.methodCall l' type "parse" [.positional (.methodCall l'' x "toString" [])]) x) s
          (.done (.bool true) s)) ∧
      ∃ e, parseExpression (toString n) = .ok e ∧ IsNumeral n e ∧ Evaluates c e s (.done (.int n) s)) ∧
    (10 ^ Host.digitLimit ≤ n.natAbs →
      Invokes c.depth (.int n) "toString" [] s (.escaped (.lengthyNumber Host.digitLimit) s) ∧
      (∀ core ∈ numerals n, ∀ text : String, Padded core text.toList →
        Invokes c.depth (.type .int) "parse" [.string text] s
          (fail (.host (.lengthyNumeral Host.digitLimit (Number.digitCount n.natAbs))) s)) ∧
      ∀ e, parseExpression (toString n) ≠ .ok e) ∧
    (∀ source, ∀ t ∈ (lex source).tokens, t.terminal = .integer → t.text.toList ∈ integers) ∧
    ∀ w ∈ integers,
      (Host.refusesNumeral w = false → ∃ l, let value := integerValue (String.ofList w)
        parseExpression (String.ofList w) = .ok (.intLiteral l value) ∧
        Evaluates c (.intLiteral l value) s (.done (.int value) s) ∧
        Invokes c.depth (.type .int) "parse" [.string (String.ofList w)] s (.done (.int value) s)) ∧
      (Host.refusesNumeral w = true →
        (∀ e, parseExpression (String.ofList w) ≠ .ok e) ∧
        Invokes c.depth (.type .int) "parse" [.string (String.ofList w)] s
          (fail (.host (.lengthyNumeral Host.digitLimit w.length)) s)) := by
  have hrefusal {core : List Char} (hcore : core ∈ numerals n) {text : String} (hpadded : Padded core text.toList) :
      TypeMethod.refusal? .int text = if Host.refusesNumber n then
        some (.lengthyNumeral Host.digitLimit (Number.digitCount n.natAbs)) else none := by
    obtain ⟨htrim, -⟩ := parseInt?_numeral hcore hpadded
    have hsign : Number.splitSign (trim text.toList) = (decide (n < 0), Nat.toDigits 10 n.natAbs) := by
      rw [htrim, splitSign_numeral hcore]
    rw [refusal?_of_trim hsign, Host.refusesNumeral_toDigits]
    rfl
  refine ⟨fun hn => ?short, fun hn => ?long, fun source t ht hinteger => ?token, fun w hw => ?literal⟩
  case short =>
    have hshort : Host.refusesNumber n = false := Host.refusesNumber_eq_false_iff.mpr hn
    have hread {core : List Char} (hcore : core ∈ numerals n) {text : String} (hpadded : Padded core text.toList) :
        Invokes c.depth (.type .int) "parse" [.string text] s (.done (.int n) s) :=
      invokes_parse hdepth (by simp [hrefusal hcore hpadded, hshort]) (parseInt?_numeral hcore hpadded).2
    refine ⟨invokes_toString hshort, fun core hcore text hpadded => ⟨?_, hread hcore hpadded⟩,
      fun l l' l'' x type htype hx => ?_, ?_⟩
    · exact (parseInt?_numeral hcore hpadded).1 ▸ invokes_trim hdepth
    · have hwritten : Evaluates c (.methodCall l'' x "toString" []) s (.done (.string (toString n)) s) :=
        (evaluates_methodCall_iff hx .nil).mpr ⟨_, invokes_toString hshort, .done _ _⟩
      have hparsed : Evaluates c (.methodCall l' type "parse" [.positional (.methodCall l'' x "toString" [])]) s
          (.done (.int n) s) :=
        (evaluates_methodCall_iff htype (.one hwritten)).mpr ⟨_, hread (.inl rfl) (.refl _), .done _ _⟩
      refine .binary (by rfl) hparsed hx ?_
      exact congrArg (fun equal => Outcome.done (Value.bool equal) s) ((Value.equals_self_iff (.int n)).mpr rfl)
    · obtain ⟨e, he, hnumeral⟩ := parseExpression_toString hshort
      exact ⟨e, he, hnumeral, hnumeral.evaluates⟩
  case long =>
    have hlong : Host.refusesNumber n = true := by
      rw [← Bool.not_eq_false, Host.refusesNumber_eq_false_iff]
      exact Nat.not_lt.mpr hn
    refine ⟨invokes_toString_refused hlong, fun core hcore text hpadded => ?_, parseExpression_toString_refused hlong⟩
    exact invokes_parse_refused hdepth (by simp [hrefusal hcore hpadded, hlong])
  case token =>
    have hlanguage := Lexer.mem_language_of_token ht
    rwa [hinteger] at hlanguage
  case literal =>
    obtain ⟨htrim, hparsed⟩ := trim_and_parseInt?_of_mem hw
    have hsign : Number.splitSign (trim (String.ofList w).toList) = (false, w) := by
      rw [htrim, splitSign_of_mem hw]
    have hrefusal := refusal?_of_trim hsign
    refine ⟨fun hdigits => ?_, fun hdigits => ?_⟩
    · obtain ⟨l, hl⟩ := parseExpression_integer hw hdigits
      exact ⟨l, hl, ⟨nofun, 1, rfl⟩, invokes_parse hdepth (by simp [hrefusal, hdigits]) hparsed⟩
    · refine ⟨parseExpression_refused (lex_integer hw) List.mem_cons_self hdigits, ?_⟩
      exact invokes_parse_refused hdepth (by simp [hrefusal, hdigits])

end Survival

end

/-- A negative number is read from a text with blanks around it and as an expression; letters may be hexadecimal digits
in both cases. A number with one digit too many is not written. -/
theorem integers_survive_texts_negative :
    let c : Context := ⟨0, 0⟩
    let s : Store := {}
    c.depth < Host.callLimit ∧
      Invokes 0 (.type .int) "parse" [.string "\t-12\n"] s (.done (.int (-12)) s) ∧
      Invokes 0 (.type .int) "parse" [.string " +12"] s (.done (.int 12) s) ∧
      (∃ e, parseExpression "-12" = .ok e ∧ IsNumeral (-12) e ∧ Evaluates c e s (.done (.int (-12)) s)) ∧
      (∃ l, parseExpression "0xFf" = .ok (.intLiteral l 255) ∧
        Invokes 0 (.type .int) "parse" [.string "0xFf"] s (.done (.int 255) s)) ∧
      Invokes 0 (.int (10 ^ 4300 : ℕ)) "toString" [] s (.escaped (.lengthyNumber 4300) s) := by
  intro c s
  have hdepth : c.depth < Host.callLimit := by decide
  have hsurvives (n : ℤ) := integers_survive_texts (s := s) hdepth n
  have hminus : Padded "-12".toList "\t-12\n".toList := ⟨['\t'], ['\n'], by decide, by decide, by decide⟩
  have hplus : Padded "+12".toList " +12".toList := ⟨[' '], [], by decide, by decide, by decide⟩
  have hmark : ['0'] ++ ['x'] ∈ Lexer.oneOf ['0'] * Lexer.oneOf ['x', 'X'] :=
    Language.append_mem_mul ⟨'0', by decide, rfl⟩ ⟨'x', by decide, rfl⟩
  have hhexadecimal : "0xFf".toList ∈ integers :=
    .inl (Language.append_mem_mul hmark ⟨(by decide : ['F', 'f'] ≠ []), by decide⟩)
  have hshort : (12 : ℤ).natAbs < 10 ^ Host.digitLimit := Host.refusesNumber_eq_false_iff.mp (by decide)
  have hshort' : (-12 : ℤ).natAbs < 10 ^ Host.digitLimit := by rwa [Int.natAbs_neg]
  obtain ⟨-, hnegative, -, hexpression⟩ := (hsurvives (-12)).1 hshort'
  obtain ⟨hwritten, -, -, hliteral⟩ := hsurvives 12
  obtain ⟨-, hpositive, -, -⟩ := hwritten hshort
  obtain ⟨l, hparsed, -, hread⟩ := (hliteral _ hhexadecimal).1 (by decide)
  have hsize : ¬((10 ^ 4300 : ℕ) : ℤ).natAbs < 10 ^ Host.digitLimit := by
    rw [← Host.refusesNumber_eq_false_iff, Host.refusesNumber_standard]
    exact Bool.noConfusion
  obtain ⟨hlong, -, -⟩ := (hsurvives (10 ^ 4300 : ℕ)).2.1 (Nat.not_lt.mp hsize)
  exact ⟨hdepth, (hnegative _ (.inl rfl) _ hminus).2, (hpositive _ (.inr ⟨by decide, rfl⟩) _ hplus).2, hexpression,
    ⟨l, hparsed, hread⟩, hlong⟩

end Dartlet
