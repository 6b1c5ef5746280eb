import Dartlet.Proofs.Program.Lexemes
import Dartlet.Syntax.Quotation

/-!
# Decoding string literals

The decoder goes through the inside of a literal and takes one character, escape or embedded expression after
the other. A hexadecimal escape holds a number, and the decoder takes more for one than a run of hexadecimal
digits: blanks around it, a sign, a mark in front of the digits and underscores between them. The numbers are
told here by a grammar of their own, and with them which escapes there are and what they stand for.
-/

namespace Dartlet.Syntax.Quotation

open Dartlet.Text

/-! ### Numbers -/

/-- Digits with single underscores between them, and the digits alone. -/
inductive Groups : List Char → List Char → Prop where
  | last {c} (hc : (hexDigitValue? c).isSome = true) : Groups [c] [c]
  | next {c text digits} (hc : (hexDigitValue? c).isSome = true) (more : Groups text digits) :
      Groups (c :: text) (c :: digits)
  | apart {c text digits} (hc : (hexDigitValue? c).isSome = true) (more : Groups text digits) :
      Groups (c :: '_' :: text) (c :: digits)

/-- The mark of a hexadecimal number: a zero, which may be of any script, and a letter. -/
def IsMark (zero x : Char) : Prop := digitValue? zero = some 0 ∧ (x = 'x' ∨ x = 'X')

/-- A number without a sign. There may be a mark in front of its digits, and an underscore after the mark. -/
inductive Unsigned : List Char → Nat → Prop where
  | plain {text digits} (groups : Groups text digits) : Unsigned text (hexValue digits)
  | marked {zero x text digits} (hmark : IsMark zero x) (groups : Groups text digits) :
      Unsigned (zero :: x :: text) (hexValue digits)
  | apart {zero x text digits} (hmark : IsMark zero x) (groups : Groups text digits) :
      Unsigned (zero :: x :: '_' :: text) (hexValue digits)

/-- A number with or without a sign. -/
inductive Signed : List Char → Int → Prop where
  | bare {text n} (unsigned : Unsigned text n) : Signed text n
  | plus {text n} (unsigned : Unsigned text n) : Signed ('+' :: text) n
  | minus {text n} (unsigned : Unsigned text n) : Signed ('-' :: text) (-n)

/-- What the decoder takes for the number of an escape: there may be blanks around it. -/
inductive Numeral : List Char → Int → Prop where
  | mk {front text back n} (hfront : ∀ c ∈ front, isNumberBlank c = true) (signed : Signed text n)
      (hback : ∀ c ∈ back, isNumberBlank c = true) : Numeral (front ++ text ++ back) n

/-! ### Reading numbers -/

theorem Groups.head {text digits : List Char} (h : Groups text digits) :
    ∃ c rest, text = c :: rest ∧ (hexDigitValue? c).isSome = true := by
  cases h with
  | last hc | next hc | apart hc => exact ⟨_, _, rfl, hc⟩

theorem Groups.last_digit {text digits : List Char} (h : Groups text digits) :
    ∃ front c, text = front ++ [c] ∧ (hexDigitValue? c).isSome = true := by
  induction h with
  | @last c hc => exact ⟨[], c, rfl, hc⟩
  | @next c text digits hc more ih =>
    obtain ⟨front, d, rfl, hd⟩ := ih
    exact ⟨c :: front, d, rfl, hd⟩
  | @apart c text digits hc more ih =>
    obtain ⟨front, d, rfl, hd⟩ := ih
    exact ⟨c :: '_' :: front, d, rfl, hd⟩

/-- Grouped digits are read as their digits. -/
theorem digitGroups_iff {text digits : List Char} : digitGroups text = some digits ↔ Groups text digits := by
  constructor
  · intro h
    fun_induction digitGroups text generalizing digits with
    | case1 => cases h
    | case2 c hc =>
      cases h
      exact .last hc
    | case3 c hc => cases h
    | case4 c rest hc ih =>
      obtain ⟨more, hmore, rfl⟩ := Option.map_eq_some_iff.mp h
      exact .apart hc (ih hmore)
    | case5 c rest hc => cases h
    | case6 c rest _ _ hc ih =>
      obtain ⟨more, hmore, rfl⟩ := Option.map_eq_some_iff.mp h
      exact .next hc (ih hmore)
    | case7 c rest _ _ hc => cases h
  · intro h
    induction h with
    | last hc => simp only [digitGroups, hc, if_true]
    | @next c text digits hc more ih =>
      obtain ⟨d, rest, rfl, hd⟩ := more.head
      have hunderscore : d ≠ '_' := by
        rintro rfl
        exact absurd hd (by decide)
      rw [digitGroups.eq_def]
      split
      · rename_i heq
        cases heq
      · rename_i heq
        cases heq
      · rename_i heq
        cases heq
        exact absurd rfl hunderscore
      · rename_i heq
        cases heq
        rw [if_pos hc, ih]
        rfl
    | @apart c text digits hc more ih => simp only [digitGroups, hc, if_true, ih, Option.map_some]

theorem unmarked_of_plain {text : List Char} (h : ∀ x ∈ text[1]?, (x == 'x' || x == 'X') = false) :
    unmarked text = text := by
  unfold unmarked
  split
  · rw [h _ rfl, Bool.and_false, if_neg Bool.false_ne_true]
  · rfl

theorem unmarked_of_isMark {zero x : Char} {rest : List Char} (h : IsMark zero x) :
    unmarked (zero :: x :: rest) = afterMark rest := by
  have hmark : (digitValue? zero == some 0 && (x == 'x' || x == 'X')) = true := by
    simpa only [IsMark, Bool.and_eq_true, Bool.or_eq_true, beq_iff_eq] using h
  simp only [unmarked, hmark, if_true]

theorem unmarked_groups {text digits : List Char} (h : Groups text digits) : unmarked text = text := by
  refine unmarked_of_plain fun x hx => Bool.eq_false_iff.mpr fun hmark => ?_
  have hletter : x = 'x' ∨ x = 'X' := by simpa using hmark
  cases h with
  | last => cases hx
  | next hc more =>
    obtain ⟨d, rest, rfl, hd⟩ := more.head
    obtain rfl := Option.some.inj hx
    rcases hletter with rfl | rfl <;> exact absurd hd (by decide)
  | apart =>
    obtain rfl := Option.some.inj hx
    exact absurd hletter (by decide)

theorem unsigned_iff {text : List Char} {n : Nat} : unsigned? text = some n ↔ Unsigned text n := by
  simp only [unsigned?, Option.map_eq_some_iff, digitGroups_iff]
  constructor
  · rintro ⟨digits, hgroups, rfl⟩
    unfold unmarked at hgroups
    split at hgroups
    · rename_i zero x rest
      split at hgroups
      · rename_i hmark
        have hmark : IsMark zero x := by simpa [IsMark] using hmark
        unfold afterMark at hgroups
        split at hgroups
        · exact .apart hmark hgroups
        · exact .marked hmark hgroups
      · exact .plain hgroups
    · exact .plain hgroups
  · rintro (hgroups | ⟨hmark, hgroups⟩ | ⟨hmark, hgroups⟩)
    · exact ⟨_, by rwa [unmarked_groups hgroups], rfl⟩
    · refine ⟨_, ?_, rfl⟩
      obtain ⟨d, rest, rfl, hd⟩ := hgroups.head
      have hunderscore : d ≠ '_' := by
        rintro rfl
        exact absurd hd (by decide)
      rw [unmarked_of_isMark hmark, afterMark]
      · exact hgroups
      · exact fun _ heq => absurd (List.cons.inj heq).1 hunderscore
    · exact ⟨_, by rwa [unmarked_of_isMark hmark], rfl⟩

theorem Unsigned.head {text : List Char} {n : Nat} (h : Unsigned text n) :
    ∃ c rest, text = c :: rest ∧ (hexDigitValue? c).isSome = true := by
  cases h with
  | plain groups => exact groups.head
  | marked hmark | apart hmark => exact ⟨_, _, rfl, by rw [hexDigitValue?, hmark.1]; rfl⟩

theorem Unsigned.last_digit {text : List Char} {n : Nat} (h : Unsigned text n) :
    ∃ front c, text = front ++ [c] ∧ (hexDigitValue? c).isSome = true := by
  cases h with
  | plain groups => exact groups.last_digit
  | @marked zero x _ _ _ groups =>
    obtain ⟨front, c, rfl, hc⟩ := groups.last_digit
    exact ⟨zero :: x :: front, c, rfl, hc⟩
  | @apart zero x _ _ _ groups =>
    obtain ⟨front, c, rfl, hc⟩ := groups.last_digit
    exact ⟨zero :: x :: '_' :: front, c, rfl, hc⟩

/-- The number that a text without blanks around it holds. -/
def signed? : List Char → Option Int
  | '-' :: rest => (unsigned? rest).map (fun (n : Nat) => -(n : Int))
  | '+' :: rest => (unsigned? rest).map (fun (n : Nat) => (n : Int))
  | rest => (unsigned? rest).map (fun (n : Nat) => (n : Int))

theorem signed_iff {text : List Char} {n : Int} : signed? text = some n ↔ Signed text n := by
  constructor
  · intro h
    unfold signed? at h
    split at h
    all_goals
      obtain ⟨k, hk, rfl⟩ := Option.map_eq_some_iff.mp h
      have hunsigned := unsigned_iff.mp hk
    · exact .minus hunsigned
    · exact .plus hunsigned
    · exact .bare hunsigned
  · rintro (hunsigned | hunsigned | hunsigned)
    · obtain ⟨c, rest, rfl, hc⟩ := hunsigned.head
      have hsign : c ≠ '-' ∧ c ≠ '+' := by
        constructor <;> rintro rfl <;> exact absurd hc (by decide)
      unfold signed?
      split
      · rename_i heq
        exact absurd (List.cons.inj heq).1 hsign.1
      · rename_i heq
        exact absurd (List.cons.inj heq).1 hsign.2
      · rw [unsigned_iff.mpr hunsigned]
        rfl
    · simp only [signed?, unsigned_iff.mpr hunsigned, Option.map_some]
    · simp only [signed?, unsigned_iff.mpr hunsigned, Option.map_some]

/-! ### Blanks around a number -/

/-- A text without the blanks around it. -/
def stripped (text : List Char) : List Char :=
  ((text.dropWhile isNumberBlank).reverse.dropWhile isNumberBlank).reverse

theorem hexNumber?_eq (text : List Char) : hexNumber? text = signed? (stripped text) := by
  have hcast (rest : List Char) (f : Int → Int) :
      (unsigned? rest >>= fun n => pure (n : Int)).map f = (unsigned? rest).map (fun (n : Nat) => f (n : Int)) := by
    cases unsigned? rest <;> rfl
  unfold hexNumber?
  change _ = signed? (stripped text)
  generalize hbody : stripped text = body
  rw [stripped] at hbody
  rw [hbody]
  split
  · exact hcast _ _
  · exact hcast _ _
  · rw [signed?]
    · exact hcast _ id
    all_goals assumption

theorem hexDigitValue?_of_isNumberBlank {c : Char} (h : isNumberBlank c = true) : hexDigitValue? c = none := by
  have hblank : isBlank c = true := (Bool.and_eq_true_iff.mp h).1
  have hall : ∀ k ∈ [
      0x9, 0xA, 0xB, 0xC, 0xD, 0x1C, 0x1D, 0x1E, 0x1F, 0x20, 0x85, 0xA0, 0x1680, 0x2000, 0x2001,
      0x2002, 0x2003, 0x2004, 0x2005, 0x2006, 0x2007, 0x2008, 0x2009, 0x200A, 0x2028, 0x2029,
      0x202F, 0x205F, 0x3000], hexDigitValue? (Char.ofNat k) = none := by decide
  have hnone := hall c.toNat (by simpa [isBlank] using hblank)
  rwa [Char.ofNat_toNat] at hnone

theorem stripped_of_ends {front text back : List Char} (hfront : ∀ c ∈ front, isNumberBlank c = true)
    (hback : ∀ c ∈ back, isNumberBlank c = true) (hhead : ∃ c rest, text = c :: rest ∧ isNumberBlank c = false)
    (hlast : ∃ rest c, text = rest ++ [c] ∧ isNumberBlank c = false) : stripped (front ++ text ++ back) = text := by
  have hleft : (front ++ text ++ back).dropWhile isNumberBlank = text ++ back := by
    obtain ⟨c, rest, rfl, hc⟩ := hhead
    rw [List.append_assoc, List.dropWhile_append_of_pos hfront]
    exact List.dropWhile_cons_of_neg (by simp [hc])
  have hright : (text ++ back).reverse.dropWhile isNumberBlank = text.reverse := by
    obtain ⟨rest, c, rfl, hc⟩ := hlast
    rw [List.reverse_append, List.dropWhile_append_of_pos (by simpa using hback), List.reverse_concat]
    exact List.dropWhile_cons_of_neg (by simp [hc])
  rw [stripped, hleft, hright, List.reverse_reverse]

/-- Blanks in front, a text, and blanks behind. -/
theorem exists_stripped (text : List Char) : ∃ front back, text = front ++ stripped text ++ back ∧
    (∀ c ∈ front, isNumberBlank c = true) ∧ ∀ c ∈ back, isNumberBlank c = true := by
  refine ⟨text.takeWhile isNumberBlank, ((text.dropWhile isNumberBlank).reverse.takeWhile isNumberBlank).reverse,
    ?_, List.all_eq_true.mp List.all_takeWhile, fun c hc => List.all_eq_true.mp List.all_takeWhile c (List.mem_reverse.mp hc)⟩
  rw [List.append_assoc, stripped, ← List.reverse_append, List.takeWhile_append_dropWhile, List.reverse_reverse,
    List.takeWhile_append_dropWhile]

theorem Signed.ends {text : List Char} {n : Int} (h : Signed text n) :
    (∃ c rest, text = c :: rest ∧ isNumberBlank c = false) ∧ ∃ rest c, text = rest ++ [c] ∧ isNumberBlank c = false := by
  have hdigit {c : Char} (hc : (hexDigitValue? c).isSome = true) : isNumberBlank c = false :=
    Bool.eq_false_iff.mpr fun hblank => by simp [hexDigitValue?_of_isNumberBlank hblank] at hc
  cases h with
  | bare unsigned =>
    obtain ⟨c, rest, hhead, hc⟩ := unsigned.head
    obtain ⟨front, d, hlast, hd⟩ := unsigned.last_digit
    exact ⟨⟨c, rest, hhead, hdigit hc⟩, ⟨front, d, hlast, hdigit hd⟩⟩
  | plus unsigned =>
    obtain ⟨front, d, rfl, hd⟩ := unsigned.last_digit
    exact ⟨⟨'+', _, rfl, by decide⟩, ⟨'+' :: front, d, rfl, hdigit hd⟩⟩
  | minus unsigned =>
    obtain ⟨front, d, rfl, hd⟩ := unsigned.last_digit
    exact ⟨⟨'-', _, rfl, by decide⟩, ⟨'-' :: front, d, rfl, hdigit hd⟩⟩

/-- The decoder reads just the numbers of the grammar. -/
theorem hexNumber?_iff {text : List Char} {n : Int} : hexNumber? text = some n ↔ Numeral text n := by
  rw [hexNumber?_eq, signed_iff]
  constructor
  · intro h
    obtain ⟨front, back, htext, hfront, hback⟩ := exists_stripped text
    rw [htext]
    exact .mk hfront h hback
  · rintro ⟨hfront, hsigned, hback⟩
    rwa [stripped_of_ends hfront hback hsigned.ends.1 hsigned.ends.2]

/-! ### Escapes -/

/-- The hexadecimal escapes by what follows the backslash: the letter, the text that holds the number, and how
many characters the escape takes. At the end of a literal there may be fewer of them. -/
inductive HexEscape : List Char → Char → List Char → Nat → Prop where
  | two {rest} : HexEscape ('x' :: rest) 'x' (rest.take 2) 3
  | four {rest} (hbrace : rest.head? ≠ some '{') : HexEscape ('u' :: rest) 'u' (rest.take 4) 5
  | braces {number rest} (hnumber : '}' ∉ number) :
      HexEscape ('u' :: '{' :: (number ++ '}' :: rest)) 'u' number (number.length + 3)

section

variable {text number : List Char} {letter : Char} {k : Nat}

theorem HexEscape.escape_eq (h : HexEscape text letter number k) :
    escape text = (codePoint letter number).map (fun n => ([n], k)) := by
  cases h with
  | two => rfl
  | @four rest hbrace =>
    cases rest with
    | nil => rfl
    | cons c rest =>
      have hc : c ≠ '{' := fun hc => hbrace (by rw [hc]; rfl)
      rw [escape]
      simpa using hc
  | @braces _ rest hnumber =>
    have hplain : ∀ c ∈ number, (c != '}') = true := fun c hc => by
      simpa using fun heq : c = '}' => hnumber (heq ▸ hc)
    have htake : (number ++ '}' :: rest).takeWhile (· != '}') = number := by
      rw [List.takeWhile_append_of_pos hplain]
      simp
    have hlength : (number.length == (number ++ '}' :: rest).length) = false := by simp
    simp only [escape, htake, hlength, Bool.false_eq_true, if_false]

theorem escape_unclosed {rest : List Char} (h : '}' ∉ rest) : escape ('u' :: '{' :: rest) = .error (.invalidEscape 'u') := by
  have hplain : ∀ c ∈ rest, (c != '}') = true := fun c hc => by
    simpa using fun heq : c = '}' => h (heq ▸ hc)
  have htake : (rest ++ []).takeWhile (· != '}') = rest ++ [] := List.takeWhile_append_of_pos hplain
  rw [List.append_nil] at htake
  simp only [escape, htake, beq_self_eq_true, if_true]

/-- What a number in an escape stands for depends on how large it is. -/
theorem codePoint_eq {n : Int} (h : Numeral number n) : codePoint letter number =
    if n < -0x80000000 ∨ 0x80000000 ≤ n then .error .hugeEscape
    else if n < 0 ∨ 0x110000 ≤ n then .error (.invalidEscape letter)
    else .ok n.toNat := by
  simp only [codePoint, hexNumber?_iff.mpr h, Bool.or_eq_true, decide_eq_true_eq]

theorem codePoint_of_no_numeral (h : ∀ n, ¬ Numeral number n) : codePoint letter number = .error (.invalidEscape letter) := by
  cases hnumber : hexNumber? number with
  | none => simp only [codePoint, hnumber]
  | some n => exact absurd (hexNumber?_iff.mp hnumber) (h n)

/-- A run of hexadecimal digits is a number. -/
theorem numeral_of_digits (hne : number ≠ []) (h : ∀ c ∈ number, isHexDigit c = true) : Numeral number (hexValue number) := by
  have hdigit {c : Char} (hc : isHexDigit c = true) : (hexDigitValue? c).isSome = true := by
    simp only [isHexDigit, Bool.or_eq_true, Bool.and_eq_true, decide_eq_true_eq] at hc
    rcases hc with hbasic | hletter
    · have hvalue : isDigit c = true := isDigit_of_isBasicDigit (by simpa [Char.isDigit, Char.le_def] using hbasic)
      obtain ⟨d, hd⟩ := Option.isSome_iff_exists.mp hvalue
      rw [hexDigitValue?, hd]
      rfl
    · rw [hexDigitValue?]
      cases digitValue? c with
      | some => rfl
      | none => exact hletter
  have hgroups : Groups number number := by
    induction number with
    | nil => exact absurd rfl hne
    | cons c rest ih =>
      obtain ⟨hc, hrest⟩ := List.forall_mem_cons.mp h
      cases rest with
      | nil => exact .last (hdigit hc)
      | cons d rest => exact .next (hdigit hc) (ih (List.cons_ne_nil _ _) hrest)
  have hnumeral : Numeral ([] ++ number ++ []) (hexValue number) :=
    .mk (by simp) (.bare (.plain hgroups)) (by simp)
  simpa using hnumeral

theorem HexEscape.accepts_iff (h : HexEscape text letter number k) :
    (∃ decoded m, escape text = .ok (decoded, m)) ↔ ∃ n : Nat, n < 0x110000 ∧ Numeral number n := by
  rw [h.escape_eq]
  constructor
  · rintro ⟨decoded, m, hok⟩
    by_cases hnumeral : ∃ n, Numeral number n
    · obtain ⟨n, hn⟩ := hnumeral
      rw [codePoint_eq hn] at hok
      split at hok
      · cases hok
      · split at hok
        · cases hok
        · exact ⟨n.toNat, by omega, by rwa [Int.toNat_of_nonneg (by omega)]⟩
    · rw [codePoint_of_no_numeral fun n hn => hnumeral ⟨n, hn⟩] at hok
      cases hok
  · rintro ⟨n, hn, hnumeral⟩
    rw [codePoint_eq hnumeral, if_neg (by omega), if_neg (by omega)]
    exact ⟨_, _, rfl⟩

/-- Whether an escape is as its form asks: the text has all its characters, and the number is written in hexadecimal
digits and nothing else and is that of a code point. -/
def IsRegular (text number : List Char) (k : Nat) : Prop :=
  number ≠ [] ∧ (∀ c ∈ number, isHexDigit c = true) ∧ hexValue number < 0x110000 ∧ k ≤ text.length

/-- Just the regular escapes are accepted where only they hold the number of a code point. -/
theorem HexEscape.accepts_regular_iff (h : HexEscape text letter number k) :
    ((∃ decoded m, escape text = .ok (decoded, m)) ↔ IsRegular text number k) ↔
      ∀ n : Nat, n < 0x110000 → Numeral number n → IsRegular text number k := by
  rw [h.accepts_iff]
  constructor
  · exact fun hmeets n hn hnumeral => hmeets.mp ⟨n, hn, hnumeral⟩
  · rintro honly
    constructor
    · rintro ⟨n, hn, hnumeral⟩
      exact honly n hn hnumeral
    · rintro ⟨hne, hdigits, hlt, -⟩
      exact ⟨_, hlt, numeral_of_digits hne hdigits⟩

/-- An accepted escape stands for the code point with its number. -/
theorem HexEscape.accepts (h : HexEscape text letter number k) {n : Nat} (hn : n < 0x110000) (hnumeral : Numeral number n) :
    escape text = .ok ([n], k) := by
  rw [h.escape_eq, codePoint_eq hnumeral, if_neg (by omega), if_neg (by omega), Int.toNat_natCast]
  rfl

theorem HexEscape.length_eq (h : HexEscape text letter number k) {decoded : List Nat} {m : Nat}
    (hok : escape text = .ok (decoded, m)) : m = k := by
  rw [h.escape_eq] at hok
  cases hpoint : codePoint letter number with
  | error flaw =>
    rw [hpoint] at hok
    cases hok
  | ok c =>
    rw [hpoint] at hok
    cases hok
    rfl

/-- An escape without a number, or with one that is no code point's, is invalid; but a number that does not fit into
32 bits is a failure of another kind. -/
theorem HexEscape.invalid_iff (h : HexEscape text letter number k) : escape text = .error (.invalidEscape letter) ↔
    ∀ n, Numeral number n → -0x80000000 ≤ n ∧ n < 0x80000000 ∧ (n < 0 ∨ 0x110000 ≤ n) := by
  rw [h.escape_eq]
  constructor
  · intro hinvalid n hn
    rw [codePoint_eq hn] at hinvalid
    split at hinvalid
    · cases hinvalid
    · split at hinvalid
      · exact ⟨by omega, by omega, by omega⟩
      · cases hinvalid
  · intro hrange
    by_cases hnumeral : ∃ n, Numeral number n
    · obtain ⟨n, hn⟩ := hnumeral
      obtain ⟨hlow, hhigh, hout⟩ := hrange n hn
      rw [codePoint_eq hn, if_neg (by omega), if_pos hout]
      rfl
    · rw [codePoint_of_no_numeral fun n hn => hnumeral ⟨n, hn⟩]
      rfl

theorem HexEscape.huge_iff (h : HexEscape text letter number k) : escape text = .error .hugeEscape ↔
    ∃ n, Numeral number n ∧ (n < -0x80000000 ∨ 0x80000000 ≤ n) := by
  rw [h.escape_eq]
  constructor
  · intro hhuge
    by_cases hnumeral : ∃ n, Numeral number n
    · obtain ⟨n, hn⟩ := hnumeral
      rw [codePoint_eq hn] at hhuge
      split at hhuge
      · exact ⟨n, hn, ‹_›⟩
      · split at hhuge <;> cases hhuge
    · rw [codePoint_of_no_numeral fun n hn => hnumeral ⟨n, hn⟩] at hhuge
      cases hhuge
  · rintro ⟨n, hn, hrange⟩
    rw [codePoint_eq hn, if_pos hrange]
    rfl

end

/-! ### The way of the decoder -/

section

variable {read : String → Except SyntaxError Expr} {location : Location} {limit : Nat} {pending : Option (List Char)}
  {rest : List Char}

theorem parts_plain {c : Char} (hc : c ≠ '\\' ∧ c ≠ '$') : parts read location (limit + 1) pending (c :: rest) =
    parts read location limit (some (c :: pending.getD [])) rest := by
  rw [parts]
  · exact fun h => hc.1 h
  · exact fun _ h => absurd h hc.2
  · exact fun h => hc.2 h

theorem parts_escape {decoded : List Nat} {k : Nat} (hok : escape rest = .ok (decoded, k)) :
    parts read location (limit + 1) pending ('\\' :: rest) =
      parts read location limit (some ((decoded.map Char.ofNat).reverse ++ pending.getD [])) (rest.drop k) := by
  simp only [parts, hok]

theorem parts_code {code : List Char} {x : Expr} (hcode : untilBrace 0 none rest = some code)
    (hread : read (String.ofList code) = .ok x) : parts read location (limit + 1) pending ('$' :: '{' :: rest) =
      (parts read location limit none (rest.drop (code.length + 1))).map (fun more => flush pending ++ .code x :: more) := by
  simp only [parts, hcode, hread]

theorem parts_name {c : Char} (hc : isNameStart c = true) : parts read location (limit + 1) pending ('$' :: c :: rest) =
    (parts read location limit none ((c :: rest).drop (c :: rest.takeWhile isNameRest).length)).map
      (fun more => flush pending ++ .code (.identifier location (String.ofList (c :: rest.takeWhile isNameRest))) :: more) := by
  have hbrace : c ≠ '{' := by
    rintro rfl
    exact absurd hc (by decide)
  rw [parts]
  · simp only [hc, if_true]
  · exact fun _ h => hbrace (List.cons.inj h).1

end

/-- Where the decoder comes to on its way through the inside of a literal. -/
inductive Reaches (read : String → Except SyntaxError Expr) (body : List Char) : List Char → Prop where
  | start : Reaches read body body
  | plain {c rest} (hc : c ≠ '\\' ∧ c ≠ '$') (before : Reaches read body (c :: rest)) : Reaches read body rest
  | escape {rest decoded k} (before : Reaches read body ('\\' :: rest)) (hok : escape rest = .ok (decoded, k)) :
      Reaches read body (rest.drop k)
  | code {rest code x} (before : Reaches read body ('$' :: '{' :: rest)) (hcode : untilBrace 0 none rest = some code)
      (hread : read (String.ofList code) = .ok x) : Reaches read body (rest.drop (code.length + 1))
  | name {c rest} (before : Reaches read body ('$' :: c :: rest)) (hc : isNameStart c = true) :
      Reaches read body ((c :: rest).drop (c :: rest.takeWhile isNameRest).length)

/-- The decoder fails on a text in a certain way, however many steps it has left and whatever has been collected. -/
def Fails (read : String → Except SyntaxError Expr) (location : Location) (text : List Char) (e : SyntaxError) : Prop :=
  ∀ limit pending, text.length ≤ limit → parts read location limit pending text = .error e

/-- A failure that the decoder comes to is one of the whole literal. -/
theorem Reaches.fails {read : String → Except SyntaxError Expr} {location : Location} {body text : List Char}
    {e : SyntaxError} (h : Reaches read body text) (hfails : Fails read location text e) : Fails read location body e := by
  have hmore {limit : Nat} {c : Char} {rest : List Char} (hlimit : (c :: rest).length ≤ limit) :
      ∃ n, limit = n + 1 ∧ ∀ k, (rest.drop k).length ≤ n := by
    rw [List.length_cons] at hlimit
    refine ⟨limit - 1, by omega, fun k => ?_⟩
    rw [List.length_drop]
    omega
  induction h with
  | start => exact hfails
  | plain hc before ih =>
    refine ih fun limit pending hlimit => ?_
    obtain ⟨limit, rfl, hrest⟩ := hmore hlimit
    rw [parts_plain hc]
    exact hfails _ _ (hrest 0)
  | escape before hok ih =>
    refine ih fun limit pending hlimit => ?_
    obtain ⟨limit, rfl, hrest⟩ := hmore hlimit
    rw [parts_escape hok]
    exact hfails _ _ (hrest _)
  | code before hcode hread ih =>
    refine ih fun limit pending hlimit => ?_
    obtain ⟨limit, rfl, hrest⟩ := hmore hlimit
    rw [parts_code hcode hread, hfails _ _ (hrest (_ + 1))]
    rfl
  | name before hc ih =>
    refine ih fun limit pending hlimit => ?_
    obtain ⟨limit, rfl, hrest⟩ := hmore hlimit
    rw [parts_name hc, hfails _ _ (hrest _)]
    rfl

/-- Each hexadecimal escape that the decoder comes to is accepted if and only if it holds the number of a code
point, which it then stands for; it takes as many characters as its form says, even where a literal ends
before them. Any other one makes the literal invalid. The regular escapes are among those accepted, but there are
more: with blanks, signs, marks, underscores, and fewer digits than the form asks for. -/
theorem hexadecimal_escapes_hold_numerals (text : List Char) :
    (∀ letter number k, HexEscape text letter number k →
      ((∃ decoded m, escape text = .ok (decoded, m)) ↔ ∃ n : Nat, n < 0x110000 ∧ Numeral number n) ∧
      (∀ n : Nat, n < 0x110000 → Numeral number n → escape text = .ok ([n], k)) ∧
      (∀ decoded m, escape text = .ok (decoded, m) → m = k) ∧
      (escape text = .error (.invalidEscape letter) ↔
        ∀ n, Numeral number n → -0x80000000 ≤ n ∧ n < 0x80000000 ∧ (n < 0 ∨ 0x110000 ≤ n)) ∧
      (escape text = .error .hugeEscape ↔ ∃ n, Numeral number n ∧ (n < -0x80000000 ∨ 0x80000000 ≤ n)) ∧
      (number ≠ [] → (∀ c ∈ number, isHexDigit c = true) → Numeral number (hexValue number)) ∧
      (((∃ decoded m, escape text = .ok (decoded, m)) ↔ IsRegular text number k) ↔
        ∀ n : Nat, n < 0x110000 → Numeral number n → IsRegular text number k)) ∧
    (∀ rest, text = 'u' :: '{' :: rest → '}' ∉ rest → escape text = .error (.invalidEscape 'u')) ∧
    ∀ read token flaw, token.text.toList.head? ≠ some 'r' →
      Reaches read (inside token.text.toList) ('\\' :: text) → escape text = .error flaw →
        ofToken read token = .error ⟨flaw, some token.position⟩ := by
  refine ⟨fun letter number k h => ⟨h.accepts_iff, fun n hn hnumeral => h.accepts hn hnumeral, fun decoded m hok => h.length_eq hok,
    h.invalid_iff, h.huge_iff, numeral_of_digits, h.accepts_regular_iff⟩, ?_, ?_⟩
  · rintro rest rfl h
    exact escape_unclosed h
  · intro read token flaw hraw hreaches hflaw
    have hfails : Fails read (some token.position) ('\\' :: text) ⟨flaw, some token.position⟩ := by
      rintro (_ | limit) pending hlimit
      · cases hlimit
      · simp only [parts, hflaw]
    unfold ofToken
    split
    · rename_i htext
      exact absurd (by rw [htext]; rfl) hraw
    · exact hreaches.fails hfails _ _ (Nat.le_refl _)

/-- In the literal `'\x4'` one digit is a number, and `ZZ` is none in `'\xZZ'`. -/
theorem hexadecimal_escapes_hold_numerals_short :
    (HexEscape ['x', '4'] 'x' ['4'] 3 ∧ Numeral ['4'] 4 ∧ ¬ IsRegular ['x', '4'] ['4'] 3 ∧
      escape ['x', '4'] = .ok ([4], 3)) ∧
    ∀ read, ofToken read ⟨.string, "'\\xZZ'", .start⟩ = .error ⟨.invalidEscape 'x', some .start⟩ := by
  have hescape : HexEscape ['x', '4'] 'x' ['4'] 3 := .two
  obtain ⟨-, haccepts, -, -, -, hdigits, -⟩ := (hexadecimal_escapes_hold_numerals ['x', '4']).1 _ _ _ hescape
  have hnumeral : Numeral ['4'] 4 := hdigits (by decide) (by decide)
  refine ⟨⟨hescape, hnumeral, fun h => absurd h.2.2.2 (by decide), haccepts 4 (by decide) hnumeral⟩, fun read => ?_⟩
  exact (hexadecimal_escapes_hold_numerals ['x', 'Z', 'Z']).2.2 read ⟨.string, "'\\xZZ'", .start⟩ _ (by decide) .start rfl

/-- The zero of a mark may be of any script. -/
example : escape ['u', '{', '０', 'x', '4', '1', '}'] = .ok ([0x41], 7) := rfl

end Dartlet.Syntax.Quotation
