import Dartlet.Host.Standard
import Dartlet.Proofs.Evaluation.Invocations
import Mathlib.Algebra.Order.Ring.Int
import Mathlib.Data.Nat.Cast.Order.Basic
import Mathlib.Order.Bounds.Image

/-!
# Searches in texts

A part occurs in a text at a place if so many characters of the text stand before it there. The members of texts that
search for a part scan the text in different directions and compare in different ways, and all of them are told by the
places at which the part occurs. These are the places at which the stretch of the text that is as long as the part is
the part itself.
-/

namespace Dartlet

set_option linter.unusedSectionVars false

namespace Text

variable {part text rest before : List Char} {c : Char} {place : ℕ}

/-- Where a part occurs in a text: so many characters of the text stand before it. -/
def OccursAt (part text : List Char) (place : ℕ) : Prop :=
  ∃ before after, before ++ part ++ after = text ∧ before.length = place

theorem occursAt_zero_iff : OccursAt part text 0 ↔ part <+: text := by
  constructor
  · rintro ⟨before, after, htext, hbefore⟩
    obtain rfl := List.length_eq_zero_iff.mp hbefore
    exact ⟨after, htext⟩
  · rintro ⟨after, htext⟩
    exact ⟨[], after, htext, rfl⟩

theorem occursAt_nil_iff : OccursAt part [] place ↔ part = [] ∧ place = 0 := by
  constructor
  · rintro ⟨before, after, htext, rfl⟩
    simp only [List.append_eq_nil_iff] at htext
    obtain ⟨⟨rfl, rfl⟩, -⟩ := htext
    exact ⟨rfl, rfl⟩
  · rintro ⟨rfl, rfl⟩
    exact ⟨[], [], rfl, rfl⟩

/-- With more text before it, a part occurs later by as much. -/
theorem occursAt_append_iff : OccursAt part (before ++ text) (before.length + place) ↔ OccursAt part text place := by
  constructor
  · rintro ⟨before', after, htext, hlength⟩
    have hwhole : before <+: before ++ text := ⟨text, rfl⟩
    have hwhole' : before' <+: before ++ text := ⟨part ++ after, by rw [← htext, List.append_assoc]⟩
    have hbefore : before <+: before' := List.prefix_of_prefix_length_le hwhole hwhole' (by omega)
    obtain ⟨more, rfl⟩ := hbefore
    refine ⟨more, after, ?_, by simpa using hlength⟩
    simpa only [List.append_assoc, List.append_cancel_left_eq] using htext
  · rintro ⟨before', after, rfl, rfl⟩
    exact ⟨before ++ before', after, by simp only [List.append_assoc], List.length_append⟩

theorem occursAt_cons_succ_iff : OccursAt part (c :: rest) (place + 1) ↔ OccursAt part rest place := by
  rw [Nat.add_comm]
  exact @occursAt_append_iff part rest [c] place

/-- A part occurs where the stretch of the text that is as long as the part is the part. -/
theorem occursAt_iff_take : OccursAt part text place ↔
    place + part.length ≤ text.length ∧ (text.take (place + part.length)).drop place = part := by
  constructor
  · rintro ⟨before, after, rfl, rfl⟩
    refine ⟨by simp only [List.length_append]; omega, ?_⟩
    rw [← List.length_append, List.take_left, List.drop_left]
  · rintro ⟨hlength, hpart⟩
    refine ⟨text.take place, text.drop (place + part.length), ?_, List.length_take_of_le (by omega)⟩
    have hplace : (text.take (place + part.length)).take place = text.take place := by
      rw [List.take_take, Nat.min_eq_left (Nat.le_add_right _ _)]
    conv_rhs => rw [← List.take_append_drop (place + part.length) text,
      ← List.take_append_drop place (text.take (place + part.length)), hpart, hplace]

theorem occursAt_end_iff :
    part <:+ text ↔ part.length ≤ text.length ∧ OccursAt part text (text.length - part.length) := by
  constructor
  · rintro ⟨before, rfl⟩
    exact ⟨by simp, before, [], by simp, by simp⟩
  · rintro ⟨hlength, before, after, htext, hbefore⟩
    have hafter : after = [] := by
      have hsum := congrArg List.length htext
      simp only [List.length_append] at hsum
      exact List.length_eq_zero_iff.mp (by omega)
    exact ⟨before, by simpa only [hafter, List.append_nil] using htext⟩

theorem infix_iff_occursAt : part <:+: text ↔ ∃ place, OccursAt part text place :=
  ⟨fun ⟨before, after, htext⟩ => ⟨_, before, after, htext, rfl⟩,
    fun ⟨_, before, after, htext, _⟩ => ⟨before, after, htext⟩⟩

/-- The place that is searched for from the beginning is the first one. -/
theorem indexOf?_spec (part text : List Char) :
    match indexOf? part text with
    | some place => IsLeast {i | OccursAt part text i} place
    | none => ∀ i, ¬OccursAt part text i := by
  induction text with
  | nil =>
    cases part with
    | nil => exact ⟨occursAt_nil_iff.mpr ⟨rfl, rfl⟩, fun i _ => Nat.zero_le i⟩
    | cons c rest => exact fun i h => nomatch (occursAt_nil_iff.mp h).1
  | cons c rest ih =>
    rw [indexOf?]
    by_cases hbegins : part.isPrefixOf (c :: rest) = true
    · rw [if_pos hbegins]
      exact ⟨occursAt_zero_iff.mpr (List.isPrefixOf_iff_prefix.mp hbegins), fun i _ => Nat.zero_le i⟩
    · rw [if_neg hbegins]
      have hzero : ¬OccursAt part (c :: rest) 0 := fun h =>
        hbegins (List.isPrefixOf_iff_prefix.mpr (occursAt_zero_iff.mp h))
      cases hrest : indexOf? part rest with
      | none =>
        rw [hrest] at ih
        intro i hi
        cases i with
        | zero => exact hzero hi
        | succ i => exact ih i (occursAt_cons_succ_iff.mp hi)
      | some place =>
        rw [hrest] at ih
        refine ⟨occursAt_cons_succ_iff.mpr ih.1, fun i hi => ?_⟩
        cases i with
        | zero => exact absurd hi hzero
        | succ i => exact Nat.succ_le_succ (ih.2 (occursAt_cons_succ_iff.mp hi))

/-- The place that is searched for from the end is the last one. -/
theorem lastIndexOf?_spec (part text : List Char) :
    match lastIndexOf? part text with
    | some place => IsGreatest {i | OccursAt part text i} place
    | none => ∀ i, ¬OccursAt part text i := by
  induction text with
  | nil =>
    cases part with
    | nil => exact ⟨occursAt_nil_iff.mpr ⟨rfl, rfl⟩, fun i hi => Nat.le_of_eq (occursAt_nil_iff.mp hi).2⟩
    | cons c rest => exact fun i h => nomatch (occursAt_nil_iff.mp h).1
  | cons c rest ih =>
    rw [lastIndexOf?]
    cases hrest : lastIndexOf? part rest with
    | some place =>
      rw [hrest] at ih
      refine ⟨occursAt_cons_succ_iff.mpr ih.1, fun i hi => ?_⟩
      cases i with
      | zero => exact Nat.zero_le _
      | succ i => exact Nat.succ_le_succ (ih.2 (occursAt_cons_succ_iff.mp hi))
    | none =>
      rw [hrest] at ih
      -- after the first character the part does not occur
      have hsucc (i : ℕ) : ¬OccursAt part (c :: rest) (i + 1) := fun h => ih i (occursAt_cons_succ_iff.mp h)
      by_cases hbegins : part.isPrefixOf (c :: rest) = true
      · rw [if_pos hbegins]
        refine ⟨occursAt_zero_iff.mpr (List.isPrefixOf_iff_prefix.mp hbegins), fun i hi => ?_⟩
        cases i with
        | zero => exact Nat.le_refl 0
        | succ i => exact absurd hi (hsucc i)
      · rw [if_neg hbegins]
        intro i hi
        cases i with
        | zero => exact hbegins (List.isPrefixOf_iff_prefix.mpr (occursAt_zero_iff.mp hi))
        | succ i => exact hsucc i hi

/-- Both searches find a place if there is one. -/
theorem searches_cases (part text : List Char) :
    (indexOf? part text = none ∧ lastIndexOf? part text = none ∧ ∀ i, ¬OccursAt part text i) ∨
      ∃ first last, indexOf? part text = some first ∧ lastIndexOf? part text = some last ∧
        IsLeast {i | OccursAt part text i} first ∧ IsGreatest {i | OccursAt part text i} last := by
  have hfirst := indexOf?_spec part text
  have hlast := lastIndexOf?_spec part text
  cases hi : indexOf? part text with
  | none =>
    rw [hi] at hfirst
    cases hl : lastIndexOf? part text with
    | none => exact .inl ⟨rfl, rfl, hfirst⟩
    | some last =>
      rw [hl] at hlast
      exact absurd hlast.1 (hfirst last)
  | some first =>
    rw [hi] at hfirst
    cases hl : lastIndexOf? part text with
    | none =>
      rw [hl] at hlast
      exact absurd hfirst.1 (hlast first)
    | some last =>
      rw [hl] at hlast
      exact .inr ⟨first, last, rfl, rfl, hfirst, hlast⟩

theorem indexOf?_isSome_iff : (indexOf? part text).isSome = true ↔ part <:+: text := by
  rw [infix_iff_occursAt]
  rcases searches_cases part text with ⟨hnone, -, hnowhere⟩ | ⟨first, last, hsome, -, hfirst, -⟩
  · rw [hnone]
    exact ⟨nofun, fun ⟨place, hplace⟩ => absurd hplace (hnowhere place)⟩
  · rw [hsome]
    exact ⟨fun _ => ⟨first, hfirst.1⟩, fun _ => rfl⟩

/-- A part occurs first at the beginning of a text if the text begins with it. -/
theorem prefix_iff_of_isLeast (h : IsLeast {i | OccursAt part text i} place) : part <+: text ↔ place = 0 := by
  rw [← occursAt_zero_iff]
  constructor
  · intro hzero
    exact Nat.le_zero.mp (h.2 hzero)
  · rintro rfl
    exact h.1

/-- A part occurs last at the end of a text if the text ends with it. -/
theorem suffix_iff_of_isGreatest (h : IsGreatest {i | OccursAt part text i} place) :
    part <:+ text ↔ place + part.length = text.length := by
  rw [occursAt_end_iff]
  have hplace := (occursAt_iff_take.mp h.1).1
  constructor
  · rintro ⟨hlength, hend⟩
    have hlast := h.2 hend
    omega
  · intro hend
    refine ⟨by omega, ?_⟩
    rw [← hend, Nat.add_sub_cancel]
    exact h.1

end Text

/-! ### The members -/

section Members

variable [Host]

open Dartlet.Action
open Text (OccursAt)

variable {e : Engine} {depth : ℕ} {text part : String} {s t : Store}

theorem checkRange_eq_done_iff {length : ℕ} {start stop : ℤ} {range : ℕ × ℕ} :
    checkRange length start stop s = .done range t ↔
      (0 ≤ start ∧ start ≤ stop ∧ stop ≤ length) ∧ range = (start.toNat, stop.toNat) ∧ t = s := by
  unfold checkRange
  simp only [Bool.not_eq_true', Bool.and_eq_false_iff, decide_eq_false_iff_not]
  split_ifs with hstart hstop
  · exact ⟨nofun, fun h => by omega⟩
  · exact ⟨nofun, fun h => by omega⟩
  · have hwithin : 0 ≤ start ∧ start ≤ stop ∧ stop ≤ length := by omega
    rw [and_iff_right hwithin]
    exact ⟨fun h => (Outcome.done.inj h).imp Eq.symm Eq.symm, fun ⟨hrange, hsame⟩ => hrange ▸ hsame ▸ rfl⟩

/-- The stretch that is as long as a part is the part at the places at which the part occurs, and nowhere else. -/
theorem substring_eq_part_iff (hdepth : depth < Host.callLimit) {i : ℤ} :
    invokeMember e depth (.string text) "substring" [.int i, .int (i + part.length)] s = .done (.string part) s ↔
      ∃ place : ℕ, OccursAt part.toList text.toList place ∧ (place : ℤ) = i := by
  rw [invokeMember_run (m := .text .substring) rfl rfl rfl hdepth, delegate_apply, Outcome.delegated_eq_done_iff]
  change (checkRange text.length i (i + part.length) >>= fun range =>
    pure (Value.string (String.ofList ((text.toList.take range.2).drop range.1)))) s = _ ↔ _
  simp only [bind_eq_done_iff, checkRange_eq_done_iff, Text.occursAt_iff_take, String.length_toList]
  have hstop (place : ℕ) : ((place : ℤ) + part.length).toNat = place + part.length := by omega
  constructor
  · rintro ⟨range, u, ⟨⟨hlow, hmiddle, hhigh⟩, rfl, rfl⟩, hpart⟩
    obtain ⟨place, rfl⟩ := Int.eq_ofNat_of_zero_le hlow
    have hstretch := congrArg String.toList (Value.string.inj (Outcome.done.inj hpart).1)
    rw [String.toList_ofList, hstop, Int.toNat_natCast] at hstretch
    exact ⟨place, ⟨by omega, hstretch⟩, rfl⟩
  · rintro ⟨place, ⟨hlength, hstretch⟩, rfl⟩
    refine ⟨_, s, ⟨by omega, rfl, rfl⟩, ?_⟩
    simp only [hstop, Int.toNat_natCast, hstretch, String.ofList_toList]
    rfl

theorem invokeMember_contains (hdepth : depth < Host.callLimit) (text part : String) :
    invokeMember e depth (.string text) "contains" [.string part] s =
      .done (.bool (Text.indexOf? part.toList text.toList).isSome) s :=
  invokeMember_of_done (m := .text .contains) rfl rfl rfl hdepth rfl

/-- A place, as programs see it. -/
theorem place_eq (found : Option ℕ) : TextMethod.place found = .int ((found.map Nat.cast).getD (-1)) := by
  cases found <;> rfl

/-- The members of texts that search for a part agree with each other and with the stretches of the text. The places are
those at which the stretch that is as long as the part can be taken and is the part. If there are any, the text contains
the part, and the part is found first at the least and last at the greatest of them; if there are none, it does not, and
both searches yield -1. The text begins with the part if it is found first at the beginning, and ends with it if it is
found last at the end. -/
theorem text_searches_agree (text part : String) (s : Store) (e : Engine) {depth : ℕ} (hdepth : depth < Host.callLimit) :
    let call (name : String) (arguments : List Value) : Outcome Value :=
      invokeMember e depth (.string text) name arguments s
    let places : Set ℤ := {i | call "substring" [.int i, .int (i + part.length)] = .done (.string part) s}
    getMember (.string text) "length" s = .done (.int text.length) s ∧
      getMember (.string part) "length" s = .done (.int part.length) s ∧
      ∃ (held begins ends : Bool) (first last : ℤ),
        call "contains" [.string part] = .done (.bool held) s ∧
        call "startsWith" [.string part] = .done (.bool begins) s ∧
        call "endsWith" [.string part] = .done (.bool ends) s ∧
        call "indexOf" [.string part] = .done (.int first) s ∧
        call "lastIndexOf" [.string part] = .done (.int last) s ∧
        (held = true ↔ first ≠ -1) ∧ (held = true ↔ last ≠ -1) ∧
        (held = true → IsLeast places first ∧ IsGreatest places last) ∧
        (held = false → places = ∅) ∧
        (begins = true ↔ first = 0) ∧
        (ends = true ↔ last = text.length - part.length ∧ (0 : ℤ) ≤ text.length - part.length) := by
  intro call places
  have hplaces : places = (fun place : ℕ => (place : ℤ)) '' {i | OccursAt part.toList text.toList i} :=
    Set.ext fun i => substring_eq_part_iff hdepth
  have hbegins := @List.isPrefixOf_iff_prefix _ _ _ part.toList text.toList
  have hends := @List.isSuffixOf_iff_suffix _ _ _ part.toList text.toList
  refine ⟨rfl, rfl, (Text.indexOf? part.toList text.toList).isSome, part.toList.isPrefixOf text.toList,
    part.toList.isSuffixOf text.toList, ((Text.indexOf? part.toList text.toList).map Nat.cast).getD (-1),
    ((Text.lastIndexOf? part.toList text.toList).map Nat.cast).getD (-1), ?contains, ?startsWith, ?endsWith, ?indexOf,
    ?lastIndexOf, ?agree⟩
  case contains => exact invokeMember_contains hdepth text part
  case startsWith => exact invokeMember_of_done (m := .text .startsWith) rfl rfl rfl hdepth rfl
  case endsWith => exact invokeMember_of_done (m := .text .endsWith) rfl rfl rfl hdepth rfl
  case indexOf =>
    rw [← place_eq]
    exact invokeMember_of_done (m := .text .indexOf) rfl rfl rfl hdepth rfl
  case lastIndexOf =>
    rw [← place_eq]
    exact invokeMember_of_done (m := .text .lastIndexOf) rfl rfl rfl hdepth rfl
  case agree =>
    rw [hbegins, hends, hplaces, ← String.length_toList, ← String.length_toList]
    rcases Text.searches_cases part.toList text.toList with
      ⟨hnone, hnone', hnowhere⟩ | ⟨first, last, hsome, hsome', hfirst, hlast⟩
    · rw [hnone, hnone']
      refine ⟨by simp, by simp, by simp, fun _ => ?_, ?_, ?_⟩
      · exact Set.eq_empty_iff_forall_notMem.mpr fun i ⟨place, hplace, _⟩ => hnowhere place hplace
      · rw [← Text.occursAt_zero_iff]
        simp [hnowhere 0]
      · rw [Text.occursAt_end_iff]
        simp only [hnowhere, and_false, false_iff, Option.map_none, Option.getD_none]
        omega
    · rw [hsome, hsome']
      simp only [Option.isSome_some, Option.map_some, Option.getD_some]
      have hfound (place : ℕ) : (place : ℤ) ≠ -1 := by omega
      refine ⟨iff_of_true trivial (hfound first), iff_of_true trivial (hfound last), fun _ => ⟨?_, ?_⟩, nofun, ?_, ?_⟩
      · exact Nat.mono_cast.map_isLeast hfirst
      · exact Nat.mono_cast.map_isGreatest hlast
      · rw [Text.prefix_iff_of_isLeast hfirst]
        omega
      · rw [Text.suffix_iff_of_isGreatest hlast]
        omega

end Members

/-- Two occurrences of a part share a character, and they are the first and the last one. -/
theorem text_searches_agree_overlapping :
    let call (name : String) (arguments : List Value) : Outcome Value :=
      invokeMember engine 0 (.string "aaa") name arguments {}
    let places : Set ℤ := {i | call "substring" [.int i, .int (i + "aa".length)] = .done (.string "aa") {}}
    0 < Host.callLimit ∧ call "indexOf" [.string "aa"] = .done (.int 0) {} ∧
      call "lastIndexOf" [.string "aa"] = .done (.int 1) {} ∧ IsLeast places 0 ∧ IsGreatest places 1 := by
  intro call places
  have hdepth : 0 < Host.callLimit := by decide
  obtain ⟨-, -, held, begins, ends, first, last, hcontains, -, -, hfirst, hlast, -, -, hplaces, -⟩ :=
    text_searches_agree "aaa" "aa" {} engine hdepth
  have hheld : call "contains" [.string "aa"] = .done (.bool true) {} := rfl
  have hzero : call "indexOf" [.string "aa"] = .done (.int 0) {} := rfl
  have hone : call "lastIndexOf" [.string "aa"] = .done (.int 1) {} := rfl
  cases hcontains.symm.trans hheld
  cases hfirst.symm.trans hzero
  cases hlast.symm.trans hone
  exact ⟨hdepth, hzero, hone, hplaces rfl⟩

end Dartlet
