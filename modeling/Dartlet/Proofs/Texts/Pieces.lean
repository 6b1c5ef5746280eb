import Dartlet.Host.Standard
import Dartlet.Proofs.Texts.Searches

/-!
# Pieces of texts

A text is cut at the occurrences of a part, from left to right and without overlaps. There is one way to do so if the
part is not empty, and both scans find it: the one that collects the pieces, and the one that puts another text where
the part was.
-/

namespace Dartlet

namespace Text

variable {part text before rest kept : List Char} {pieces : List (List Char)}

/-! ### Cutting -/

/-- The pieces of a text that is cut at the first occurrence of a part, and then again after it. -/
inductive CutAt (part : List Char) : List Char → List (List Char) → Prop where
  | last {text : List Char} (none : ∀ i, ¬OccursAt part text i) : CutAt part text [text]
  | next {before rest : List Char} {pieces : List (List Char)}
      (first : IsLeast {i | OccursAt part (before ++ part ++ rest) i} before.length) (more : CutAt part rest pieces) :
      CutAt part (before ++ part ++ rest) (before :: pieces)

/-- The places from `start` on at which a part is found in a text, if the search goes on after what was found. -/
inductive FoundFrom (part text : List Char) : ℕ → List ℕ → Prop where
  | none {start : ℕ} (none : ∀ i, start ≤ i → ¬OccursAt part text i) : FoundFrom part text start []
  | next {start place : ℕ} {places : List ℕ} (first : IsLeast {i | start ≤ i ∧ OccursAt part text i} place)
      (more : FoundFrom part text (place + part.length) places) : FoundFrom part text start (place :: places)

theorem FoundFrom.unique {start : ℕ} {places places' : List ℕ} (h : FoundFrom part text start places)
    (h' : FoundFrom part text start places') : places = places' := by
  induction h generalizing places' with
  | none hnone =>
    cases h' with
    | none _ => rfl
    | next first _ => exact absurd first.1.2 (hnone _ first.1.1)
  | next first _ ih =>
    cases h' with
    | none hnone => exact absurd first.1.2 (hnone _ first.1.1)
    | next first' more =>
      obtain rfl := first.unique first'
      rw [ih more]

/-- Every text can be cut at a part that is not empty, as what comes after an occurrence is shorter. -/
theorem exists_cutAt (hpart : part ≠ []) (text : List Char) : ∃ pieces, CutAt part text pieces := by
  induction hlength : text.length using Nat.strong_induction_on generalizing text with
  | _ length ih =>
    subst hlength
    rcases searches_cases part text with ⟨-, -, hnowhere⟩ | ⟨first, last, -, -, hfirst, -⟩
    · exact ⟨[text], .last hnowhere⟩
    · obtain ⟨before, rest, rfl, rfl⟩ := hfirst.1
      have hshorter : rest.length < (before ++ part ++ rest).length := by
        have hlonger := List.length_pos_iff.mpr hpart
        simp only [List.length_append]
        omega
      obtain ⟨pieces, hpieces⟩ := ih rest.length hshorter rest rfl
      exact ⟨before :: pieces, .next hfirst hpieces⟩

namespace CutAt

variable (h : CutAt part text pieces)
include h

theorem ne_nil : pieces ≠ [] := by
  cases h <;> exact List.cons_ne_nil _ _

/-- The pieces with the part between them are the text. -/
theorem intercalate_eq : part.intercalate pieces = text := by
  induction h with
  | last _ => exact List.intercalate_singleton
  | next _ more ih => rw [List.intercalate_cons_of_ne_nil more.ne_nil, ih, List.append_assoc]

/-- A piece ends before the part occurs, so it does not hold the part, not even in front of what comes after it. -/
theorem not_infix {piece : List Char} (hpiece : piece ∈ pieces) (hpart : part ≠ []) : ¬part <:+: piece := by
  induction h with
  | last none =>
    obtain rfl := List.mem_singleton.mp hpiece
    rw [infix_iff_occursAt]
    exact fun ⟨place, hplace⟩ => none place hplace
  | @next before rest _ first _ ih =>
    rcases List.mem_cons.mp hpiece with rfl | hpiece
    · rintro ⟨front, back, rfl⟩
      have hearlier := first.2 ⟨front, back ++ part ++ rest, by simp only [List.append_assoc], rfl⟩
      have hlonger := List.length_pos_iff.mpr hpart
      simp only [List.length_append] at hearlier
      omega
    · exact ih hpiece

/-- A text is cut once for each place at which the part is found. -/
theorem exists_foundFrom (front : List Char) :
    ∃ places, FoundFrom part (front ++ text) front.length places ∧ pieces.length = places.length + 1 := by
  induction h generalizing front with
  | last none =>
    refine ⟨[], .none fun i hi hoccurs => ?_, rfl⟩
    obtain ⟨place, rfl⟩ := Nat.exists_eq_add_of_le hi
    exact none place (occursAt_append_iff.mp hoccurs)
  | @next before rest pieces first _ ih =>
    obtain ⟨places, hplaces, hcount⟩ := ih (front ++ before ++ part)
    refine ⟨(front.length + before.length) :: places, .next ⟨⟨Nat.le_add_right _ _, ?_⟩, ?_⟩ ?_, ?_⟩
    · exact occursAt_append_iff.mpr first.1
    · rintro i ⟨hi, hoccurs⟩
      obtain ⟨place, rfl⟩ := Nat.exists_eq_add_of_le hi
      exact Nat.add_le_add_left (first.2 (occursAt_append_iff.mp hoccurs)) _
    · simpa only [List.append_assoc, List.length_append, Nat.add_assoc] using hplaces
    · rw [List.length_cons, List.length_cons, hcount]

end CutAt

/-! ### Scanning -/

/-- What the scans of a text for a part that is not empty have in common. A character at which the part does not begin
is kept with those before it. At an occurrence the scan emits what it has kept and restarts, after the characters of the
occurrence have been skipped. -/
structure Scans {α : Type} (part : List Char) (scan : ℕ → List Char → List Char → α) (emit : List Char → α → α)
    (restart : List Char → List Char) : Prop where
  keep : ∀ {kept rest : List Char} {c : Char}, ¬part <+: c :: rest → scan 0 kept (c :: rest) = scan 0 (c :: kept) rest
  found : ∀ {kept rest : List Char} {c : Char}, part <+: c :: rest →
    scan 0 kept (c :: rest) = emit kept (scan (part.length - 1) (restart kept) rest)
  skip : ∀ {count : ℕ} {kept rest : List Char} {c : Char}, scan (count + 1) kept (c :: rest) = scan count kept rest

namespace Scans

variable {α : Type} {scan : ℕ → List Char → List Char → α} {emit : List Char → α → α} {restart : List Char → List Char}
  (h : Scans part scan emit restart)
include h

/-- What stands before the first occurrence is kept. -/
theorem keep_all (hnone : ∀ i < before.length, ¬OccursAt part (before ++ rest) i) :
    scan 0 kept (before ++ rest) = scan 0 (before.reverse ++ kept) rest := by
  induction before generalizing kept with
  | nil => rfl
  | cons c before ih =>
    have hbegins : ¬part <+: c :: (before ++ rest) := fun hprefix =>
      hnone 0 (Nat.zero_lt_succ _) (occursAt_zero_iff.mpr hprefix)
    rw [List.cons_append, h.keep hbegins, ih, List.reverse_cons, List.append_assoc, List.singleton_append]
    exact fun i hi hoccurs => hnone (i + 1) (Nat.succ_lt_succ hi) (occursAt_cons_succ_iff.mpr hoccurs)

theorem skip_all : scan before.length kept (before ++ rest) = scan 0 kept rest := by
  induction before with
  | nil => rfl
  | cons c before ih => rw [List.length_cons, List.cons_append, h.skip, ih]

/-- A text in which the part does not occur is kept as a whole. -/
theorem last (hnone : ∀ i, ¬OccursAt part text i) : scan 0 kept text = scan 0 (text.reverse ++ kept) [] := by
  have hkept : scan 0 kept (text ++ []) = scan 0 (text.reverse ++ kept) [] :=
    h.keep_all fun i _ => (List.append_nil text).symm ▸ hnone i
  rwa [List.append_nil] at hkept

/-- At the first occurrence the scan emits what stands before it and goes on after it. -/
theorem next (hpart : part ≠ []) (hfirst : IsLeast {i | OccursAt part (before ++ part ++ rest) i} before.length) :
    scan 0 kept (before ++ part ++ rest) =
      emit (before.reverse ++ kept) (scan 0 (restart (before.reverse ++ kept)) rest) := by
  rw [List.append_assoc] at hfirst ⊢
  rw [h.keep_all fun i hi hoccurs => absurd (hfirst.2 hoccurs) (Nat.not_le.mpr hi)]
  cases part with
  | nil => exact absurd rfl hpart
  | cons c tail =>
    have hbegins : c :: tail <+: c :: (tail ++ rest) := ⟨rest, rfl⟩
    rw [List.cons_append, h.found hbegins, List.length_cons, Nat.add_sub_cancel, h.skip_all]

end Scans

theorem scans_splitAfter (separator : List Char) :
    Scans separator (splitAfter separator) (fun kept pieces => kept.reverse :: pieces) (fun _ => []) where
  keep hbegins := by rw [splitAfter, if_neg (mt List.isPrefixOf_iff_prefix.mp hbegins)]
  found hbegins := by rw [splitAfter, if_pos (List.isPrefixOf_iff_prefix.mpr hbegins)]
  skip := rfl

theorem scans_replaceAfter (old new : List Char) :
    Scans old (replaceAfter old new) (fun _ replaced => replaced) (fun kept => new.reverse ++ kept) where
  keep hbegins := by rw [replaceAfter, if_neg (mt List.isPrefixOf_iff_prefix.mp hbegins)]
  found hbegins := by rw [replaceAfter, if_pos (List.isPrefixOf_iff_prefix.mpr hbegins)]
  skip := rfl

namespace CutAt

variable (h : CutAt part text pieces) (hpart : part ≠ [])
include h hpart

/-- The scan for a separator collects the pieces. -/
theorem split_eq : split part text = pieces := by
  rw [split, if_neg (mt List.isEmpty_iff.mp hpart)]
  induction h with
  | last hnone => rw [(scans_splitAfter part).last hnone, splitAfter, List.append_nil, List.reverse_reverse]
  | next hfirst _ ih =>
    rw [(scans_splitAfter part).next hpart hfirst, ih, List.append_nil, List.reverse_reverse]

/-- What is put in the place of a part stands between the pieces. -/
theorem replaceAfter_eq (new kept : List Char) :
    replaceAfter part new 0 kept text = kept.reverse ++ new.intercalate pieces := by
  induction h generalizing kept with
  | last hnone =>
    rw [(scans_replaceAfter part new).last hnone, replaceAfter, List.intercalate_singleton, List.reverse_append,
      List.reverse_reverse]
  | next hfirst more ih =>
    rw [(scans_replaceAfter part new).next hpart hfirst, ih, List.intercalate_cons_of_ne_nil more.ne_nil]
    simp only [List.reverse_append, List.reverse_reverse, List.append_assoc]

theorem replaceAll_eq (new : List Char) : replaceAll part new text = new.intercalate pieces := by
  rw [replaceAll, if_neg (mt List.isEmpty_iff.mp hpart), h.replaceAfter_eq hpart, List.reverse_nil, List.nil_append]

end CutAt

theorem intercalate_characters (text : List Char) : List.intercalate [] (text.map fun c => [c]) = text := by
  induction text with
  | nil => rfl
  | cons c rest ih =>
    cases rest with
    | nil => rfl
    | cons d rest =>
      have hmore : (d :: rest).map (fun c => [c]) ≠ [] := List.cons_ne_nil _ _
      rw [List.map_cons, List.intercalate_cons_of_ne_nil hmore, ih, List.append_nil, List.singleton_append]

/-- The pieces with the separator between them are the text, also if the pieces are its characters. -/
theorem intercalate_split (separator text : List Char) : separator.intercalate (split separator text) = text := by
  by_cases hempty : separator = []
  · rw [hempty, split, if_pos List.isEmpty_nil, intercalate_characters]
  · obtain ⟨pieces, hpieces⟩ := exists_cutAt hempty text
    rw [hpieces.split_eq hempty, hpieces.intercalate_eq]

end Text

/-! ### The members -/

open Text (FoundFrom)

section Members

variable [Host]

open Dartlet.Action

variable {e : Engine} {depth : ℕ} {a : Address} {s : Store}

/-- A text is split into a new list. -/
theorem invokeMember_split (hdepth : depth < Host.callLimit) (text separator : String) :
    invokeMember e depth (.string text) "split" [.string separator] s =
      newList ((Text.split separator.toList text.toList).map fun piece => .string (String.ofList piece)).toArray s :=
  invokeMember_of_done (m := .text .split) rfl rfl rfl hdepth rfl

/-- Texts are joined as they are. -/
theorem invokeMember_join {pieces : List (List Char)} (hdepth : depth < Host.callLimit)
    (hlist : s.list a = (pieces.map fun piece => .string (String.ofList piece)).toArray) (glue : String) :
    invokeMember e depth (.list a) "join" [.string glue] s =
      .done (.string (String.ofList (glue.toList.intercalate pieces))) s := by
  refine invokeMember_of_done (m := .sequence .join) rfl rfl rfl hdepth ?_
  have hwritten : textsOf (s.list a).toList s = .done ((s.list a).toList.map (Value.text s)) s :=
    textsOf_eq_done (by simp [hlist])
  change Action.bind (textsOf (s.list a).toList) (fun texts => pure (Value.string (glue.intercalate texts))) s = _
  rw [Action.bind, hwritten]
  have htext (piece : String) : (Value.string piece).text s = piece := by
    rw [Value.text, Value.textWithin]
  have hjoined : glue.intercalate (pieces.map String.ofList) = String.ofList (glue.toList.intercalate pieces) := by
    simp [← String.toList_inj, String.toList_intercalate, Function.comp_def]
  simp only [hlist, List.map_map, Function.comp_def, htext]
  rw [← hjoined]
  rfl

/-- Splitting a text, joining texts and replacing in a text agree. A text is split into a new list of pieces, and the
pieces with the separator between them are the text. If the separator is not empty, no piece contains it, there is one
piece more than there are places at which the separator is found from left to right without overlaps, and putting another
text in the place of the separator is the same as putting it between the pieces. -/
theorem pieces_of_texts_agree (text separator : String) (s : Store) (e : Engine) {depth : ℕ}
    (hdepth : depth < Host.callLimit) :
    let call (receiver : Value) (name : String) (arguments : List Value) : Action Value :=
      invokeMember e depth receiver name arguments
    ∃ (pieces : List String) (made : Value) (t : Store),
      call (.string text) "split" [.string separator] s = .done made t ∧
      newList (pieces.map Value.string).toArray s = .done made t ∧
      call made "join" [.string separator] t = .done (.string text) t ∧
      (separator ≠ "" →
        (∀ piece ∈ pieces, call (.string piece) "contains" [.string separator] t = .done (.bool false) t) ∧
        (∃ places, (∀ others, FoundFrom separator.toList text.toList 0 others ↔ others = places) ∧
          getMember made "length" t = .done (.int (places.length + 1)) t) ∧
        ∀ new, ∃ replaced,
          call (.string text) "replaceAll" [.string separator, .string new] s = .done (.string replaced) s ∧
          call made "join" [.string new] t = .done (.string replaced) t) := by
  intro call
  let cut := Text.split separator.toList text.toList
  let t := (s.addList (cut.map fun piece => Value.string (String.ofList piece)).toArray).2
  have hlist : t.list s.lists.size = (cut.map fun piece => Value.string (String.ofList piece)).toArray := by
    simp [t, Store.list, Store.addList]
  have hjoin := invokeMember_join (e := e) hdepth hlist
  refine ⟨cut.map String.ofList, .list s.lists.size, t, invokeMember_split hdepth text separator, ?made, ?join, ?cut⟩
  case made =>
    rw [List.map_map]
    rfl
  case join =>
    refine (hjoin separator).trans ?_
    rw [Text.intercalate_split, String.ofList_toList]
  case cut =>
    intro hseparator
    have hpart : separator.toList ≠ [] := mt String.toList_eq_nil_iff.mp hseparator
    obtain ⟨pieces, hpieces⟩ := Text.exists_cutAt hpart text.toList
    have hcut : cut = pieces := hpieces.split_eq hpart
    refine ⟨?contains, ?count, ?replaceAll⟩
    case contains =>
      intro piece hpiece
      obtain ⟨characters, hcharacters, rfl⟩ := List.mem_map.mp hpiece
      have hnone : (Text.indexOf? separator.toList characters).isSome = false := by
        rw [← Bool.not_eq_true, Text.indexOf?_isSome_iff]
        exact hpieces.not_infix (hcut ▸ hcharacters) hpart
      have hcontains := invokeMember_contains (e := e) (s := t) hdepth (String.ofList characters) separator
      rwa [String.toList_ofList, hnone] at hcontains
    case count =>
      obtain ⟨places, hplaces, hcount⟩ := hpieces.exists_foundFrom []
      refine ⟨places, fun others => ⟨fun hothers => hothers.unique hplaces, fun hsame => hsame ▸ hplaces⟩, ?_⟩
      have hlength : (t.list s.lists.size).toList.length = places.length + 1 := by
        rw [hlist, List.toList_toArray, List.length_map, hcut, hcount]
      rw [← Nat.cast_succ, Nat.succ_eq_add_one, ← hlength]
      rfl
    case replaceAll =>
      intro new
      refine ⟨_, invokeMember_of_done (m := .text .replaceAll) rfl rfl rfl hdepth rfl, (hjoin new).trans ?_⟩
      rw [hcut, hpieces.replaceAll_eq hpart]

end Members

/-- Of two occurrences that share a character only the first one is cut out, and nothing stands before it. -/
theorem pieces_of_texts_agree_overlapping :
    let call (receiver : Value) (name : String) (arguments : List Value) : Action Value :=
      invokeMember engine 0 receiver name arguments
    0 < Host.callLimit ∧ "aa" ≠ "" ∧ ∃ (t : Store) (places : List ℕ),
      call (.string "aaa") "split" [.string "aa"] {} = .done (.list 0) t ∧
      call (.list 0) "join" [.string "aa"] t = .done (.string "aaa") t ∧
      (∀ others, FoundFrom "aa".toList "aaa".toList 0 others ↔ others = places) ∧ places.length = 1 ∧
      call (.string "aaa") "replaceAll" [.string "aa", .string "b"] {} = .done (.string "ba") {} ∧
      call (.list 0) "join" [.string "b"] t = .done (.string "ba") t := by
  intro call
  have hdepth : 0 < Host.callLimit := by decide
  have hseparator : "aa" ≠ "" := by decide
  obtain ⟨pieces, made, t, hsplit, -, hjoin, hmore⟩ := pieces_of_texts_agree "aaa" "aa" {} engine hdepth
  obtain ⟨-, ⟨places, hplaces, hlength⟩, hreplace⟩ := hmore hseparator
  obtain ⟨replaced, hreplaced, hjoined⟩ := hreplace "b"
  have hmade : call (.string "aaa") "split" [.string "aa"] {} =
      .done (.list 0) { lists := #[#[.string "", .string "a"]] } := rfl
  have hnew : call (.string "aaa") "replaceAll" [.string "aa", .string "b"] {} = .done (.string "ba") {} := rfl
  cases hsplit.symm.trans hmade
  cases hreplaced.symm.trans hnew
  have hcount : places.length = 1 := by
    have htwo : getMember (.list 0) "length" { lists := #[#[.string "", .string "a"]] } =
        .done (.int 2) { lists := #[#[.string "", .string "a"]] } := rfl
    have hint := Value.int.inj (Outcome.done.inj (hlength.symm.trans htwo)).1
    omega
  exact ⟨hdepth, hseparator, _, places, hsplit, hjoin, hplaces, hcount, hnew, hjoined⟩

end Dartlet
