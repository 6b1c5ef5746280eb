import Dartlet.Proofs.Parallel.Changes
import Dartlet.Proofs.Parallel.Values

/-!
# Reading parallel stores

What a program finds out about its store is the same in two parallel stores: the contents of
collections, the names in scope, the texts of values, and what the host is handed.
-/

namespace Dartlet.Comparison

variable {w : Comparison} {K : Value → Prop} {s t : Store}

/-! ### Collections -/

namespace Tables

theorem list (h : w.Tables K s t) (a : Nat) : w.Arrays K (s.list a) (t.list (w.shifts.list.apply a)) :=
  h.lists.getD a ⟨rfl, nofun⟩

theorem iterable (h : w.Tables K s t) (a : Nat) :
    w.Values K (s.iterable a) (t.iterable (w.shifts.iterable.apply a)) :=
  h.iterables.getD a ⟨rfl, nofun⟩

theorem set (h : w.Tables K s t) (a : Nat) : w.Values K (s.set a) (t.set (w.shifts.set.apply a)) :=
  h.sets.getD a ⟨rfl, nofun⟩

theorem map (h : w.Tables K s t) (a : Nat) : w.Pairs K (s.map a) (t.map (w.shifts.map.apply a)) :=
  h.maps.getD a ⟨rfl, List.forall_mem_nil _⟩

end Tables

theorem Arrays.toArray {xs ys : Array Value} (h : w.Arrays K xs ys) : ys = xs.map (Value.shift w.shifts) := by
  apply Array.toList_inj.mp
  rw [Array.toList_map]
  exact h.same

/-! ### Errors and objects -/

theorem Attributes.find? {xs ys : List (String × HostValue)} (h : w.Attributes K xs ys) (name : String) :
    tableFind? ys name = (tableFind? xs name).map (HostValue.shift w.shifts) := by
  rw [h.same]
  exact tableFind?_map (HostValue.shift w.shifts) xs name

theorem Attributes.getD {xs ys : List (String × HostValue)} (h : w.Attributes K xs ys) (name : String) :
    (tableFind? ys name).getD .none = ((tableFind? xs name).getD .none).shift w.shifts := by
  rw [h.find?]
  cases tableFind? xs name <;> rfl

theorem Attributes.find?_known {xs ys : List (String × HostValue)} (h : w.Attributes K xs ys) {name : String}
    {x : HostValue} (hx : tableFind? xs name = some x) : x.Known K := by
  obtain ⟨e, he, rfl⟩ := tableFind?_mem hx
  exact h.known e he

theorem find?_visible {name : String} (hname : name ≠ noteName) (xs : List (String × HostValue)) :
    tableFind? (w.visible xs) name = tableFind? xs name := by
  have hfind : (w.visible xs).find? (fun b => b.1 == name) = xs.find? (fun b => b.1 == name) := by
    rw [visible, List.find?_filter]
    congr 1
    funext b
    by_cases hb : b.1 = name
    · simp [hb, hname]
    · simp [hb]
  rw [tableFind?, hfind, tableFind?]

theorem RecordsAlike.find? {e e' : ErrorRecord} (h : w.RecordsAlike K e e') {name : String} (hname : name ≠ noteName) :
    tableFind? e'.assigned name = (tableFind? e.assigned name).map (HostValue.shift w.shifts) := by
  rw [← find?_visible hname (w := w), h.assigned.find?, find?_visible hname]

theorem RecordsAlike.find?_known {e e' : ErrorRecord} (h : w.RecordsAlike K e e') {name : String}
    (hname : name ≠ noteName) {x : HostValue} (hx : tableFind? e.assigned name = some x) : x.Known K := by
  rw [← find?_visible hname (w := w)] at hx
  exact h.assigned.find?_known hx

theorem RecordsAlike.hook? {e e' : ErrorRecord} (h : w.RecordsAlike K e e') :
    e'.hook? = e.hook?.map (HostValue.shift w.shifts) :=
  h.find? (by decide)

/-- Names that programs can reach are not that of the notes. -/
theorem ne_noteName {name : String} (hname : Attribute.isPublic name = true) : name ≠ noteName := by
  rintro rfl
  simp [Attribute.isPublic, noteName] at hname

namespace Tables

theorem fault (h : w.Tables K s t) (a : Nat) : t.fault (w.shifts.error.apply a) = (s.fault a).shift w.shifts := by
  unfold Store.fault
  cases he : s.errors[a]? with
  | none => rw [h.errors.missing he]; rfl
  | some e =>
    obtain ⟨e', he', hee'⟩ := h.errors.entry a e he
    rw [he']
    exact hee'.fault

/-- Corresponding errors have corresponding data in the place of the method that is told places. -/
theorem hook? (h : w.Tables K s t) (a : Nat) :
    t.hook? (w.shifts.error.apply a) = (s.hook? a).map (HostValue.shift w.shifts) := by
  unfold Store.hook?
  cases he : s.errors[a]? with
  | none =>
    rw [h.errors.missing he]
    rfl
  | some e =>
    obtain ⟨e', he', hee'⟩ := h.errors.entry a e he
    rw [he']
    exact hee'.hook?

theorem hook?_known (h : w.Tables K s t) {a : Nat} {x : HostValue} (hx : s.hook? a = some x) : x.Known K := by
  obtain ⟨e, he, hhook⟩ := Option.bind_eq_some_iff.mp hx
  obtain ⟨e', -, hee'⟩ := h.errors.entry a e he
  exact hee'.find?_known (by decide) hhook

/-- Where places are noted, nothing is in the place of the method that is told them. -/
theorem unhooked (h : w.Tables K s t) (hw : w.placed = true) (a : Nat) : s.hook? a = none := by
  refine Option.bind_eq_none_iff.mpr fun e he => ?_
  obtain ⟨e', -, hee'⟩ := h.errors.entry a e he
  exact hee'.unhooked hw

theorem unhooked_right (h : w.Tables K s t) (hw : w.placed = true) (a : Nat) :
    t.hook? (w.shifts.error.apply a) = none := by
  rw [h.hook?, h.unhooked hw]
  rfl

theorem errorMessage (h : w.Tables K s t) (a : Nat) : t.errorMessage (w.shifts.error.apply a) = s.errorMessage a := by
  unfold Store.errorMessage
  cases he : s.errors[a]? with
  | none => rw [h.errors.missing he]
  | some e =>
    obtain ⟨e', he', hee'⟩ := h.errors.entry a e he
    have hargs : "args" ≠ noteName := by decide
    simp only [he', hee'.find? hargs, hee'.fault, Fault.text_shift]
    have hwrite := HostValue.write_shift w.shifts (f := fun _ => "") (g := fun _ => "") (fun _ => rfl)
    have hwriteAll := HostValue.writeAll_shift w.shifts (f := fun _ => "") (g := fun _ => "") (fun _ => rfl)
    cases tableFind? e.assigned "args" with
    | none => rfl
    | some x =>
      cases x with
      | list items =>
        match items with
        | [] => rfl
        | [only] => exact hwrite false only
        | x :: y :: rest =>
          have hall := hwriteAll (x :: y :: rest)
          simp only [shiftAll] at hall
          simp only [Option.map_some, HostValue.shift, shiftAll, hall]
      | _ => rfl

theorem className (h : w.Tables K s t) (a : Nat) : t.className (w.shifts.object.apply a) = s.className a := by
  unfold Store.className
  cases ho : s.objects[a]? with
  | none => rw [h.objects.missing ho]
  | some o =>
    obtain ⟨o', ho', hoo'⟩ := h.objects.entry a o ho
    simp only [ho', hoo'.kind]

theorem objectText (h : w.Tables K s t) (limit a : Nat) :
    t.objectText limit (w.shifts.object.apply a) = s.objectText limit a := by
  induction limit generalizing a with
  | zero =>
    unfold Store.objectText
    rw [h.className]
  | succ limit ih =>
    unfold Store.objectText
    cases ho : s.objects[a]? with
    | none => simp only [h.objects.missing ho, h.className]
    | some o =>
      obtain ⟨o', ho', hoo'⟩ := h.objects.entry a o ho
      obtain ⟨kind, attributes⟩ := o
      obtain ⟨kind', attributes'⟩ := o'
      obtain rfl : kind' = kind := hoo'.kind
      rw [ho']
      cases kind' with
      | point =>
        have hattributes : w.Attributes K attributes attributes' := hoo'.attributes
        have hget := hattributes.getD
        simp only [hget]
        refine congrArg₂ (fun x y => "Point(" ++ x ++ ", " ++ y ++ ")") (HostValue.write_shift w.shifts (fun v => ?_) false _)
          (HostValue.write_shift w.shifts (fun v => ?_) false _) <;>
          cases v <;> simp [Value.shift, ih, h.errorMessage]
      | _ => simp only [h.className]

/-- Objects are shown the same with the limits that belong to the two stores. -/
theorem objectText_full (h : w.Tables K s t) (a : Nat) :
    t.objectText (t.objects.size + 1) (w.shifts.object.apply a) = s.objectText (s.objects.size + 1) a := by
  cases hobjects : w.objects with
  | true =>
    have hsize : t.objects.size = s.objects.size := by
      rw [h.objects.size, (h.sameObjects hobjects).1, Nat.add_zero]
    rw [hsize, h.objectText]
  | false =>
    rw [h.objectText]
    have hnone : s.objects[a]? = none := by simp [h.noObjects hobjects]
    unfold Store.objectText
    simp only [hnone]

theorem typeName (h : w.Tables K s t) (v : Value) : (v.shift w.shifts).typeName t = v.typeName s := by
  cases v with
  | error a => simp only [Value.shift, Value.typeName, h.fault, Fault.kind_shift]
  | object a => simp only [Value.shift, Value.typeName, h.className]
  | _ => rfl

theorem kindName (h : w.Tables K s t) (x : HostValue) : (x.shift w.shifts).kindName t = x.kindName s := by
  cases x with
  | value v => exact h.typeName v
  | _ => rfl

theorem closureText (h : w.Tables K s t) (a : Nat) :
    Value.closureText t (w.shifts.closure.apply a) = Value.closureText s a := by
  unfold Value.closureText
  cases hf : s.closures[a]? with
  | none => rw [h.closures.missing hf]
  | some f =>
    obtain ⟨g, hg, hfg⟩ := h.closures.entry a f hf
    rw [hg, hfg.same]

theorem nativeName (h : w.Tables K s t) (a : Nat) :
    Value.nativeName t (w.shifts.native.apply a) = Value.nativeName s a := by
  unfold Value.nativeName
  cases hf : s.natives[a]? with
  | none => rw [h.natives.missing hf]
  | some f =>
    obtain ⟨g, hg, hfg⟩ := h.natives.entry a f hf
    rw [hg, hfg.same]

end Tables

/-! ### Texts -/

/-- A collection at its new address. -/
def shiftMarker (σ : Shifts) : Value.Marker → Value.Marker
  | .list a => .list (σ.list.apply a)
  | .iterable a => .iterable (σ.iterable.apply a)
  | .set a => .set (σ.set.apply a)
  | .map a => .map (σ.map.apply a)

theorem marker?_shift {σ : Shifts} (v : Value) : (v.shift σ).marker? = v.marker?.map (shiftMarker σ) := by
  cases v <;> rfl

theorem shiftMarker_inj (σ : Shifts) {k l : Value.Marker} (h : shiftMarker σ k = shiftMarker σ l) : k = l := by
  cases k <;> cases l <;> simp_all [shiftMarker, Shift.apply_inj]

theorem shiftMarker_mem (σ : Shifts) (k : Value.Marker) (shown : List Value.Marker) :
    shiftMarker σ k ∈ shown.map (shiftMarker σ) ↔ k ∈ shown := by
  refine ⟨fun h => ?_, List.mem_map_of_mem⟩
  obtain ⟨l, hl, heq⟩ := List.mem_map.mp h
  exact shiftMarker_inj σ heq ▸ hl

namespace Tables

theorem elements (h : w.Tables K s t) (m : Value.Marker) :
    (shiftMarker w.shifts m).elements t = (m.elements s).map (Value.shift w.shifts) := by
  cases m with
  | list a => exact (h.list a).same
  | iterable a => exact (h.iterable a).same
  | set a => exact (h.set a).same
  | map a =>
    simp only [shiftMarker, Value.Marker.elements, (h.map a).same, List.flatMap_map, List.map_flatMap]
    rfl

/-- What goes through the parts of a value comes to the same for the value and its counterpart, if it does for what is
no collection and treats corresponding collections alike. -/
theorem goesThrough (h : w.Tables K s t) {β : Type} {whole : List Value.Marker → Value.Marker → List β → β}
    {F G : ℕ → List Value.Marker → Value → β} (hF : Value.GoesThrough s whole F) (hG : Value.GoesThrough t whole G)
    (hwhole : ∀ path m rs, whole (path.map (shiftMarker w.shifts)) (shiftMarker w.shifts m) rs = whole path m rs)
    (hplain : ∀ v : Value, v.marker? = none → ∀ limit path path', G limit path' (v.shift w.shifts) = F limit path v)
    (hleast : ∀ v : Value, v.marker? ≠ none → ∀ path path', G 0 path' (v.shift w.shifts) = F 0 path v)
    (limit : ℕ) (path : List Value.Marker) (v : Value) :
    G limit (path.map (shiftMarker w.shifts)) (v.shift w.shifts) = F limit path v := by
  induction limit generalizing path v with
  | zero =>
    by_cases hv : v.marker? = none
    · exact hplain v hv _ _ _
    · exact hleast v hv _ _
  | succ limit ih =>
    cases hv : v.marker? with
    | none => exact hplain v hv _ _ _
    | some m =>
      have hv' : (v.shift w.shifts).marker? = some (shiftMarker w.shifts m) := by rw [marker?_shift, hv]; rfl
      rw [hF.step hv, hG.step hv', h.elements, List.map_map, hwhole]
      exact congrArg _ (List.map_congr_left fun u _ => ih (m :: path) u)

theorem nestingLimit_le (h : w.Tables K s t) : Value.nestingLimit s ≤ Value.nestingLimit t := by
  simp only [Value.nestingLimit, h.lists.size, h.iterables.size, h.sets.size, h.maps.size]
  omega

/-- What is no collection and its counterpart have the same text. -/
theorem text_plain (h : w.Tables K s t) {v : Value} (hv : v.marker? = none) : (v.shift w.shifts).text t = v.text s := by
  cases v with
  | closure a => simp only [Value.shift, Value.text, Value.textWithin, h.closureText]
  | native a => simp only [Value.shift, Value.text, Value.textWithin, h.nativeName]
  | error a => simp only [Value.shift, Value.text, Value.textWithin, h.errorMessage]
  | object a => simp only [Value.shift, Value.text, Value.textWithin, h.objectText_full]
  | list _ | iterable _ | set _ | map _ => cases hv
  | _ => simp only [Value.shift, Value.text, Value.textWithin]

/-- A value and its counterpart have the same text. -/
theorem text (h : w.Tables K s t) (v : Value) : (v.shift w.shifts).text t = v.text s := by
  have hplain (v : Value) (hv : v.marker? = none) (limit : ℕ) (path path' : List Value.Marker) :
      Value.textWithin t limit path' (v.shift w.shifts) = Value.textWithin s limit path v := by
    have hv' : (v.shift w.shifts).marker? = none := by rw [marker?_shift, hv]; rfl
    rw [Value.textWithin_plain hv, Value.textWithin_plain hv', h.text_plain hv]
  have hleast (v : Value) (hv : v.marker? ≠ none) (path path' : List Value.Marker) :
      Value.textWithin t 0 path' (v.shift w.shifts) = Value.textWithin s 0 path v := by
    cases v with
    | list _ | iterable _ | set _ | map _ => simp only [Value.shift, Value.textWithin]
    | _ => exact absurd rfl hv
  have hwhole (path : List Value.Marker) (m : Value.Marker) (texts : List String) :
      Value.showCollection (path.map (shiftMarker w.shifts)) (shiftMarker w.shifts m) texts =
        Value.showCollection path m texts := by
    simp only [Value.showCollection, shiftMarker_mem]
    cases m <;> rfl
  have hsame := h.goesThrough (Value.goesThrough_textWithin s) (Value.goesThrough_textWithin t) hwhole hplain hleast
    (Value.nestingLimit t) [] v
  rw [Value.textWithin_of_le h.nestingLimit_le] at hsame
  exact hsame

/-! ### Refusals -/

section

variable [Host]

theorem refusesError (h : w.Tables K s t) (a : Nat) :
    t.refusesError (w.shifts.error.apply a) = s.refusesError a := by
  unfold Store.refusesError
  cases he : s.errors[a]? with
  | none => rw [h.errors.missing he]
  | some e =>
    obtain ⟨e', he', hee'⟩ := h.errors.entry a e he
    have hargs : "args" ≠ noteName := by decide
    simp only [he', hee'.find? hargs]
    cases tableFind? e.assigned "args" with
    | none => rfl
    | some x =>
      cases x with
      | list items => exact HostValue.anyRefused_shift w.shifts (fun _ => rfl) items
      | _ => rfl

theorem refusesObject (h : w.Tables K s t) (limit a : Nat) :
    t.refusesObject limit (w.shifts.object.apply a) = s.refusesObject limit a := by
  induction limit generalizing a with
  | zero => rfl
  | succ limit ih =>
    unfold Store.refusesObject
    cases ho : s.objects[a]? with
    | none => simp only [h.objects.missing ho]
    | some o =>
      obtain ⟨o', ho', hoo'⟩ := h.objects.entry a o ho
      obtain ⟨kind, attributes⟩ := o
      obtain ⟨kind', attributes'⟩ := o'
      obtain rfl : kind' = kind := hoo'.kind
      rw [ho']
      cases kind' with
      | point =>
        have hattributes : w.Attributes K attributes attributes' := hoo'.attributes
        have hget := hattributes.getD
        simp only [hget]
        refine congrArg₂ (· || ·) (HostValue.isRefused_shift w.shifts (fun v => ?_) _)
          (HostValue.isRefused_shift w.shifts (fun v => ?_) _) <;>
          cases v <;> simp [Value.shift, ih, h.refusesError]
      | _ => rfl

/-- Objects are refused the same with the limits that belong to the two stores. -/
theorem refusesObject_full (h : w.Tables K s t) (a : Nat) :
    t.refusesObject (t.objects.size + 1) (w.shifts.object.apply a) = s.refusesObject (s.objects.size + 1) a := by
  cases hobjects : w.objects with
  | true =>
    have hsize : t.objects.size = s.objects.size := by
      rw [h.objects.size, (h.sameObjects hobjects).1, Nat.add_zero]
    rw [hsize, h.refusesObject]
  | false =>
    rw [h.refusesObject]
    have hnone : s.objects[a]? = none := by simp [h.noObjects hobjects]
    unfold Store.refusesObject
    simp only [hnone]

/-- What is no collection and its counterpart are refused the same. -/
theorem refusal?_plain (h : w.Tables K s t) {v : Value} (hv : v.marker? = none) :
    (v.shift w.shifts).refusal? t = v.refusal? s := by
  cases v with
  | error a => simp only [Value.shift, Value.refusal?, Value.refusalWithin, h.refusesError]
  | object a => simp only [Value.shift, Value.refusal?, Value.refusalWithin, h.refusesObject_full]
  | list _ | iterable _ | set _ | map _ => cases hv
  | _ => simp only [Value.shift, Value.refusal?, Value.refusalWithin]

/-- A value and its counterpart are written both, or refused for the same reason. -/
theorem refusal? (h : w.Tables K s t) (v : Value) : (v.shift w.shifts).refusal? t = v.refusal? s := by
  have hplain (v : Value) (hv : v.marker? = none) (limit : ℕ) (path path' : List Value.Marker) :
      Value.refusalWithin t limit path' (v.shift w.shifts) = Value.refusalWithin s limit path v := by
    have hv' : (v.shift w.shifts).marker? = none := by rw [marker?_shift, hv]; rfl
    rw [Value.refusalWithin_plain hv, Value.refusalWithin_plain hv', h.refusal?_plain hv]
  have hleast (v : Value) (hv : v.marker? ≠ none) (path path' : List Value.Marker) :
      Value.refusalWithin t 0 path' (v.shift w.shifts) = Value.refusalWithin s 0 path v := by
    cases v with
    | list _ | iterable _ | set _ | map _ => simp only [Value.shift, Value.refusalWithin]
    | _ => exact absurd rfl hv
  have hwhole (path : List Value.Marker) (m : Value.Marker) (refusals : List (Option HostFailure)) :
      Value.refuseCollection (path.map (shiftMarker w.shifts)) (shiftMarker w.shifts m) refusals =
        Value.refuseCollection path m refusals := by
    simp only [Value.refuseCollection, shiftMarker_mem, List.length_map]
  have hsame := h.goesThrough (Value.goesThrough_refusalWithin s) (Value.goesThrough_refusalWithin t) hwhole hplain hleast
    (Value.nestingLimit t) [] v
  rw [Value.refusalWithin_of_le h.nestingLimit_le] at hsame
  exact hsame

end

end Tables

/-! ### Data for the host -/

namespace Tables

/-- The members or entries that are collected for the host, one after the other. -/
private theorem foldlM_map {α β γ : Type} {f : β → α → Except HostFailure β} {g : β → γ → Except HostFailure β}
    {i : α → γ} {j : β → β} (hfg : ∀ b x, g (j b) (i x) = (f b x).map j) (xs : List α) (b : β) :
    (xs.map i).foldlM g (j b) = (xs.foldlM f b).map j := by
  induction xs generalizing b with
  | nil => rfl
  | cons x rest ih =>
    simp only [List.map_cons, List.foldlM_cons, hfg]
    cases f b x with
    | error e => rfl
    | ok b' => exact ih b'

private theorem mapM_map {α β γ : Type} {f : α → Except HostFailure β} {g : γ → Except HostFailure β}
    {i : α → γ} {j : β → β} (hfg : ∀ x, g (i x) = (f x).map j) (xs : List α) :
    (xs.map i).mapM g = (xs.mapM f).map (List.map j) := by
  induction xs with
  | nil => rfl
  | cons x rest ih =>
    simp only [List.map_cons, List.mapM_cons, hfg, ih]
    cases f x with
    | error e => rfl
    | ok y =>
      cases rest.mapM f with
      | error e => rfl
      | ok ys => rfl

theorem toHostWithin (h : w.Tables K s t) (limit : Nat) (v : Value) :
    Value.toHostWithin t limit (v.shift w.shifts) = (Value.toHostWithin s limit v).map (HostValue.shift w.shifts) := by
  have hlist (r : Except HostFailure (List HostValue)) : (r.map (List.map (HostValue.shift w.shifts))).map .list =
      (r.map .list).map (HostValue.shift w.shifts) := by
    cases r <;> simp only [Except.map, HostValue.shift, shiftAll_eq_map]
  have hset (r : Except HostFailure (List HostValue)) : (r.map (List.map (HostValue.shift w.shifts))).map .set =
      (r.map .set).map (HostValue.shift w.shifts) := by
    cases r <;> simp only [Except.map, HostValue.shift, shiftAll_eq_map]
  have hdict (r : Except HostFailure (List (HostValue × HostValue))) :
      (r.map (List.map (shiftEntry w.shifts))).map .dict = (r.map .dict).map (HostValue.shift w.shifts) := by
    cases r <;> simp only [Except.map, HostValue.shift, shiftEntries_eq_map]
  induction limit generalizing v with
  | zero => cases v <;> rfl
  | succ limit ih =>
    cases v with
    | list a =>
      simp only [Value.shift, Value.toHostWithin, (h.list a).same, mapM_map ih]
      exact hlist _
    | iterable a =>
      simp only [Value.shift, Value.toHostWithin, (h.iterable a).same, mapM_map ih]
      exact hlist _
    | set a =>
      have hstep := foldlM_map (f := fun members v => do
          let h ← Value.toHostWithin s limit v
          let key ← h.asKey
          .ok (HostValue.addMember members key))
        (g := fun members v => do
          let h ← Value.toHostWithin t limit v
          let key ← h.asKey
          .ok (HostValue.addMember members key))
        (i := Value.shift w.shifts) (j := List.map (HostValue.shift w.shifts)) (fun members v => by
          simp only [ih]
          cases Value.toHostWithin s limit v with
          | error f => rfl
          | ok x =>
            have hkey : (x.shift w.shifts).asKey = x.asKey.map (HostValue.shift w.shifts) := x.asKey_shift w.shifts
            simp only [Except.map, bind, Except.bind] at hkey ⊢
            rw [hkey]
            cases x.asKey with
            | error f => rfl
            | ok key => exact congrArg _ (HostValue.addMember_shift w.shifts members key))
      simp only [Value.shift, Value.toHostWithin, (h.set a).same]
      rw [show ([] : List HostValue) = [].map (HostValue.shift w.shifts) from rfl, hstep]
      exact hset _
    | map a =>
      have hstep := foldlM_map (f := fun entries (e : Value × Value) => do
          let h ← Value.toHostWithin s limit e.1
          let value ← Value.toHostWithin s limit e.2
          let key ← h.asKey
          .ok (HostValue.putEntry key value entries))
        (g := fun entries (e : Value × Value) => do
          let h ← Value.toHostWithin t limit e.1
          let value ← Value.toHostWithin t limit e.2
          let key ← h.asKey
          .ok (HostValue.putEntry key value entries))
        (i := shiftPair w.shifts) (j := List.map (shiftEntry w.shifts)) (fun entries e => by
          simp only [shiftPair, ih]
          cases Value.toHostWithin s limit e.1 with
          | error f => rfl
          | ok x =>
            cases Value.toHostWithin s limit e.2 with
            | error f => rfl
            | ok y =>
              have hkey : (x.shift w.shifts).asKey = x.asKey.map (HostValue.shift w.shifts) := x.asKey_shift w.shifts
              simp only [Except.map, bind, Except.bind] at hkey ⊢
              rw [hkey]
              cases x.asKey with
              | error f => rfl
              | ok key => exact congrArg _ (HostValue.putEntry_shift w.shifts key y entries))
      simp only [Value.shift, Value.toHostWithin, (h.map a).same]
      rw [show ([] : List (HostValue × HostValue)) = [].map (shiftEntry w.shifts) from rfl, hstep]
      exact hdict _
    | _ => rfl

/-- The host is handed the same in both runs. -/
theorem toHost (h : w.Tables K s t) (v : Value) :
    (v.shift w.shifts).toHost t = (v.toHost s).map (HostValue.shift w.shifts) := by
  have hsame := h.toHostWithin (Value.nestingLimit t) v
  rw [Value.toHostWithin_of_le h.nestingLimit_le] at hsame
  exact hsame

end Tables

/-! ### Known errors in data for the host -/

/-- What every result of a computation has. -/
def Gives {ε α : Type} (P : α → Prop) (r : Except ε α) : Prop := ∀ a, r = .ok a → P a

namespace Gives

variable {ε α β : Type} {P : α → Prop} {Q : β → Prop}

theorem ok {a : α} (h : P a) : Gives P (.ok a : Except ε α) := by
  rintro b ⟨⟩
  exact h

theorem error (e : ε) : Gives P (.error e) := nofun

theorem bind {r : Except ε α} {k : α → Except ε β} (hr : Gives P r) (hk : ∀ a, P a → Gives Q (k a)) :
    Gives Q (r >>= k) := by
  cases r with
  | error e => exact error e
  | ok a => exact hk a (hr a rfl)

theorem map {r : Except ε α} {g : α → β} (hr : Gives P r) (hg : ∀ a, P a → Q (g a)) : Gives Q (r.map g) := by
  cases r with
  | error e => exact error e
  | ok a => exact ok (hg a (hr a rfl))

theorem mapM {f : α → Except ε β} {xs : List α} (h : ∀ x ∈ xs, Gives Q (f x)) :
    Gives (fun ys => ∀ y ∈ ys, Q y) (xs.mapM f) := by
  induction xs with
  | nil => exact ok (List.forall_mem_nil _)
  | cons x rest ih =>
    rw [List.mapM_cons]
    refine (h x List.mem_cons_self).bind (fun y hy => ?_)
    refine (ih (fun z hz => h z (List.mem_cons_of_mem x hz))).bind (fun ys hys => ?_)
    exact ok (List.forall_mem_cons.mpr ⟨hy, hys⟩)

theorem foldlM {f : β → α → Except ε β} {xs : List α} (h : ∀ x ∈ xs, ∀ b, Q b → Gives Q (f b x)) {b : β} (hb : Q b) :
    Gives Q (xs.foldlM f b) := by
  induction xs generalizing b with
  | nil => exact ok hb
  | cons x rest ih =>
    rw [List.foldlM_cons]
    exact (h x List.mem_cons_self b hb).bind (fun c hc => ih (fun z hz => h z (List.mem_cons_of_mem x hz)) hc)

end Gives

theorem gives_asKey {x : HostValue} (h : x.Known K) : Gives (HostValue.Known K) x.asKey := by
  cases x <;> first | exact Gives.ok h | exact Gives.error _

theorem forall_addMember {members : List HostValue} {x : HostValue} (h : ∀ y ∈ members, y.Known K) (hx : x.Known K) :
    ∀ y ∈ HostValue.addMember members x, y.Known K := by
  unfold HostValue.addMember
  split
  · exact h
  · intro y hy
    rcases List.mem_append.mp hy with hy | hy
    · exact h y hy
    · exact List.mem_singleton.mp hy ▸ hx

theorem forall_putEntry {key value : HostValue} {entries : List (HostValue × HostValue)}
    (h : ∀ e ∈ entries, e.1.Known K ∧ e.2.Known K) (hkey : key.Known K) (hvalue : value.Known K) :
    ∀ e ∈ HostValue.putEntry key value entries, e.1.Known K ∧ e.2.Known K := by
  induction entries with
  | nil => simpa [HostValue.putEntry] using ⟨hkey, hvalue⟩
  | cons e rest ih =>
    have hrest : ∀ e' ∈ rest, e'.1.Known K ∧ e'.2.Known K := fun e' he' => h e' (List.mem_cons_of_mem e he')
    simp only [HostValue.putEntry]
    split
    · exact List.forall_mem_cons.mpr ⟨⟨(h e List.mem_cons_self).1, hvalue⟩, hrest⟩
    · exact List.forall_mem_cons.mpr ⟨h e List.mem_cons_self, ih hrest⟩

/-- The errors in what the host is handed are those of the value. -/
theorem Tables.toHostWithin_known (h : w.Tables K s t) (limit : Nat) {v : Value} (hv : v.Known K) :
    Gives (HostValue.Known K) (v.toHostWithin s limit) := by
  induction limit generalizing v with
  | zero => cases v <;> first | exact Gives.ok hv | exact Gives.error _
  | succ limit ih =>
    cases v with
    | list a => exact (Gives.mapM (fun v hv => ih ((h.list a).known v hv))).map (fun _ => knownAll_iff.mpr)
    | iterable a => exact (Gives.mapM (fun v hv => ih ((h.iterable a).known v hv))).map (fun _ => knownAll_iff.mpr)
    | set a =>
      refine (Gives.foldlM (Q := fun xs => ∀ y ∈ xs, y.Known K) (fun v hv members hmembers => ?_) nofun).map
        (fun _ => knownAll_iff.mpr)
      refine (ih ((h.set a).known v hv)).bind (fun x hx => (gives_asKey hx).bind (fun key hkey => ?_))
      exact Gives.ok (forall_addMember hmembers hkey)
    | map a =>
      refine (Gives.foldlM (Q := fun xs => ∀ e ∈ xs, e.1.Known K ∧ e.2.Known K) (fun e he entries hentries => ?_)
        nofun).map (fun _ => knownEntries_iff.mpr)
      obtain ⟨hkey, hvalue⟩ := (h.map a).known e he
      refine (ih hkey).bind (fun x hx => (ih hvalue).bind (fun y hy => ?_))
      exact (gives_asKey hx).bind (fun key hkey' => Gives.ok (forall_putEntry hentries hkey' hy))
    | _ => exact Gives.ok hv

/-! ### Names -/

theorem binds_iff {scope : Scope} {name : String} :
    scope.binds name = (scope.bindings.find? (fun b => b.1 == name)).isSome := by
  rw [Scope.binds, Bool.eq_iff_iff, List.any_eq_true, List.find?_isSome]

/-- Looking up a name that is compared needs only the bindings that are. -/
theorem find?_shown {name : String} (hname : w.hidden name = false) (bindings : List (String × Value)) :
    (w.shown bindings).find? (fun b => b.1 == name) = bindings.find? (fun b => b.1 == name) := by
  rw [shown, List.find?_filter]
  refine congrArg (fun p => List.find? p bindings) (funext fun b => ?_)
  by_cases hb : b.1 = name
  · simp [hb, hname]
  · simp [hb]

/-- A name that is compared is bound to corresponding values. -/
theorem ScopesAlike.lookup {x y : Scope} (h : w.ScopesAlike K x y) {name : String} (hname : w.hidden name = false) :
    y.bindings.find? (fun b => b.1 == name) =
      (x.bindings.find? (fun b => b.1 == name)).map (shiftBinding w.shifts) := by
  rw [← find?_shown hname, h.bindings.same, List.find?_map, ← find?_shown hname x.bindings]
  rfl

theorem ScopesAlike.binds {x y : Scope} (h : w.ScopesAlike K x y) {name : String} (hname : w.hidden name = false) :
    y.binds name = x.binds name := by
  rw [binds_iff, binds_iff, h.lookup hname, Option.isSome_map]

theorem ScopesAlike.find? {x y : Scope} (h : w.ScopesAlike K x y) {name : String} (hname : w.hidden name = false) :
    y.find? name = (x.find? name).map (Value.shift w.shifts) := by
  unfold Scope.find?
  rw [h.lookup hname]
  cases x.bindings.find? (fun b => b.1 == name) <;> rfl

theorem ScopesAlike.find?_known {x y : Scope} (h : w.ScopesAlike K x y) {name : String} (hname : w.hidden name = false)
    {v : Value} (hv : x.find? name = some v) : v.Known K := by
  unfold Scope.find? at hv
  rw [← find?_shown hname] at hv
  split at hv
  · obtain rfl := Option.some.inj hv
    exact h.bindings.known _ (List.mem_of_find?_eq_some ‹_›)
  · cases hv

namespace Tables

theorem ownerFrom? (h : w.Tables K s t) {name : String} (hname : w.hidden name = false) (limit a : Nat) :
    t.ownerFrom? name limit (w.shifts.scope.apply a) = (s.ownerFrom? name limit a).map w.shifts.scope.apply := by
  induction limit generalizing a with
  | zero => rfl
  | succ limit ih =>
    simp only [Store.ownerFrom?, (h.scope a).binds hname, (h.scope a).parent]
    split
    · rfl
    · cases (s.scope a).parent with
      | none => rfl
      | some p => exact ih p

theorem handledFrom? (h : w.Tables K s t) (limit a : Nat) :
    t.handledFrom? limit (w.shifts.scope.apply a) = (s.handledFrom? limit a).map w.shifts.error.apply := by
  induction limit generalizing a with
  | zero => rfl
  | succ limit ih =>
    simp only [Store.handledFrom?, (h.scope a).activeError, (h.scope a).parent]
    cases (s.scope a).activeError with
    | some error => rfl
    | none =>
      cases (s.scope a).parent with
      | none => rfl
      | some p => exact ih p

theorem handledFrom?_known (h : w.Tables K s t) {limit a : Nat} {error : Address}
    (herror : s.handledFrom? limit a = some error) : K (.error error) := by
  induction limit generalizing a with
  | zero => cases herror
  | succ limit ih =>
    simp only [Store.handledFrom?] at herror
    split at herror
    · obtain rfl := Option.some.inj herror
      exact (h.scope a).active _ ‹_›
    · split at herror
      · cases herror
      · exact ih herror

/-- The number of scopes does not decide who owns a name. -/
theorem owner? (h : w.Tables K s t) {name : String} (hname : w.hidden name = false) (a : Nat) :
    t.owner? (w.shifts.scope.apply a) name = (s.owner? a name).map w.shifts.scope.apply := by
  have hsame := h.ownerFrom? hname t.scopes.size a
  by_cases hgap : w.shifts.scope.gap = 0
  · have hsize : t.scopes.size = s.scopes.size := by rw [h.scopes.size, hgap, Nat.add_zero]
    rw [hsize] at hsame
    rw [Store.owner?, hsize]
    exact hsame
  · have hle : s.scopes.size ≤ t.scopes.size := by
      have hsize := h.scopes.size
      omega
    rw [Store.ownerFrom?_of_le (h.ordered hgap).1 name hle] at hsame
    exact hsame

theorem handledError? (h : w.Tables K s t) (a : Nat) :
    t.handledError? (w.shifts.scope.apply a) = (s.handledError? a).map w.shifts.error.apply := by
  have hsame := h.handledFrom? t.scopes.size a
  by_cases hgap : w.shifts.scope.gap = 0
  · have hsize : t.scopes.size = s.scopes.size := by rw [h.scopes.size, hgap, Nat.add_zero]
    rw [hsize] at hsame
    rw [Store.handledError?, hsize]
    exact hsame
  · have hle : s.scopes.size ≤ t.scopes.size := by
      have hsize := h.scopes.size
      omega
    rw [Store.handledFrom?_of_le (h.ordered hgap).1 hle] at hsame
    exact hsame

theorem lookup? (h : w.Tables K s t) {name : String} (hname : w.hidden name = false) (a : Nat) :
    t.lookup? (w.shifts.scope.apply a) name = (s.lookup? a name).map (Value.shift w.shifts) := by
  unfold Store.lookup?
  rw [h.owner? hname]
  cases s.owner? a name with
  | none => rfl
  | some owner => exact (h.scope owner).find? hname

theorem lookup?_known (h : w.Tables K s t) {name : String} (hname : w.hidden name = false) {a : Nat} {v : Value}
    (hv : s.lookup? a name = some v) : v.Known K := by
  obtain ⟨owner, -, howner⟩ := Option.bind_eq_some_iff.mp hv
  exact (h.scope owner).find?_known hname howner

theorem global? (h : w.Tables K s t) (name : String) :
    tableFind? t.globals name = (tableFind? s.globals name).map (Value.shift w.shifts) := by
  rw [h.globals.same]
  exact tableFind?_map (Value.shift w.shifts) s.globals name

theorem global?_known (h : w.Tables K s t) {name : String} {v : Value} (hv : tableFind? s.globals name = some v) :
    v.Known K := by
  obtain ⟨e, he, rfl⟩ := tableFind?_mem hv
  exact h.globals.known e he

/-- Assigning to a name changes corresponding scopes, or neither store has the name. -/
theorem update? (h : w.Tables K s t) {name : String} (hname : w.hidden name = false) (a : Nat) {v : Value}
    (hv : v.Known K) :
    (s.update? a name v = none ∧ t.update? (w.shifts.scope.apply a) name (v.shift w.shifts) = none) ∨
      ∃ owner : Nat, s.update? a name v = some (s.declare owner name v) ∧
        t.update? (w.shifts.scope.apply a) name (v.shift w.shifts) =
          some (t.declare (w.shifts.scope.apply owner) name (v.shift w.shifts)) ∧
        w.Tables K (s.declare owner name v) (t.declare (w.shifts.scope.apply owner) name (v.shift w.shifts)) := by
  unfold Store.update?
  rw [h.owner? hname]
  cases s.owner? a name with
  | none => exact .inl ⟨rfl, rfl⟩
  | some owner => exact .inr ⟨owner, rfl, rfl, h.declare owner hname hv⟩

/-! ### Attributes -/

theorem ofObject? (h : w.Tables K s t) (a : Nat) (name : String) :
    Attribute.ofObject? t (w.shifts.object.apply a) name =
      (Attribute.ofObject? s a name).map (Attribute.shift w.shifts) := by
  unfold Attribute.ofObject?
  cases ho : s.objects[a]? with
  | none => rw [h.objects.missing ho]; rfl
  | some o =>
    obtain ⟨o', ho', hoo'⟩ := h.objects.entry a o ho
    simp only [ho', hoo'.attributes.find?, hoo'.kind]
    cases tableFind? o.attributes name with
    | some x => exact congrArg some (Attribute.ofData_shift w.shifts x)
    | none => cases tableFind? o.kind.methods name <;> rfl

theorem ofObject?_known (h : w.Tables K s t) {a : Nat} {name : String} {x : Attribute}
    (hx : Attribute.ofObject? s a name = some x) : x.Known K := by
  unfold Attribute.ofObject? at hx
  split at hx
  · cases hx
  · rename_i o ho
    obtain ⟨o', -, hoo'⟩ := h.objects.entry a o ho
    split at hx
    · obtain rfl := Option.some.inj hx
      exact Attribute.known_ofData (hoo'.attributes.find?_known ‹_›)
    · obtain ⟨m, -, rfl⟩ := Option.map_eq_some_iff.mp hx
      trivial

end Tables

theorem ofFault?_shift (σ : Shifts) (f : Fault) (name : String) :
    Attribute.ofFault? (f.shift σ) name = (Attribute.ofFault? f name).map (HostValue.shift σ) := by
  cases f with
  | unbound n =>
    simp only [Fault.shift, Attribute.ofFault?]
    split <;> rfl
  | noMember receiver typeName n =>
    simp only [Fault.shift, Attribute.ofFault?]
    split
    · rfl
    · split <;> rfl
  | _ => rfl

theorem ofFault?_known {f : Fault} (hf : f.Known K) {name : String} {x : HostValue}
    (hx : Attribute.ofFault? f name = some x) : x.Known K := by
  cases f with
  | unbound n =>
    simp only [Attribute.ofFault?] at hx
    split at hx <;> cases hx
    trivial
  | noMember receiver typeName n =>
    simp only [Attribute.ofFault?] at hx
    split at hx
    · cases hx
      trivial
    · split at hx <;> cases hx
      exact hf
  | _ => cases hx

/-- The place of an error that programs may hold holds nothing that they may not. -/
theorem RecordsAlike.known_place {e e' : ErrorRecord} (h : w.RecordsAlike (w.Known s) e e') {a : Nat}
    (ha : w.Known s (.error a)) (he : s.errors[a]? = some e) :
    e.line.Known (w.Known s) ∧ e.column.Known (w.Known s) := by
  by_cases hheld : w.closed = true ∨ w.listed = true
  · exact h.place hheld
  · simp only [not_or, Bool.not_eq_true] at hheld
    cases hplaced : w.placed with
    | false =>
      have hall := known_all hplaced hheld.1 hheld.2 s
      exact ⟨HostValue.known_of_forall hall _, HostValue.known_of_forall hall _⟩
    | true =>
      obtain ⟨e₁, he₁, -, p, hline, hcolumn⟩ := ha hplaced
      obtain rfl : e = e₁ := Option.some.inj (he.symm.trans he₁)
      rw [hline, hcolumn]
      exact ⟨trivial, trivial⟩

theorem Tables.ofError? (h : w.Tables K s t) (a : Nat) {name : String} (hname : Attribute.isPublic name = true) :
    Attribute.ofError? t (w.shifts.error.apply a) name =
      (Attribute.ofError? s a name).map (Attribute.shift w.shifts) := by
  unfold Attribute.ofError?
  cases he : s.errors[a]? with
  | none => rw [h.errors.missing he]; rfl
  | some e =>
    obtain ⟨e', he', hee'⟩ := h.errors.entry a e he
    simp only [he', hee'.line, hee'.column, hee'.find? (ne_noteName hname), hee'.fault, Fault.text_shift,
      ofFault?_shift, Attribute.ofData_shift, Tables.errorMessage h]
    split
    · rfl
    · split
      · rfl
      · split
        · rfl
        · cases tableFind? e.assigned name with
          | some x => exact congrArg some (Attribute.ofData_shift w.shifts x)
          | none =>
            simp only [Option.map_none]
            split
            · rfl
            · cases Attribute.ofFault? e.fault name with
              | some x => rfl
              | none => cases tableFind? ErrorMethod.table name <;> rfl

theorem Parallel.ofError?_known (h : w.Parallel s t) {a : Nat} (ha : w.Known s (.error a)) {name : String}
    (hname : Attribute.isPublic name = true) {x : Attribute} (hx : Attribute.ofError? s a name = some x) :
    x.Known (w.Known s) := by
  unfold Attribute.ofError? at hx
  split at hx
  · cases hx
  · rename_i e he
    obtain ⟨e', -, hee'⟩ := h.errors.entry a e he
    obtain ⟨hline, hcolumn⟩ := hee'.known_place ha he
    split at hx
    · cases hx
      trivial
    · split at hx
      · cases hx
        exact Attribute.known_ofData hline
      · split at hx
        · cases hx
          exact Attribute.known_ofData hcolumn
        · split at hx
          · cases hx
            exact Attribute.known_ofData (hee'.find?_known (ne_noteName hname) ‹_›)
          · split at hx
            · cases hx
              exact ⟨trivial, trivial⟩
            · split at hx
              · cases hx
                exact ofFault?_known hee'.known ‹_›
              · obtain ⟨m, -, rfl⟩ := Option.map_eq_some_iff.mp hx
                exact ha

/-- The attributes of objects and errors. -/
theorem Tables.attribute? (h : w.Tables K s t) (v : Value) (name : String) :
    Attribute.find? t (v.shift w.shifts) name = (Attribute.find? s v name).map (Attribute.shift w.shifts) := by
  unfold Attribute.find?
  split
  · cases v with
    | object a => exact Tables.ofObject? h a name
    | error a => exact h.ofError? a ‹_›
    | _ => rfl
  · rfl

theorem Parallel.attribute?_known (h : w.Parallel s t) {v : Value} (hv : v.Known (w.Known s)) {name : String}
    {x : Attribute} (hx : Attribute.find? s v name = some x) : x.Known (w.Known s) := by
  unfold Attribute.find? at hx
  split at hx
  · cases v with
    | object a => exact Tables.ofObject?_known h hx
    | error a => exact h.ofError?_known hv ‹_› hx
    | _ => cases hx
  · cases hx

end Dartlet.Comparison
