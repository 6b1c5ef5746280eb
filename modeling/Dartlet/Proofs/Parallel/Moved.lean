import Dartlet.Proofs.Parallel.Self

/-!
# Stores with other addresses

A store that runs in parallel with another one, and in which nothing is hidden, is that store with the
addresses in its tables changed. Where the second store only has more native functions, all that can
differ are the addresses of native functions that have been made since.
-/

namespace Dartlet

/-! ### Changed addresses in tables -/

/-- A scope with all addresses changed. -/
def Scope.shift (σ : Shifts) (x : Scope) : Scope :=
  ⟨x.parent.map σ.scope.apply, x.bindings.map (shiftBinding σ), x.activeError.map σ.error.apply⟩

/-- A function of the program with its scope at another address. -/
def Closure.shift (σ : Shifts) (f : Closure) : Closure := { f with scope := σ.scope.apply f.scope }

/-- A native function with all addresses changed. -/
def NativeFunction.shift (σ : Shifts) (f : NativeFunction) : NativeFunction := ⟨f.name, f.code.shift σ⟩

/-- An error with all addresses changed. -/
def ErrorRecord.shift (σ : Shifts) (e : ErrorRecord) : ErrorRecord :=
  ⟨e.fault.shift σ, e.line.shift σ, e.column.shift σ, e.located, e.assigned.map (shiftAttribute σ)⟩

/-- An object of the host with all addresses changed. -/
def HostObject.shift (σ : Shifts) (o : HostObject) : HostObject :=
  { o with attributes := o.attributes.map (shiftAttribute σ) }

/-- A store in whose tables all addresses have been changed. -/
def Store.shift (σ : Shifts) (s : Store) : Store :=
  { s with
    scopes := s.scopes.map (Scope.shift σ)
    lists := s.lists.map (Array.map (Value.shift σ))
    iterables := s.iterables.map (List.map (Value.shift σ))
    sets := s.sets.map (List.map (Value.shift σ))
    maps := s.maps.map (List.map (shiftPair σ))
    closures := s.closures.map (Closure.shift σ)
    natives := s.natives.map (NativeFunction.shift σ)
    errors := s.errors.map (ErrorRecord.shift σ)
    objects := s.objects.map (HostObject.shift σ)
    globals := s.globals.map (shiftBinding σ) }

theorem Scope.shift_stay (x : Scope) : x.shift .stay = x := by
  have hparent : x.parent.map Shifts.stay.scope.apply = x.parent := Shift.map_stay _
  have hactive : x.activeError.map Shifts.stay.error.apply = x.activeError := Shift.map_stay _
  simp [shift, hparent, hactive, funext shiftBinding_stay]

theorem Closure.shift_stay (f : Closure) : f.shift .stay = f := by simp [shift, Shifts.stay]

theorem NativeFunction.shift_stay (f : NativeFunction) : f.shift .stay = f := by simp [shift]

theorem ErrorRecord.shift_stay (e : ErrorRecord) : e.shift .stay = e := by
  simp [shift, HostValue.shift_stay, funext shiftAttribute_stay]

theorem HostObject.shift_stay (o : HostObject) : o.shift .stay = o := by simp [shift, funext shiftAttribute_stay]

theorem Store.shift_stay (s : Store) : s.shift .stay = s := by
  simp [shift, funext Scope.shift_stay, funext Value.shift_stay, funext shiftPair_stay, funext Closure.shift_stay,
    funext NativeFunction.shift_stay, funext ErrorRecord.shift_stay, funext HostObject.shift_stay,
    funext shiftBinding_stay]

namespace Comparison

variable {w : Comparison} {K : Value → Prop} {s t : Store}

theorem getElem?_of_corresponds {α β : Type} {σ : Shift} {R : α → β → Prop} {xs : Array α} {ys : Array β} {f : α → β}
    (h : Corresponds σ R xs ys) (hf : ∀ x y, R x y → y = f x) (a : Nat) : ys[σ.apply a]? = xs[a]?.map f := by
  cases hx : xs[a]? with
  | none => exact h.missing hx
  | some x =>
    obtain ⟨y, hy, hxy⟩ := h.entry a x hx
    rw [hy, hf x y hxy]
    rfl

/-- A table whose entries keep their addresses is determined by the other one. -/
theorem eq_map_of_corresponds {α β : Type} {σ : Shift} {R : α → β → Prop} {xs : Array α} {ys : Array β} {f : α → β}
    (h : Corresponds σ R xs ys) (hgap : σ.gap = 0) (hf : ∀ x y, R x y → y = f x) : ys = xs.map f := by
  apply Array.ext_getElem?
  intro a
  have ha := getElem?_of_corresponds h hf a
  rwa [Shift.apply_of_gap hgap, ← Array.getElem?_map] at ha

theorem ScopesAlike.shift (hw : ∀ name, w.hidden name = false) {x y : Scope} (h : w.ScopesAlike K x y) :
    y = x.shift w.shifts := by
  obtain ⟨parent, bindings, activeError⟩ := x
  obtain ⟨parent', bindings', activeError'⟩ := y
  have hparent : parent' = parent.map w.shifts.scope.apply := h.parent
  have hactive : activeError' = activeError.map w.shifts.error.apply := h.activeError
  have hbindings : bindings' = bindings.map (shiftBinding w.shifts) := by
    simpa [shown, hw] using h.bindings.same
  rw [hparent, hactive, hbindings, Scope.shift]

theorem RecordsAlike.shift (hw : w.placed = false) {e e' : ErrorRecord} (h : w.RecordsAlike K e e') :
    e' = e.shift w.shifts := by
  obtain ⟨fault, line, column, located, assigned⟩ := e
  obtain ⟨fault', line', column', located', assigned'⟩ := e'
  have hfault : fault' = fault.shift w.shifts := h.fault
  have hline : line' = line.shift w.shifts := h.line
  have hcolumn : column' = column.shift w.shifts := h.column
  have hlocated : located' = located := h.located
  have hassigned : assigned' = assigned.map (shiftAttribute w.shifts) := by
    simpa [visible, hw] using h.assigned.same
  rw [hfault, hline, hcolumn, hlocated, hassigned, ErrorRecord.shift]

theorem ObjectsAlike.shift {x y : HostObject} (h : w.ObjectsAlike K x y) : y = x.shift w.shifts := by
  obtain ⟨kind, attributes⟩ := x
  obtain ⟨kind', attributes'⟩ := y
  have hkind : kind' = kind := h.kind
  have hattributes : attributes' = attributes.map (shiftAttribute w.shifts) := h.attributes.same
  rw [hkind, hattributes, HostObject.shift]

end Comparison

/-! ### Addresses of native functions -/

/-- A change of the addresses of native functions alone: those from `start` on go up by `gap`. -/
def Shifts.natives (start gap : Nat) : Shifts := { Shifts.stay with native := ⟨start, gap⟩ }

namespace Comparison

variable {w : Comparison} {K : Value → Prop} {s t : Store} {start gap : Nat}

/-- Where only lists and native functions change their addresses, the second store is the first one with these
changed, up to what the tables of both have in their gaps. -/
theorem Tables.eq_shift_data {σ τ : Shift} (hw : w.shifts = { Shifts.stay with list := σ, native := τ })
    (hhidden : ∀ name, w.hidden name = false) (hplaced : w.placed = false) (hobjects : w.objects = true)
    (h : w.Tables K s t) : t = { s.shift w.shifts with lists := t.lists, natives := t.natives } := by
  have hscopes := eq_map_of_corresponds h.scopes (by rw [hw]; rfl) (fun _ _ hxy => hxy.shift hhidden)
  have hiterables := eq_map_of_corresponds h.iterables (by rw [hw]; rfl) (fun _ _ hxy => hxy.same)
  have hsets := eq_map_of_corresponds h.sets (by rw [hw]; rfl) (fun _ _ hxy => hxy.same)
  have hmaps := eq_map_of_corresponds h.maps (by rw [hw]; rfl) (fun _ _ hxy => hxy.same)
  have hclosures := eq_map_of_corresponds h.closures (f := Closure.shift w.shifts) (by rw [hw]; rfl)
    (fun _ _ hxy => hxy.same)
  have herrors := eq_map_of_corresponds h.errors (by rw [hw]; rfl) (fun _ _ hxy => hxy.shift hplaced)
  have hobjects' := eq_map_of_corresponds h.objects (by rw [hw]; rfl) (fun _ _ hxy => hxy.shift)
  have hglobals := h.globals.same
  have houtput := h.output
  have hinput := (h.sameObjects hobjects).2
  cases t
  simp only [Store.shift, Store.mk.injEq]
  exact ⟨hscopes, trivial, hiterables, hsets, hmaps, hclosures, trivial, herrors, hobjects', hglobals, houtput, hinput⟩

/-- Where only native functions change their addresses, the second store is the first one with these
changed, up to what the table of native functions has in the gap. -/
theorem Tables.eq_shift (hw : w.shifts = .natives start gap) (hhidden : ∀ name, w.hidden name = false)
    (hplaced : w.placed = false) (hobjects : w.objects = true) (h : w.Tables K s t) :
    t = { s.shift (.natives start gap) with natives := t.natives } := by
  have hlists := eq_map_of_corresponds h.lists (f := Array.map (Value.shift w.shifts)) (by rw [hw]; rfl)
    (fun _ _ hxy => Array.toList_inj.mp (by rw [hxy.same, Array.toList_map]))
  have hdata := h.eq_shift_data hw hhidden hplaced hobjects
  rw [hlists] at hdata
  rwa [hw] at hdata

/-- Where only lists change their addresses, the second store is the first one with these changed, up to what the table
of lists has in the gap. -/
theorem Tables.eq_shift_lists {σ : Shift} (hw : w.shifts = { Shifts.stay with list := σ })
    (hhidden : ∀ name, w.hidden name = false) (hplaced : w.placed = false) (hobjects : w.objects = true)
    (h : w.Tables K s t) : t = { s.shift w.shifts with lists := t.lists } := by
  have hnatives := eq_map_of_corresponds h.natives (f := NativeFunction.shift w.shifts) (by rw [hw]; rfl)
    (fun _ _ hfg => hfg.same)
  have hdata := h.eq_shift_data hw hhidden hplaced hobjects
  rwa [hnatives] at hdata

/-- Where no address changes, the stores are the same. -/
theorem Tables.eq (hw : w.shifts = .stay) (hhidden : ∀ name, w.hidden name = false) (hplaced : w.placed = false)
    (hobjects : w.objects = true) (h : w.Tables K s t) : t = s := by
  have hnatives := eq_map_of_corresponds h.natives (f := NativeFunction.shift w.shifts) (by rw [hw]; rfl)
    (fun _ _ hfg => hfg.same)
  have hshift := h.eq_shift (show w.shifts = .natives 0 0 from hw) hhidden hplaced hobjects
  rw [hnatives, hw] at hshift
  exact hshift.trans s.shift_stay

end Comparison

/-! ### What keeps its addresses -/

section Kept

variable {σ : Shifts} {K : Value → Prop}

/-- A change of addresses that leaves all values as they are that programs may hold. -/
def Shifts.Keeps (σ : Shifts) (K : Value → Prop) : Prop := ∀ v : Value, v.Known K → v.shift σ = v

theorem Shifts.keeps_stay (K : Value → Prop) : Shifts.stay.Keeps K := fun v _ => v.shift_stay

namespace Shifts.Keeps

mutual

theorem hostValue (hσ : σ.Keeps K) : ∀ {h : HostValue}, h.Known K → h.shift σ = h
  | .none, _ | .bool _, _ | .int _, _ | .float _, _ | .text _, _ => rfl
  | .list _, h => congrArg HostValue.list (hostValues hσ h)
  | .set _, h => congrArg HostValue.set (hostValues hσ h)
  | .dict _, h => congrArg HostValue.dict (hostEntries hσ h)
  | .callback _, h => congrArg HostValue.callback (hσ _ h)
  | .value _, h => congrArg HostValue.value (hσ _ h)

theorem hostValues (hσ : σ.Keeps K) : ∀ {items : List HostValue}, KnownAll K items → shiftAll σ items = items
  | [], _ => rfl
  | _ :: _, h => congrArg₂ List.cons (hostValue hσ h.1) (hostValues hσ h.2)

theorem hostEntries (hσ : σ.Keeps K) :
    ∀ {entries : List (HostValue × HostValue)}, KnownEntries K entries → shiftEntries σ entries = entries
  | [], _ => rfl
  | (_, _) :: _, h =>
    congrArg₂ List.cons (congrArg₂ Prod.mk (hostValue hσ h.1.1) (hostValue hσ h.1.2)) (hostEntries hσ h.2)

end

theorem error (hσ : σ.Keeps K) {a : Address} (ha : K (.error a)) : σ.error.apply a = a :=
  Value.error.inj (hσ (.error a) ha)

theorem native (hσ : σ.Keeps K) {code : NativeCode} (h : code.Known K) : code.shift σ = code := by
  cases code with
  | print => rfl
  | identical => rfl
  | bound receiver m => exact congrArg (NativeCode.bound · m) (hσ _ h)
  | host f =>
    refine congrArg NativeCode.host ?_
    cases f with
    | callback g => exact congrArg HostFunction.callback (hσ _ h)
    | method a m => exact congrArg (HostFunction.method · m) (Value.object.inj (hσ (.object a) trivial))
    | errorMethod a m => exact congrArg (HostFunction.errorMethod · m) (hσ.error h)
    | _ => rfl

theorem fault (hσ : σ.Keeps K) {f : Fault} (h : f.Known K) : f.shift σ = f := by
  cases f with
  | noMember receiver typeName name => exact congrArg (Fault.noMember · typeName name) (hσ _ h)
  | thrown value shown => exact congrArg (Fault.thrown · shown) (hσ _ h)
  | _ => rfl

end Shifts.Keeps

/-- A list whose entries all stay as they are. -/
theorem eq_map_of_forall {α : Type} {f : α → α} {xs : List α} (h : ∀ x ∈ xs, f x = x) : xs = xs.map f := by
  rw [List.map_congr_left h, List.map_id']

/-- A store in whose tables nothing else is held than is known, including notes and the places of errors. -/
structure Store.HoldsOnly (K : Value → Prop) (s : Store) : Prop extends s.Holds K where
  places : ∀ e ∈ s.errors, e.line.Known K ∧ e.column.Known K
  noted : ∀ e ∈ s.errors, ∀ b ∈ e.assigned, b.2.Known K

theorem Store.holdsOnly_of_forall (hK : ∀ v, K v) (s : Store) : s.HoldsOnly K where
  toHolds := s.holds_of_forall hK
  places _ _ := ⟨HostValue.known_of_forall hK _, HostValue.known_of_forall hK _⟩
  noted _ _ _ _ := HostValue.known_of_forall hK _

/-- A store in which scopes and functions only lead to scopes that are there, and those to older ones. -/
def Store.Nested (s : Store) : Prop := s.Descends ∧ ∀ f ∈ s.closures, f.scope < s.scopes.size

/-- A store that has, at other addresses, all that another one has. -/
structure Store.Within (σ : Shifts) (s t : Store) : Prop where
  scopes : Corresponds σ.scope Eq s.scopes t.scopes
  lists : Corresponds σ.list Eq s.lists t.lists
  iterables : Corresponds σ.iterable Eq s.iterables t.iterables
  sets : Corresponds σ.set Eq s.sets t.sets
  maps : Corresponds σ.map Eq s.maps t.maps
  closures : Corresponds σ.closure Eq s.closures t.closures
  natives : Corresponds σ.native Eq s.natives t.natives
  errors : Corresponds σ.error Eq s.errors t.errors
  objects : Corresponds σ.object Eq s.objects t.objects
  globals : t.globals = s.globals
  output : t.output = s.output
  input : t.input = s.input

theorem Corresponds.of_eq {α : Type} {σ : Shift} {R : α → α → Prop} {xs ys : Array α} (h : Corresponds σ Eq xs ys)
    (hR : ∀ x ∈ xs, R x x) : Corresponds σ R xs ys := by
  refine ⟨h.start, h.size, fun a x hx => ?_⟩
  obtain ⟨y, hy, rfl⟩ := h.entry a x hx
  exact ⟨x, hy, hR x (Array.mem_of_getElem? hx)⟩

/-- A table that has become longer. -/
theorem corresponds_append {α : Type} (xs more : Array α) : Corresponds ⟨xs.size, more.size⟩ Eq xs (xs ++ more) := by
  refine ⟨Nat.le_refl _, Array.size_append, fun a x hx => ⟨x, ?_, rfl⟩⟩
  have ha : a < xs.size := (Array.getElem?_eq_some_iff.mp hx).1
  rw [Shift.apply_of_lt _ ha, Array.getElem?_append_left ha, hx]

namespace Comparison

variable {w : Comparison} {s : Store} {start : Nat}

/-- A store runs in parallel with one that has all it has and more, if what it holds keeps its addresses. -/
theorem tables_within {t : Store} (hst : Store.Within w.shifts s t) (hkeeps : w.shifts.Keeps K) (hs : s.HoldsOnly K)
    (hscope : ∀ a < s.scopes.size, w.shifts.scope.apply a = a) (hnested : w.shifts.scope.gap ≠ 0 → s.Nested)
    (hobject : w.shifts.object.gap = 0) (hfit : ∀ b, w.Fit b) (hhidden : ∀ name, w.hidden name = false)
    (hplaced : w.placed = false) (hhandled : w.handled = false) (hobjects : w.objects = true) : w.Tables K s t := by
  have hbinding {b : String × Value} (hb : b.2.Known K) : shiftBinding w.shifts b = b :=
    congrArg (Prod.mk b.1) (hkeeps _ hb)
  have hattribute {b : String × HostValue} (hb : b.2.Known K) : shiftAttribute w.shifts b = b :=
    congrArg (Prod.mk b.1) (hkeeps.hostValue hb)
  have hvalues {xs : List Value} (hxs : ∀ v ∈ xs, v.Known K) : w.Values K xs xs :=
    ⟨eq_map_of_forall (fun v hv => hkeeps v (hxs v hv)), hxs⟩
  -- the scopes that are named are there, or else no scope moves
  have hnamed {a : Nat} (ha : s.Nested → a < s.scopes.size) : w.shifts.scope.apply a = a := by
    by_cases hgap : w.shifts.scope.gap = 0
    · exact Shift.apply_of_gap hgap a
    · exact hscope a (ha (hnested hgap))
  exact {
    scopes := by
      refine hst.scopes.of_eq (fun x hx => ⟨?_, ?_, ⟨?_, fun b hb => ?_⟩, hs.active x hx⟩)
      · cases hparent : x.parent with
        | none => rfl
        | some p =>
          refine congrArg some (hnamed fun hs => ?_).symm
          obtain ⟨a, ha, rfl⟩ := Array.mem_iff_getElem.mp hx
          refine Nat.lt_trans (hs.1 a p ?_) ha
          simpa [Store.scope, ha] using hparent
      · cases hactive : x.activeError with
        | none => rfl
        | some a => exact congrArg some (hkeeps.error (hs.active x hx a hactive)).symm
      · exact eq_map_of_forall (fun b hb => hbinding (hs.bindings x hx b (List.mem_filter.mp hb).1))
      · exact hs.bindings x hx b (List.mem_filter.mp hb).1
    lists := hst.lists.of_eq (fun xs hxs => hvalues (hs.lists xs hxs))
    iterables := hst.iterables.of_eq (fun xs hxs => hvalues (hs.iterables xs hxs))
    sets := hst.sets.of_eq (fun xs hxs => hvalues (hs.sets xs hxs))
    maps := by
      refine hst.maps.of_eq (fun xs hxs => ⟨eq_map_of_forall (fun e he => ?_), hs.maps xs hxs⟩)
      have hentry := hs.maps xs hxs e he
      exact congrArg₂ Prod.mk (hkeeps _ hentry.1) (hkeeps _ hentry.2)
    closures := hst.closures.of_eq
      (fun f hf => ⟨by rw [hnamed fun hs => hs.2 f hf], hfit f.body, fun p _ => hhidden p⟩)
    natives := by
      refine hst.natives.of_eq (fun f hf => ⟨?_, hs.natives f hf, by simp [hobjects]⟩)
      rw [hkeeps.native (hs.natives f hf)]
    errors := by
      refine hst.errors.of_eq (fun e he => ?_)
      have hplace := hs.places e he
      refine ⟨(hkeeps.fault (hs.faults e he)).symm, hs.faults e he, by simp [hhandled], ⟨?_, fun b hb => ?_⟩,
        (hkeeps.hostValue hplace.1).symm, (hkeeps.hostValue hplace.2).symm, rfl, by simp [hplaced], by simp [hplaced],
        fun _ => hplace⟩
      · exact eq_map_of_forall (fun b hb => hattribute (hs.noted e he b (List.mem_filter.mp hb).1))
      · exact hs.noted e he b (List.mem_filter.mp hb).1
    objects := by
      refine hst.objects.of_eq (fun o ho => ⟨rfl, eq_map_of_forall (fun b hb => ?_), hs.attributes o ho⟩)
      exact hattribute (hs.attributes o ho b hb)
    globals := by
      rw [hst.globals]
      exact ⟨eq_map_of_forall (fun b hb => hbinding (hs.globals b hb)), hs.globals⟩
    output := hst.output
    sameObjects := fun _ => ⟨hobject, hst.input⟩
    noObjects := fun hnone => by simp [hobjects] at hnone
    ordered := hnested }

/-- A store runs in parallel with the one that has more native functions, if what it holds keeps its
addresses. -/
theorem tables_more {more : Array NativeFunction} (hw : w.shifts = .natives start more.size)
    (hbefore : ∀ a < s.natives.size, (⟨start, more.size⟩ : Shift).apply a = a) (hstart : start ≤ s.natives.size)
    (hfit : ∀ b, w.Fit b) (hhidden : ∀ name, w.hidden name = false) (hplaced : w.placed = false)
    (hhandled : w.handled = false) (hobjects : w.objects = true) (hkeeps : w.shifts.Keeps K) (hs : s.HoldsOnly K) :
    w.Tables K s { s with natives := s.natives ++ more } := by
  have hnatives : Corresponds ⟨start, more.size⟩ Eq s.natives (s.natives ++ more) := by
    refine ⟨hstart, Array.size_append, fun a f hf => ⟨f, ?_, rfl⟩⟩
    have ha : a < s.natives.size := (Array.getElem?_eq_some_iff.mp hf).1
    rw [hbefore a ha, Array.getElem?_append_left ha, hf]
  have hgap : w.shifts.scope.gap = 0 ∧ w.shifts.object.gap = 0 := by rw [hw]; exact ⟨rfl, rfl⟩
  refine tables_within ?_ hkeeps hs (fun a _ => Shift.apply_of_gap hgap.1 a) (absurd hgap.1) hgap.2 hfit hhidden hplaced
    hhandled hobjects
  have hself {α : Type} (xs : Array α) : Corresponds .stay Eq xs xs := corresponds_self fun _ _ => rfl
  rw [hw]
  exact ⟨hself _, hself _, hself _, hself _, hself _, hself _, hnatives, hself _, hself _, rfl, rfl, rfl⟩

/-- The first of two parallel stores holds only what programs may, if that is asked of places. -/
theorem Tables.holdsOnly {t : Store} (hhidden : ∀ name, w.hidden name = false) (hplaced : w.placed = false)
    (hheld : w.closed = true ∨ w.listed = true) (h : w.Tables K s t) : s.HoldsOnly K where
  toHolds := h.holds hhidden
  places := forall_mem_of_corresponds h.errors (fun _ _ hee' => hee'.place hheld)
  noted := forall_mem_of_corresponds h.errors (fun _ _ hee' b hb =>
    hee'.assigned.known b (List.mem_filter.mpr ⟨hb, by simp [hplaced]⟩))

end Comparison

end Kept

end Dartlet
