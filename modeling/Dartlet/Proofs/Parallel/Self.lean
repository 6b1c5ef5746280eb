import Dartlet.Proofs.Parallel.Statements

/-!
# A store beside itself

Where no address changes, every store runs in parallel with itself, provided that the errors in it are
those that programs may hold; and two stores that run in parallel are then equal apart from hidden
names and notes.
-/

namespace Dartlet

open Dartlet.Syntax (FunctionBody)

/-- The errors and native functions in the tables of a store, notes apart, are among given ones. -/
structure Store.Holds (K : Value → Prop) (s : Store) : Prop where
  bindings : ∀ x ∈ s.scopes, ∀ b ∈ x.bindings, b.2.Known K
  active : ∀ x ∈ s.scopes, ∀ a, x.activeError = some a → K (.error a)
  lists : ∀ xs ∈ s.lists, ∀ v ∈ xs.toList, v.Known K
  iterables : ∀ xs ∈ s.iterables, ∀ v ∈ xs, v.Known K
  sets : ∀ xs ∈ s.sets, ∀ v ∈ xs, v.Known K
  maps : ∀ xs ∈ s.maps, ∀ e ∈ xs, e.1.Known K ∧ e.2.Known K
  natives : ∀ f ∈ s.natives, f.code.Known K
  faults : ∀ e ∈ s.errors, e.fault.Known K
  assigned : ∀ e ∈ s.errors, ∀ b ∈ e.assigned, b.1 ≠ noteName → b.2.Known K
  attributes : ∀ o ∈ s.objects, ∀ b ∈ o.attributes, b.2.Known K
  globals : ∀ b ∈ s.globals, b.2.Known K

namespace HostFunction

theorem known_of_forall {K : Value → Prop} (hK : ∀ a, K a) (f : HostFunction) : f.Known K := by
  cases f with
  | callback g => exact Value.known_of_forall hK g
  | errorMethod a m => exact hK _
  | _ => trivial

end HostFunction

theorem NativeCode.known_of_forall {K : Value → Prop} (hK : ∀ a, K a) (code : NativeCode) : code.Known K := by
  cases code with
  | bound receiver m => exact Value.known_of_forall hK receiver
  | host f => exact f.known_of_forall hK
  | _ => trivial

theorem Fault.known_of_forall {K : Value → Prop} (hK : ∀ a, K a) (f : Fault) : f.Known K := by
  cases f with
  | noMember receiver typeName name => exact Value.known_of_forall hK receiver
  | thrown value shown => exact Value.known_of_forall hK value
  | _ => trivial

theorem Store.holds_of_forall {K : Value → Prop} (hK : ∀ a, K a) (s : Store) : s.Holds K where
  bindings _ _ _ _ := Value.known_of_forall hK _
  active _ _ _ _ := hK _
  lists _ _ _ _ := Value.known_of_forall hK _
  iterables _ _ _ _ := Value.known_of_forall hK _
  sets _ _ _ _ := Value.known_of_forall hK _
  maps _ _ _ _ := ⟨Value.known_of_forall hK _, Value.known_of_forall hK _⟩
  natives _ _ := NativeCode.known_of_forall hK _
  faults _ _ := Fault.known_of_forall hK _
  assigned _ _ _ _ _ := HostValue.known_of_forall hK _
  attributes _ _ _ _ := HostValue.known_of_forall hK _
  globals _ _ := Value.known_of_forall hK _

theorem shiftBinding_stay (b : String × Value) : shiftBinding .stay b = b := by simp [shiftBinding]

theorem shiftPair_stay (e : Value × Value) : shiftPair .stay e = e := by simp [shiftPair]

theorem shiftAttribute_stay (e : String × HostValue) : shiftAttribute .stay e = e := by
  simp [shiftAttribute, HostValue.shift_stay]

@[simp] theorem Shift.map_stay (a : Option Address) : a.map Shift.stay.apply = a := by cases a <;> simp

@[simp] theorem Completion.shift_stay (k : Completion) : k.shift .stay = k := by cases k <;> simp [Completion.shift]

namespace Comparison

/-- The comparison of runs that differ only in what hidden names are bound to and in notes. -/
def apart (hidden : String → Bool) (placed handled : Bool) (Fit : FunctionBody → Prop) : Comparison :=
  { shifts := .stay, hidden, objects := true, placed, handled, Fit }

/-- The comparison of runs that differ in nothing but notes. -/
def exact (placed handled : Bool) (Fit : FunctionBody → Prop) : Comparison := apart (fun _ => false) placed handled Fit

variable {hidden : String → Bool} {placed handled : Bool} {Fit : FunctionBody → Prop} {s t : Store} {K : Value → Prop}

theorem exact_known (s : Store) (v : Value) : (exact false handled Fit).Known s v := known_all rfl rfl rfl s v

theorem move_of_stay {w : Comparison} (hw : w.shifts.scope = .stay) (c : Context) : w.move c = c := by
  rw [move, hw, Shift.apply_stay]

theorem move_exact (c : Context) : (exact placed handled Fit).move c = c := move_of_stay rfl c

/-! ### Beside itself -/

theorem corresponds_self {α : Type} {R : α → α → Prop} {xs : Array α} (h : ∀ x ∈ xs, R x x) :
    Corresponds .stay R xs xs := by
  refine ⟨Nat.zero_le _, rfl, fun a x hx => ⟨x, ?_, h x (Array.mem_of_getElem? hx)⟩⟩
  rw [Shift.apply_stay]
  exact hx

/-- What holds of all entries that can have a counterpart holds of the whole table. -/
theorem forall_mem_of_corresponds {α β : Type} {σ : Shift} {R : α → β → Prop} {P : α → Prop} {xs : Array α} {ys : Array β}
    (h : Corresponds σ R xs ys) (hP : ∀ x y, R x y → P x) : ∀ x ∈ xs, P x := by
  intro x hx
  obtain ⟨a, ha⟩ := Array.mem_iff_getElem?.mp hx
  obtain ⟨y, -, hxy⟩ := h.entry a x ha
  exact hP x y hxy

/-- A store in which programs hold only what they may runs in parallel with itself, whatever has been
noted about its errors. -/
theorem tables_beside (hs : s.Holds K) (hclosures : ∀ f ∈ s.closures, Fit f.body)
    (hparameters : ∀ f ∈ s.closures, ∀ p ∈ f.parameters, hidden p = false) {errors : Array ErrorRecord}
    (herrors : Corresponds .stay ((apart hidden placed handled Fit).RecordsAlike K) s.errors errors) :
    (apart hidden placed handled Fit).Tables K s { s with errors := errors } where
  scopes := corresponds_self (fun x hx => by
    refine ⟨?_, ?_, ⟨?_, fun b hb => hs.bindings x hx b (List.mem_filter.mp hb).1⟩, hs.active x hx⟩
    · simp [apart, Shifts.stay]
    · simp [apart, Shifts.stay]
    · simp [apart, funext shiftBinding_stay])
  lists := corresponds_self (fun xs hxs => ⟨by simp [apart, funext Value.shift_stay], hs.lists xs hxs⟩)
  iterables := corresponds_self (fun xs hxs => ⟨by simp [apart, funext Value.shift_stay], hs.iterables xs hxs⟩)
  sets := corresponds_self (fun xs hxs => ⟨by simp [apart, funext Value.shift_stay], hs.sets xs hxs⟩)
  maps := corresponds_self (fun xs hxs => ⟨by simp [apart, funext shiftPair_stay], hs.maps xs hxs⟩)
  closures := corresponds_self (fun f hf => ⟨by simp [apart, Shifts.stay], hclosures f hf, hparameters f hf⟩)
  natives := corresponds_self (fun f hf => ⟨by simp [apart], hs.natives f hf, nofun⟩)
  errors := herrors
  objects := corresponds_self (fun o ho => ⟨rfl, by simp [apart, funext shiftAttribute_stay], hs.attributes o ho⟩)
  globals := ⟨by simp [apart, funext shiftBinding_stay], hs.globals⟩
  output := rfl
  sameObjects _ := ⟨rfl, rfl⟩
  noObjects := nofun
  ordered h := absurd rfl h

theorem tables_self (hK : ∀ a, K a) (hclosures : ∀ f ∈ s.closures, Fit f.body)
    (hparameters : ∀ f ∈ s.closures, ∀ p ∈ f.parameters, hidden p = false)
    (hfaults : handled = true → ∀ e ∈ s.errors, e.fault ≠ .rethrowOutsideCatch) :
    (apart hidden false handled Fit).Tables K s s := by
  refine tables_beside (s.holds_of_forall hK) hclosures hparameters (corresponds_self (fun e he => ?_))
  refine ⟨?_, e.fault.known_of_forall hK, fun h => hfaults h e he, ⟨?_, fun b _ => ?_⟩, ?_, ?_, rfl, nofun, nofun, nofun⟩
  · simp [apart]
  · simp [apart, funext shiftAttribute_stay]
  · exact b.2.known_of_forall hK
  · exact (HostValue.shift_stay _).symm
  · exact (HostValue.shift_stay _).symm

/-- The first of two parallel stores holds only what programs may. -/
theorem Tables.holds {w : Comparison} (hhidden : ∀ name, w.hidden name = false) (h : w.Tables K s t) : s.Holds K where
  bindings := forall_mem_of_corresponds h.scopes (fun x _ hxy b hb =>
    hxy.bindings.known b (List.mem_filter.mpr ⟨hb, by simp [hhidden]⟩))
  active := forall_mem_of_corresponds h.scopes (fun _ _ hxy => hxy.active)
  lists := forall_mem_of_corresponds h.lists (fun _ _ hxy => hxy.known)
  iterables := forall_mem_of_corresponds h.iterables (fun _ _ hxy => hxy.known)
  sets := forall_mem_of_corresponds h.sets (fun _ _ hxy => hxy.known)
  maps := forall_mem_of_corresponds h.maps (fun _ _ hxy => hxy.known)
  natives := forall_mem_of_corresponds h.natives (fun _ _ hfg => hfg.known)
  faults := forall_mem_of_corresponds h.errors (fun _ _ hee' => hee'.known)
  assigned := forall_mem_of_corresponds h.errors (fun _ _ hee' b hb hname =>
    hee'.assigned.known b (List.mem_filter.mpr ⟨hb, by simp [hname]⟩))
  attributes := forall_mem_of_corresponds h.objects (fun _ _ hxy => hxy.attributes.known)
  globals := h.globals.known

/-! ### Equal stores -/

theorem eq_of_corresponds {α : Type} {R : α → α → Prop} {xs ys : Array α} (h : Corresponds .stay R xs ys)
    (hR : ∀ x y, R x y → y = x) : ys = xs := by
  apply Array.ext_getElem?
  intro a
  have ha : Shift.stay.apply a = a := Shift.apply_stay a
  cases hx : xs[a]? with
  | none =>
    have hy := h.missing hx
    rwa [ha] at hy
  | some x =>
    obtain ⟨y, hy, hxy⟩ := h.entry a x hx
    rw [ha] at hy
    rw [hy, hR x y hxy]

theorem scopes_eq_of_tables (h : (exact placed handled Fit).Tables K s t) : t.scopes = s.scopes :=
  eq_of_corresponds h.scopes (fun x y hxy => by
    obtain ⟨parent, bindings, activeError⟩ := x
    obtain ⟨parent', bindings', activeError'⟩ := y
    have hparent : parent' = parent := by simpa [exact, apart, Shifts.stay] using hxy.parent
    have hactive : activeError' = activeError := by simpa [exact, apart, Shifts.stay] using hxy.activeError
    have hbindings : bindings' = bindings := by
      simpa [exact, apart, shown, funext shiftBinding_stay] using hxy.bindings.same
    rw [hparent, hactive, hbindings])

theorem errors_eq_of_tables (h : (apart hidden false handled Fit).Tables K s t) : t.errors = s.errors :=
  eq_of_corresponds h.errors (fun e e' hee' => by
    obtain ⟨fault, line, column, located, assigned⟩ := e
    obtain ⟨fault', line', column', located', assigned'⟩ := e'
    have hfault : fault' = fault := by simpa [apart] using hee'.fault
    have hline : line' = line := hee'.line.trans (HostValue.shift_stay line)
    have hcolumn : column' = column := hee'.column.trans (HostValue.shift_stay column)
    have hlocated : located' = located := hee'.located
    have hassigned : assigned' = assigned := by
      simpa [apart, visible, funext shiftAttribute_stay] using hee'.assigned.same
    rw [hfault, hline, hcolumn, hlocated, hassigned])

/-- Two stores are the same apart from their scopes and errors. -/
theorem data_eq_of_tables (h : (apart hidden placed handled Fit).Tables K s t) :
    { t with scopes := s.scopes, errors := s.errors } = s := by
  have hvalues (xs ys : List Value) (hxy : (apart hidden placed handled Fit).Values K xs ys) : ys = xs := by
    simpa [apart, funext Value.shift_stay] using hxy.same
  have hlists : t.lists = s.lists :=
    eq_of_corresponds h.lists (fun xs ys hxy => Array.toList_inj.mp (hvalues _ _ hxy))
  have hiterables : t.iterables = s.iterables := eq_of_corresponds h.iterables hvalues
  have hsets : t.sets = s.sets := eq_of_corresponds h.sets hvalues
  have hmaps : t.maps = s.maps := eq_of_corresponds h.maps (fun xs ys hxy => by
    simpa [apart, funext shiftPair_stay] using hxy.same)
  have hclosures : t.closures = s.closures := eq_of_corresponds h.closures (fun f g hfg => by
    simpa [apart, Shifts.stay] using hfg.same)
  have hnatives : t.natives = s.natives := eq_of_corresponds h.natives (fun f g hfg => by
    simpa [apart] using hfg.same)
  have hobjects : t.objects = s.objects := eq_of_corresponds h.objects (fun x y hxy => by
    obtain ⟨kind, attributes⟩ := x
    obtain ⟨kind', attributes'⟩ := y
    have hkind : kind' = kind := hxy.kind
    have hsame : attributes' = attributes := by
      simpa [apart, funext shiftAttribute_stay] using hxy.attributes.same
    rw [hkind, hsame])
  have hglobals : t.globals = s.globals := by simpa [apart, funext shiftBinding_stay] using h.globals.same
  have hinput := (h.sameObjects rfl).2
  have houtput := h.output
  cases s
  cases t
  simp_all

/-- Two stores with nothing left out are the same. -/
theorem eq_of_tables (h : (exact false handled Fit).Tables K s t) : t = s := by
  have hdata := data_eq_of_tables h
  rwa [← scopes_eq_of_tables h, ← errors_eq_of_tables h] at hdata

/-- Actions that run alike from one store, with nothing left out, come to the same. -/
theorem eq_of_matches {α : Type} {handled : Bool} {Fit : FunctionBody → Prop} {inside : Bool}
    {P : Store → Store → Address → Prop} {Q : Store → Store → α → α → Prop} {s t : Store} {o o' : Outcome α}
    (hQ : ∀ s' t' a b, Q s' t' a b → b = a) (h : (exact false handled Fit).Matches inside P Q s t o o') : o' = o := by
  cases h with
  | done hq hf => rw [hQ _ _ _ _ hq, eq_of_tables hf.parallel]
  | raised hp hf =>
    rw [eq_of_tables hf.parallel]
    exact congrArg (fun a => Outcome.raised a _) (Shift.apply_stay _)
  | escaped hfail hf => rw [eq_of_tables hf.parallel]
  | exhausted hf => rw [eq_of_tables hf.parallel]
  | gaveUp hw => cases hw

theorem Val.eq {handled : Bool} {Fit : FunctionBody → Prop} {s t : Store} {v v' : Value}
    (h : (exact false handled Fit).Val s t v v') : v' = v := by simpa [exact, apart] using h.same

theorem Com.eq {handled : Bool} {Fit : FunctionBody → Prop} {s t : Store} {k k' : Completion}
    (h : (exact false handled Fit).Com s t k k') : k' = k := by simpa [exact, apart] using h.same

end Comparison
end Dartlet
