import Dartlet.Host.Placing
import Dartlet.Proofs.Parallel.Limits
import Dartlet.Proofs.Parallel.Shift

/-!
# Stores that run in parallel

Two runs keep in step if at every point each table of the second store has, at shifted addresses,
what the table of the first has. A comparison says what else the two may differ in and what else
holds of them. All steps of a program are made of the few changes of tables below.
-/

namespace Dartlet

open Dartlet.Syntax (FunctionBody)

/-! ### Tables -/

/-- What is in a table stays there when it grows. -/
theorem Array.getElem?_push_of_some {α : Type} {xs : Array α} {a : Nat} {x : α} (y : α) (h : xs[a]? = some x) :
    (xs.push y)[a]? = some x := by
  obtain ⟨ha, rfl⟩ := Array.getElem?_eq_some_iff.mp h
  exact Array.getElem?_push_lt ha

/-- Two tables of which the second has at shifted addresses what the first has. -/
structure Corresponds {α β : Type} (σ : Shift) (R : α → β → Prop) (xs : Array α) (ys : Array β) : Prop where
  start : σ.start ≤ xs.size
  size : ys.size = xs.size + σ.gap
  entry : ∀ (a : Nat) (x : α), xs[a]? = some x → ∃ y, ys[σ.apply a]? = some y ∧ R x y

namespace Corresponds

variable {α β : Type} {σ : Shift} {R R' : α → β → Prop} {xs : Array α} {ys : Array β}

/-- What is new in both tables gets corresponding addresses. -/
theorem fresh (h : Corresponds σ R xs ys) : ys.size = σ.apply xs.size := by
  rw [σ.apply_of_le h.start, h.size]

theorem missing (h : Corresponds σ R xs ys) {a : Nat} (ha : xs[a]? = none) : ys[σ.apply a]? = none := by
  have hsize : xs.size ≤ a := Array.getElem?_eq_none_iff.mp ha
  have hstart := h.start
  have hsizes := h.size
  rw [σ.apply_of_le (Nat.le_trans hstart hsize), Array.getElem?_eq_none_iff]
  omega

theorem mono (h : Corresponds σ R xs ys) (hR : ∀ x y, R x y → R' x y) : Corresponds σ R' xs ys := by
  refine ⟨h.start, h.size, fun a x hx => ?_⟩
  obtain ⟨y, hy, hxy⟩ := h.entry a x hx
  exact ⟨y, hy, hR x y hxy⟩

theorem push (h : Corresponds σ R xs ys) {x : α} {y : β} (hxy : R x y) : Corresponds σ R (xs.push x) (ys.push y) := by
  have hsizes := h.size
  refine ⟨?_, ?_, fun a z hz => ?_⟩
  · have hstart := h.start
    rw [Array.size_push]
    omega
  · rw [Array.size_push, Array.size_push]
    omega
  · by_cases ha : a = xs.size
    · subst ha
      rw [Array.getElem?_push_size] at hz
      obtain rfl := Option.some.inj hz
      rw [← h.fresh]
      exact ⟨y, Array.getElem?_push_size, hxy⟩
    · rw [Array.getElem?_push, if_neg ha] at hz
      obtain ⟨y', hy', hxy'⟩ := h.entry a z hz
      refine ⟨y', ?_, hxy'⟩
      have hne : σ.apply a ≠ ys.size := by
        rw [h.fresh]
        exact fun heq => ha (σ.apply_inj.mp heq)
      rw [Array.getElem?_push, if_neg hne]
      exact hy'

/-- A change of one entry in both tables. -/
theorem modify (h : Corresponds σ R xs ys) {a : Nat} {f : α → α} {g : β → β}
    (hfg : ∀ x y, xs[a]? = some x → R x y → R (f x) (g y)) :
    Corresponds σ R (xs.modify a f) (ys.modify (σ.apply a) g) := by
  refine ⟨by simpa using h.start, by simpa using h.size, fun b x hx => ?_⟩
  rw [Array.getElem?_modify] at hx
  split at hx
  · rename_i hab
    subst hab
    obtain ⟨z, hz, rfl⟩ := Option.map_eq_some_iff.mp hx
    obtain ⟨y, hy, hzy⟩ := h.entry _ z hz
    refine ⟨g y, ?_, hfg z y hz hzy⟩
    rw [Array.getElem?_modify, if_pos rfl, hy]
    rfl
  · rename_i hab
    obtain ⟨y, hy, hxy⟩ := h.entry b x hx
    refine ⟨y, ?_, hxy⟩
    rw [Array.getElem?_modify, if_neg (fun heq => hab (σ.apply_inj.mp heq))]
    exact hy

theorem set (h : Corresponds σ R xs ys) (a : Nat) {x : α} {y : β} (hxy : R x y) :
    Corresponds σ R (xs.setIfInBounds a x) (ys.setIfInBounds (σ.apply a) y) := by
  refine ⟨by simpa using h.start, by simpa using h.size, fun b z hz => ?_⟩
  rw [Array.getElem?_setIfInBounds] at hz
  split at hz
  · rename_i hab
    subst hab
    split at hz
    · obtain rfl := Option.some.inj hz
      refine ⟨y, ?_, hxy⟩
      obtain ⟨y', hy', -⟩ := h.entry a _ (Array.getElem?_eq_getElem ‹_›)
      have hlt := (Array.getElem?_eq_some_iff.mp hy').1
      rw [Array.getElem?_setIfInBounds, if_pos rfl, if_pos hlt]
    · cases hz
  · rename_i hab
    obtain ⟨y', hy', hzy⟩ := h.entry b z hz
    refine ⟨y', ?_, hzy⟩
    rw [Array.getElem?_setIfInBounds, if_neg (fun heq => hab (σ.apply_inj.mp heq))]
    exact hy'

/-- Reading a table, with what stands for an entry that is not there. -/
theorem getD (h : Corresponds σ R xs ys) (a : Nat) {x : α} {y : β} (hxy : R x y) :
    R (xs[a]?.getD x) (ys[σ.apply a]?.getD y) := by
  cases hx : xs[a]? with
  | none => simpa [h.missing hx] using hxy
  | some z =>
    obtain ⟨z', hz', hzz'⟩ := h.entry a z hx
    simpa [hz'] using hzz'

end Corresponds

/-! ### Comparisons -/

/-- An error whose place is that of a construct. -/
def ErrorRecord.HasPlace (e : ErrorRecord) : Prop :=
  e.located = true ∧ ∃ p : Syntax.Position, e.line = .int p.line ∧ e.column = .int p.column

/-- The private name under which a run may note the places of errors. Programs cannot reach it. -/
def noteName : String := "_place"

/-- The place that has been noted for an error. -/
def ErrorRecord.note? (e : ErrorRecord) : Option HostValue := tableFind? e.assigned noteName

/-- The place of an error, as it is noted. -/
def ErrorRecord.place (e : ErrorRecord) : HostValue := .list [e.line, e.column]

/-- The members of errors that hold their places, and the one that is told them. -/
def placeMembers : List String := ["line", "column", "attach_location"]

/-- Two states of an error with the same place and the same note, or without one. -/
structure ErrorRecord.SamePlace (e e' : ErrorRecord) : Prop where
  located : e'.located = e.located
  line : e'.line = e.line
  column : e'.column = e.column
  note : e'.note? = e.note?

/-- What two runs may differ in, and what holds of both throughout. -/
structure Comparison where
  /-- How far the addresses of the second run are ahead. -/
  shifts : Shifts
  /-- The names that may be bound to anything in either run. -/
  hidden : String → Bool
  /-- Whether the programs may use objects of the host; these are then the same in both runs. -/
  objects : Bool
  /-- Whether the errors that programs hold have a place, and the second run has noted the places. -/
  placed : Bool
  /-- Whether every error that is raised again is being handled. -/
  handled : Bool
  /-- The function bodies that programs have. -/
  Fit : FunctionBody → Prop
  /-- Whether the native functions that programs hold are in the store. -/
  closed : Bool := false
  /-- Whether the lists that programs hold are in the store. -/
  listed : Bool := false
  /-- Whether the second run may have more levels, so that it goes on where the first gives up. -/
  lenient : Bool := false

namespace Comparison

variable (w : Comparison) (K : Value → Prop)

/-- The errors, native functions and lists that a program may hold. -/
def Known (s : Store) : Value → Prop
  | .error a => w.placed = true → ∃ e, s.errors[a]? = some e ∧ e.HasPlace
  | .native a => w.closed = true → a < s.natives.size
  | .list a => w.listed = true → a < s.lists.size
  | _ => True

/-- Where nothing is said of errors, native functions and lists, programs may hold any. -/
theorem known_all {w : Comparison} (hplaced : w.placed = false) (hclosed : w.closed = false) (hlisted : w.listed = false)
    (s : Store) (v : Value) : w.Known s v := by
  cases v with
  | error a => exact fun hw => absurd hw (by simp [hplaced])
  | native a => exact fun hw => absurd hw (by simp [hclosed])
  | list a => exact fun hw => absurd hw (by simp [hlisted])
  | _ => trivial

/-- Corresponding values. -/
structure Values (xs ys : List Value) : Prop where
  same : ys = xs.map (Value.shift w.shifts)
  known : ∀ v ∈ xs, v.Known K

/-- Corresponding lists. -/
def Arrays (xs ys : Array Value) : Prop := w.Values K xs.toList ys.toList

/-- Corresponding entries of maps. -/
structure Pairs (xs ys : List (Value × Value)) : Prop where
  same : ys = xs.map (shiftPair w.shifts)
  known : ∀ e ∈ xs, e.1.Known K ∧ e.2.Known K

/-- Corresponding bindings of names. -/
structure Bindings (xs ys : List (String × Value)) : Prop where
  same : ys = xs.map (shiftBinding w.shifts)
  known : ∀ b ∈ xs, b.2.Known K

/-- Corresponding attributes. -/
structure Attributes (xs ys : List (String × HostValue)) : Prop where
  same : ys = xs.map (shiftAttribute w.shifts)
  known : ∀ e ∈ xs, e.2.Known K

/-- The bindings that are compared. -/
def shown (bindings : List (String × Value)) : List (String × Value) := bindings.filter (fun b => !w.hidden b.1)

/-- Corresponding scopes. -/
structure ScopesAlike (x y : Scope) : Prop where
  parent : y.parent = x.parent.map w.shifts.scope.apply
  activeError : y.activeError = x.activeError.map w.shifts.error.apply
  bindings : w.Bindings K (w.shown x.bindings) (w.shown y.bindings)
  active : ∀ a, x.activeError = some a → K (.error a)

/-- Corresponding functions of programs. -/
structure ClosuresAlike (f g : Closure) : Prop where
  same : g = { f with scope := w.shifts.scope.apply f.scope }
  fit : w.Fit f.body
  parameters : ∀ p ∈ f.parameters, w.hidden p = false

/-- Corresponding native functions. -/
structure NativesAlike (f g : NativeFunction) : Prop where
  same : g = ⟨f.name, f.code.shift w.shifts⟩
  known : f.code.Known K
  objects : w.objects = false → f.code.usesObjects = false

/-- The attributes of errors that are compared: all but the notes, where places are noted. -/
def visible (attributes : List (String × HostValue)) : List (String × HostValue) :=
  attributes.filter (fun b => !(w.placed && b.1 == noteName))

/-- Corresponding errors. -/
structure RecordsAlike (e e' : ErrorRecord) : Prop where
  fault : e'.fault = e.fault.shift w.shifts
  known : e.fault.Known K
  handled : w.handled = true → e.fault ≠ .rethrowOutsideCatch
  assigned : w.Attributes K (w.visible e.assigned) (w.visible e'.assigned)
  line : e'.line = e.line.shift w.shifts
  column : e'.column = e.column.shift w.shifts
  located : e'.located = e.located
  noted : w.placed = true → e.located = true → e'.note? = some e'.place
  unhooked : w.placed = true → e.hook? = none
  place : w.closed = true ∨ w.listed = true → e.line.Known K ∧ e.column.Known K

/-- Corresponding objects of the host. -/
structure ObjectsAlike (x y : HostObject) : Prop where
  kind : y.kind = x.kind
  attributes : w.Attributes K x.attributes y.attributes

/-- Two stores with corresponding tables, in which the errors in values are among given ones. -/
structure Tables (s t : Store) : Prop where
  scopes : Corresponds w.shifts.scope (w.ScopesAlike K) s.scopes t.scopes
  lists : Corresponds w.shifts.list (w.Arrays K) s.lists t.lists
  iterables : Corresponds w.shifts.iterable (w.Values K) s.iterables t.iterables
  sets : Corresponds w.shifts.set (w.Values K) s.sets t.sets
  maps : Corresponds w.shifts.map (w.Pairs K) s.maps t.maps
  closures : Corresponds w.shifts.closure w.ClosuresAlike s.closures t.closures
  natives : Corresponds w.shifts.native (w.NativesAlike K) s.natives t.natives
  errors : Corresponds w.shifts.error (w.RecordsAlike K) s.errors t.errors
  objects : Corresponds w.shifts.object (w.ObjectsAlike K) s.objects t.objects
  globals : w.Bindings K s.globals t.globals
  output : t.output = s.output
  /-- Objects are the same in both stores, with what is left to read. -/
  sameObjects : w.objects = true → w.shifts.object.gap = 0 ∧ t.input = s.input
  /-- The first store has no objects. -/
  noObjects : w.objects = false → s.objects = #[]
  /-- Scopes lead outward to older ones, so that the number of scopes does not matter. -/
  ordered : w.shifts.scope.gap ≠ 0 → s.Descends ∧ ∀ f ∈ s.closures, f.scope < s.scopes.size

/-- Two stores of runs that are in step. -/
def Parallel (s t : Store) : Prop := w.Tables (w.Known s) s t

/-- A store that a run comes to from another one: scopes and native functions stay where they are, no
list goes away, and neither the errors of scopes nor, where they are noted, the places of errors ever change. -/
structure Later (s s' : Store) : Prop where
  scopes : ∀ (a : Nat) (x : Scope), s.scopes[a]? = some x →
    ∃ y, s'.scopes[a]? = some y ∧ y.parent = x.parent ∧ y.activeError = x.activeError
  errors : ∀ (a : Nat) (e : ErrorRecord), s.errors[a]? = some e →
    ∃ e', s'.errors[a]? = some e' ∧ (w.placed = true → e.SamePlace e')
  natives : ∀ (a : Nat) (f : NativeFunction), s.natives[a]? = some f → s'.natives[a]? = some f
  lists : s.lists.size ≤ s'.lists.size

/-- Two stores that runs come to in step. -/
structure Follows (s t s' t' : Store) : Prop where
  parallel : w.Parallel s' t'
  first : w.Later s s'
  second : w.Later t t'

/-! ### More errors that programs may hold -/

section Mono

variable {w K} {L : Value → Prop} (hKL : ∀ a, K a → L a)
include hKL

theorem Values.mono {xs ys : List Value} (h : w.Values K xs ys) : w.Values L xs ys :=
  ⟨h.same, fun v hv => (h.known v hv).mono hKL⟩

theorem Pairs.mono {xs ys : List (Value × Value)} (h : w.Pairs K xs ys) : w.Pairs L xs ys :=
  ⟨h.same, fun e he => ⟨(h.known e he).1.mono hKL, (h.known e he).2.mono hKL⟩⟩

theorem Bindings.mono {xs ys : List (String × Value)} (h : w.Bindings K xs ys) : w.Bindings L xs ys :=
  ⟨h.same, fun b hb => (h.known b hb).mono hKL⟩

theorem Attributes.mono {xs ys : List (String × HostValue)} (h : w.Attributes K xs ys) : w.Attributes L xs ys :=
  ⟨h.same, fun e he => (h.known e he).mono hKL⟩

theorem ScopesAlike.mono {x y : Scope} (h : w.ScopesAlike K x y) : w.ScopesAlike L x y :=
  ⟨h.parent, h.activeError, h.bindings.mono hKL, fun a ha => hKL _ (h.active a ha)⟩

theorem NativesAlike.mono {f g : NativeFunction} (h : w.NativesAlike K f g) : w.NativesAlike L f g :=
  ⟨h.same, h.known.mono hKL, h.objects⟩

theorem RecordsAlike.mono {e e' : ErrorRecord} (h : w.RecordsAlike K e e') : w.RecordsAlike L e e' :=
  { h with
    known := h.known.mono hKL
    assigned := h.assigned.mono hKL
    place := fun hw => (h.place hw).imp (HostValue.Known.mono hKL _) (HostValue.Known.mono hKL _) }

theorem ObjectsAlike.mono {x y : HostObject} (h : w.ObjectsAlike K x y) : w.ObjectsAlike L x y :=
  ⟨h.kind, h.attributes.mono hKL⟩

theorem Tables.mono {s t : Store} (h : w.Tables K s t) : w.Tables L s t :=
  { h with
    scopes := h.scopes.mono (fun _ _ hxy => hxy.mono hKL)
    lists := h.lists.mono (fun _ _ hxy => Values.mono hKL hxy)
    iterables := h.iterables.mono (fun _ _ hxy => hxy.mono hKL)
    sets := h.sets.mono (fun _ _ hxy => hxy.mono hKL)
    maps := h.maps.mono (fun _ _ hxy => hxy.mono hKL)
    natives := h.natives.mono (fun _ _ hxy => hxy.mono hKL)
    errors := h.errors.mono (fun _ _ hxy => hxy.mono hKL)
    objects := h.objects.mono (fun _ _ hxy => hxy.mono hKL)
    globals := h.globals.mono hKL }

end Mono

/-! ### Later stores -/

section Later

variable {w} {s s' s'' t t' t'' : Store}

theorem Later.of_same (hscopes : s'.scopes = s.scopes) (herrors : s'.errors = s.errors)
    (hnatives : s'.natives = s.natives) (hlists : s.lists.size ≤ s'.lists.size) : w.Later s s' := by
  refine ⟨fun a x hx => ⟨x, hscopes ▸ hx, rfl, rfl⟩, fun a e he => ⟨e, herrors ▸ he, fun _ => ?_⟩,
    fun a f hf => hnatives ▸ hf, hlists⟩
  exact ⟨rfl, rfl, rfl, rfl⟩

theorem Later.of_data (h : (s'.scopes, s'.errors, s'.natives, s'.lists) = (s.scopes, s.errors, s.natives, s.lists)) :
    w.Later s s' := by
  obtain ⟨hscopes, herrors, hnatives, hlists⟩ : _ ∧ _ ∧ _ ∧ _ := by simpa only [Prod.mk.injEq] using h
  exact .of_same hscopes herrors hnatives (Nat.le_of_eq (congrArg Array.size hlists.symm))

theorem Later.addList (items : Array Value) : w.Later s (s.addList items).2 :=
  .of_same rfl rfl rfl (by simp [Store.addList])

theorem Later.setList (a : Address) (items : Array Value) : w.Later s (s.setList a items) :=
  .of_same rfl rfl rfl (by simp [Store.setList])

theorem Later.modifyList (a : Address) (f : Array Value → Array Value) : w.Later s (s.modifyList a f) :=
  .of_same rfl rfl rfl (by simp [Store.modifyList])

theorem Later.refl (s : Store) : w.Later s s := .of_data rfl

theorem Later.trans (h : w.Later s s') (h' : w.Later s' s'') : w.Later s s'' := by
  refine ⟨fun a x hx => ?_, fun a e he => ?_, fun a f hf => h'.natives a f (h.natives a f hf), Nat.le_trans h.lists h'.lists⟩
  · obtain ⟨y, hy, hparent, hactive⟩ := h.scopes a x hx
    obtain ⟨z, hz, hparent', hactive'⟩ := h'.scopes a y hy
    exact ⟨z, hz, hparent'.trans hparent, hactive'.trans hactive⟩
  · obtain ⟨e', he', hplace⟩ := h.errors a e he
    obtain ⟨e'', he'', hplace'⟩ := h'.errors a e' he'
    refine ⟨e'', he'', fun hw => ?_⟩
    have h₁ := hplace hw
    have h₂ := hplace' hw
    exact ⟨h₂.located.trans h₁.located, h₂.line.trans h₁.line, h₂.column.trans h₁.column, h₂.note.trans h₁.note⟩

theorem Later.scopes_size (h : w.Later s s') : s.scopes.size ≤ s'.scopes.size := by
  by_contra hlt
  obtain ⟨y, hy, -⟩ := h.scopes s'.scopes.size _ (Array.getElem?_eq_getElem (Nat.not_le.mp hlt))
  exact Nat.lt_irrefl _ (Array.getElem?_eq_some_iff.mp hy).1

theorem Later.errors_size (h : w.Later s s') : s.errors.size ≤ s'.errors.size := by
  by_contra hlt
  obtain ⟨e, he, -⟩ := h.errors s'.errors.size _ (Array.getElem?_eq_getElem (Nat.not_le.mp hlt))
  exact Nat.lt_irrefl _ (Array.getElem?_eq_some_iff.mp he).1

theorem Later.natives_size (h : w.Later s s') : s.natives.size ≤ s'.natives.size := by
  by_contra hlt
  have hf := h.natives s'.natives.size _ (Array.getElem?_eq_getElem (Nat.not_le.mp hlt))
  exact Nat.lt_irrefl _ (Array.getElem?_eq_some_iff.mp hf).1

/-- What a program may hold, it may still hold later. -/
theorem Later.known (h : w.Later s s') (v : Value) (hv : w.Known s v) : w.Known s' v := by
  cases v with
  | error a =>
    intro hw
    obtain ⟨e, he, hlocated, p, hline, hcolumn⟩ := hv hw
    obtain ⟨e', he', hplace⟩ := h.errors a e he
    have hsame := hplace hw
    exact ⟨e', he', hsame.located.trans hlocated, p, hsame.line.trans hline, hsame.column.trans hcolumn⟩
  | native a => exact fun hw => Nat.lt_of_lt_of_le (hv hw) h.natives_size
  | list a => exact fun hw => Nat.lt_of_lt_of_le (hv hw) h.lists
  | _ => trivial

theorem Follows.refl (h : w.Parallel s t) : w.Follows s t s t := ⟨h, .refl s, .refl t⟩

theorem Follows.trans (h : w.Follows s t s' t') (h' : w.Follows s' t' s'' t'') : w.Follows s t s'' t'' :=
  ⟨h'.parallel, h.first.trans h'.first, h.second.trans h'.second⟩

/-- After a change of tables, programs may hold what they could hold before. -/
theorem Tables.follows (h : w.Tables (w.Known s) s' t') (hs : w.Later s s') (ht : w.Later t t') :
    w.Follows s t s' t' :=
  ⟨h.mono hs.known, hs, ht⟩

/-- A change that touches neither scopes nor errors nor native functions nor lists. -/
theorem Tables.follows_data (h : w.Tables (w.Known s) s' t')
    (hs : (s'.scopes, s'.errors, s'.natives, s'.lists) = (s.scopes, s.errors, s.natives, s.lists))
    (ht : (t'.scopes, t'.errors, t'.natives, t'.lists) = (t.scopes, t.errors, t.natives, t.lists)) :
    w.Follows s t s' t' :=
  h.follows (.of_data hs) (.of_data ht)

theorem Tables.follows_setList {a b : Address} {xs ys : Array Value}
    (h : w.Tables (w.Known s) (s.setList a xs) (t.setList b ys)) : w.Follows s t (s.setList a xs) (t.setList b ys) :=
  h.follows (.setList a xs) (.setList b ys)

theorem Tables.follows_modifyList {a b : Address} {f g : Array Value → Array Value}
    (h : w.Tables (w.Known s) (s.modifyList a f) (t.modifyList b g)) :
    w.Follows s t (s.modifyList a f) (t.modifyList b g) :=
  h.follows (.modifyList a f) (.modifyList b g)

end Later

end Comparison

end Dartlet
