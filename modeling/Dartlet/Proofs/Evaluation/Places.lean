import Dartlet.Host.Standard
import Dartlet.Proofs.Parallel.Runs
import Dartlet.Proofs.Parallel.Self
import Dartlet.Proofs.Program.Locations

/-!
# The places of errors

An error gets its place from the first construct that it leaves. The interpreter is compared with one
that also notes where errors come up: whenever a construct has run, however it has ended, every error
that has come up meanwhile and that no construct further in has noted is noted with the place of this
one. The notes are kept under a private name, apart from the places themselves. Every place is the one
that was noted and stays so, unless a program itself assigns to the members that hold it.
-/

namespace Dartlet

open Dartlet.Action
open Dartlet.Syntax (Expr FunctionBody Node Stmt)

set_option linter.unusedSectionVars false

section

variable [Host]

/-! ### Noting where errors come up -/

/-- An error with a note of a place, unless there is one. -/
def ErrorRecord.noted (e : ErrorRecord) (p : Syntax.Position) : ErrorRecord :=
  if e.note?.isSome then e
  else { e with assigned := Attribute.put noteName (.list [.int p.line, .int p.column]) e.assigned }

/-- Note a place for all errors from an address on, unless there is a note. -/
def Store.note (s : Store) (start : Nat) : Syntax.Location → Store
  | none => s
  | some p => { s with errors := s.errors.mapIdx (fun a e => if a < start then e else e.noted p) }

/-- Note a place for the errors that come up in an action, unless there is a note. -/
def Action.noting {α : Type} (location : Syntax.Location) (x : Action α) : Action α := fun s =>
  match x s with
  | .done a s' => .done a (s'.note s.errors.size location)
  | .raised e s' => .raised e (s'.note s.errors.size location)
  | .escaped f s' => .escaped f (s'.note s.errors.size location)
  | .exhausted s' => .exhausted (s'.note s.errors.size location)

/-- The interpreter that notes where errors come up: in the innermost construct that is running then. -/
def noter : Nat → Engine
  | 0 => ⟨fun _ _ => exhaust, fun _ _ => exhaust, fun _ _ _ => exhaust, 0⟩
  | level + 1 =>
    { eval := fun c x => noting x.location (evalExpr (noter level) c x)
      exec := fun c x => noting x.location (execStmt (noter level) c x)
      call := fun depth f arguments => callValue (noter level) depth f arguments
      rounds := level }

theorem Attribute.find?_put_self (name : String) (x : HostValue) (xs : List (String × HostValue)) :
    tableFind? (put name x xs) name = some x := by
  induction xs with
  | nil => simp [put, tableFind?]
  | cons b rest ih =>
    simp only [tableFind?] at ih
    by_cases hb : b.1 = name
    · simp [put, tableFind?, hb]
    · simpa [put, tableFind?, hb] using ih

namespace ErrorRecord

variable {e : ErrorRecord} {p : Syntax.Position}

/-- An error with its place, which stays if it has one. -/
def placedAt (e : ErrorRecord) (p : Syntax.Position) : ErrorRecord :=
  if e.located then e else { e with line := .int p.line, column := .int p.column, located := true }

theorem placedAt_of_located (h : e.located = true) : e.placedAt p = e := if_pos h

theorem placedAt_of_not_located (h : e.located = false) :
    e.placedAt p = { e with line := .int p.line, column := .int p.column, located := true } := by
  simp [placedAt, h]

theorem noted_of_note (h : e.note?.isSome = true) : e.noted p = e := if_pos h

theorem noted_of_not_note (h : e.note? = none) :
    e.noted p = { e with assigned := Attribute.put noteName (.list [.int p.line, .int p.column]) e.assigned } := by
  simp [noted, h]

end ErrorRecord

namespace Comparison

variable {w : Comparison} {K : Value → Prop} {s t s' t' : Store} {p : Syntax.Position}

theorem getElem?_note (s : Store) (start a : Nat) (p : Syntax.Position) :
    (s.note start (some p)).errors[a]? = s.errors[a]?.map (fun e => if a < start then e else e.noted p) :=
  Array.getElem?_mapIdx

theorem getElem?_locate (s : Store) (a b : Nat) (p : Syntax.Position) :
    (s.locate a (some p)).errors[b]? =
      if a = b then s.errors[b]?.map (ErrorRecord.placedAt · p) else s.errors[b]? :=
  Array.getElem?_modify

theorem visible_put_note (hw : w.placed = true) (x : HostValue) (xs : List (String × HostValue)) :
    w.visible (Attribute.put noteName x xs) = w.visible xs := by
  induction xs with
  | nil => simp [Attribute.put, visible, hw]
  | cons b rest ih =>
    simp only [visible] at ih
    by_cases hb : b.1 = noteName
    · simp [Attribute.put, visible, hb, hw]
    · simpa [Attribute.put, visible, hb] using ih

/-- More notes in the second store do not matter. -/
theorem RecordsAlike.noted_right (hw : w.placed = true) {e e' : ErrorRecord} (h : w.RecordsAlike K e e')
    (p : Syntax.Position) : w.RecordsAlike K e (e'.noted p) := by
  cases hnote : e'.note? with
  | some place => rwa [ErrorRecord.noted_of_note (by simp [hnote])]
  | none =>
    rw [ErrorRecord.noted_of_not_note hnote]
    refine { h with assigned := ?_, noted := fun _ hlocated => ?_ }
    · rw [visible_put_note hw]
      exact h.assigned
    · have hsome := h.noted hw hlocated
      rw [hnote] at hsome
      cases hsome

theorem Tables.note (hw : w.placed = true) (h : w.Tables K s t) (start : Nat) (location : Syntax.Location) :
    w.Tables K s (t.note start location) := by
  cases location with
  | none => exact h
  | some p =>
    refine { h with errors := ⟨h.errors.start, ?_, fun a e he => ?_⟩ }
    · rw [← h.errors.size]
      exact Array.size_mapIdx
    · obtain ⟨e', he', hee'⟩ := h.errors.entry a e he
      rw [getElem?_note, he']
      refine ⟨_, rfl, ?_⟩
      split
      · exact hee'
      · exact hee'.noted_right hw p

/-- Errors from before keep their places and notes while new ones are noted. -/
theorem Later.note (h : w.Later s s') (location : Syntax.Location) : w.Later s (s'.note s.errors.size location) := by
  cases location with
  | none => exact h
  | some p =>
    refine ⟨h.scopes, fun a e he => ?_, h.natives, h.lists⟩
    obtain ⟨e', he', hplace⟩ := h.errors a e he
    have ha : a < s.errors.size := (Array.getElem?_eq_some_iff.mp he).1
    refine ⟨e', ?_, hplace⟩
    rw [getElem?_note, he', Option.map_some, if_pos ha]

theorem Follows.note (hw : w.placed = true) (h : w.Follows s t s' t') (location : Syntax.Location) :
    w.Follows s t s' (t'.note t.errors.size location) :=
  ⟨Tables.note hw h.parallel _ location, h.first, h.second.note location⟩

/-! ### Errors that leave a construct -/

/-- Errors from before keep their places if one of them gets a place only if it has one. -/
theorem Later.locate (h : w.Later s s') {a : Nat} (p : Syntax.Position)
    (ha : w.placed = true → a < s.errors.size → ∀ e, s'.errors[a]? = some e → e.located = true) :
    w.Later s (s'.locate a (some p)) := by
  refine ⟨h.scopes, fun b e he => ?_, h.natives, h.lists⟩
  obtain ⟨e', he', hplace⟩ := h.errors b e he
  rw [getElem?_locate, he']
  split
  · rename_i hab
    subst hab
    refine ⟨_, rfl, fun hw => ?_⟩
    have hlocated := ha hw (Array.getElem?_eq_some_iff.mp he).1 e' he'
    simpa only [ErrorRecord.placedAt_of_located hlocated] using hplace hw
  · exact ⟨e', rfl, hplace⟩

/-- An error that is new in the first store is new in the second. -/
theorem Parallel.new (hst : w.Parallel s t) {a : Nat} (ha : s.errors.size ≤ a) :
    t.errors.size ≤ w.shifts.error.apply a := by
  have hstart := hst.errors.start
  have hsize := hst.errors.size
  rw [w.shifts.error.apply_of_le (by omega)]
  omega

/-- An error that is on its way out gets the same place in both stores and a note of it, or keeps them. -/
theorem Tables.locate_note (hst : w.Parallel s t) (hw : w.placed = true) (h : w.Tables K s' t') {a : Nat}
    (ha : w.Pending s s' t' a) (p : Syntax.Position) :
    w.Tables K (s'.locate a (some p)) ((t'.locate (w.shifts.error.apply a) (some p)).note t.errors.size (some p)) := by
  refine { h with errors := ⟨?_, ?_, fun b e he => ?_⟩ }
  · simpa [Store.locate, Store.modifyError] using h.errors.start
  · simpa [Store.locate, Store.modifyError, Store.note] using h.errors.size
  rw [getElem?_note, getElem?_locate]
  rw [getElem?_locate] at he
  split at he
  · rename_i hab
    subst hab
    obtain ⟨e₀, he₀, rfl⟩ := Option.map_eq_some_iff.mp he
    obtain ⟨e', he', hee'⟩ := h.errors.entry a e₀ he₀
    rw [if_pos rfl, he']
    refine ⟨_, rfl, ?_⟩
    rcases ha hw with ⟨e₁, he₁, hplace⟩ | ⟨hnew, e₁, e₂, he₁, he₂, hlocated, hnote⟩
    · -- it has a place already, and a note of it
      obtain rfl := Option.some.inj (he₀.symm.trans he₁)
      simp only [ErrorRecord.placedAt_of_located hplace.1, ErrorRecord.placedAt_of_located (hee'.located.trans hplace.1)]
      split
      · exact hee'
      · exact hee'.noted_right hw p
    · -- it is new, so that both stores give it this place, and the second notes it
      obtain rfl := Option.some.inj (he₀.symm.trans he₁)
      obtain rfl := Option.some.inj (he'.symm.trans he₂)
      have hplaced := ErrorRecord.placedAt_of_not_located (p := p) (hee'.located.trans hlocated)
      have hnote' : ({ e' with line := .int p.line, column := .int p.column, located := true } : ErrorRecord).note? =
        none := hnote
      simp only [if_neg (Nat.not_lt.mpr (hst.new hnew)), ErrorRecord.placedAt_of_not_located hlocated, hplaced,
        ErrorRecord.noted_of_not_note hnote']
      refine { hee' with
        assigned := ?_, line := rfl, column := rfl, located := rfl, noted := fun _ _ => ?_
        place := fun _ => ⟨trivial, trivial⟩ }
      · rw [visible_put_note hw]
        exact hee'.assigned
      · exact Attribute.find?_put_self _ _ _
  · rename_i hab
    obtain ⟨e', he', hee'⟩ := h.errors.entry b e he
    rw [if_neg (fun heq => hab (w.shifts.error.apply_inj.mp heq)), he']
    refine ⟨_, rfl, ?_⟩
    split
    · exact hee'
    · exact hee'.noted_right hw p

theorem Known.locate {a : Nat} {v : Value} (h : w.Known s v) (p : Syntax.Position) :
    w.Known (s.locate a (some p)) v := by
  cases v with
  | error b =>
    intro hw
    obtain ⟨e, he, hplace⟩ := h hw
    refine ⟨e, ?_, hplace⟩
    rw [getElem?_locate, he]
    split
    · rw [Option.map_some, ErrorRecord.placedAt_of_located hplace.1]
    · rfl
  | native b => exact h
  | _ => trivial

theorem Pending.follows_locate (hst : w.Parallel s t) (hw : w.placed = true) {a : Nat} (ha : w.Pending s s' t' a)
    (h : w.Follows s t s' t') (p : Syntax.Position) :
    w.Follows s t (s'.locate a (some p))
      ((t'.locate (w.shifts.error.apply a) (some p)).note t.errors.size (some p)) := by
  -- only what has a place can be from before
  have hfirst (hold : a < s.errors.size) (e : ErrorRecord) (he : s'.errors[a]? = some e) : e.located = true := by
    rcases ha hw with ⟨e₁, he₁, hplace⟩ | ⟨hnew, -⟩
    · obtain rfl := Option.some.inj (he.symm.trans he₁)
      exact hplace.1
    · omega
  have hsecond (hold : w.shifts.error.apply a < t.errors.size) (e' : ErrorRecord)
      (he' : t'.errors[w.shifts.error.apply a]? = some e') : e'.located = true := by
    rcases ha hw with ⟨e, he, hplace⟩ | ⟨hnew, -⟩
    · obtain ⟨e'', he'', hee''⟩ := h.parallel.errors.entry a e he
      obtain rfl := Option.some.inj (he'.symm.trans he'')
      exact hee''.located.trans hplace.1
    · have hnew' := hst.new hnew
      omega
  exact ⟨(Tables.locate_note hst hw h.parallel ha p).mono (fun b hb => Known.locate hb p),
    h.first.locate p (fun _ => hfirst), (h.second.locate p (fun _ => hsecond)).note _⟩

/-- An error that leaves a construct has a place. -/
theorem Pending.known_locate {a : Nat} (ha : w.Pending s s' t' a) (p : Syntax.Position) :
    w.Known (s'.locate a (some p)) (.error a) := by
  intro hw
  rw [getElem?_locate, if_pos rfl]
  rcases ha hw with ⟨e, he, hplace⟩ | ⟨-, e, -, he, -, hlocated, -⟩
  · rw [he, Option.map_some, ErrorRecord.placedAt_of_located hplace.1]
    exact ⟨e, rfl, hplace⟩
  · rw [he, Option.map_some, ErrorRecord.placedAt_of_not_located hlocated]
    exact ⟨_, rfl, rfl, p, rfl, rfl⟩

theorem Alike.noting {α β : Type} {Q : Store → Store → α → β → Prop} {x : Action α} {y : Action β}
    (hw : w.placed = true) (hQ : ∀ s' t' t'' a b, Q s' t' a b → Q s' t'' a b) (h : w.Alike false Q s t x y)
    (c c' : Caller) {location : Syntax.Location} (hlocation : location.isSome = true) :
    w.Settled Q s t (Action.within c location x) (Action.noting location (Action.within c' location y)) := by
  obtain ⟨p, rfl⟩ := Option.isSome_iff_exists.mp hlocation
  intro hst
  have h' := h hst
  unfold Action.noting Action.within
  generalize x s = o at h' ⊢
  generalize y t = o' at h' ⊢
  cases h' with
  | done hq hf => exact .done (hQ _ _ _ _ _ hq) (hf.note hw _)
  | raised ha hf =>
    simp only [raiseFrom_of_unhooked (hf.parallel.unhooked hw _), raiseFrom_of_unhooked (hf.parallel.unhooked_right hw _)]
    exact .raised (ha.known_locate p) (ha.follows_locate hst hw hf p)
  | escaped hfail hf => exact .escaped hfail (hf.note hw _)
  | exhausted hf => exact .exhausted (hf.note hw _)
  | gaveUp hw => exact .gaveUp hw

end Comparison

/-! ### Programs in which every construct has a place -/

namespace Syntax.Node

/-- A program in which everything that can be run has a place, and which does not assign to the members
that hold the places of errors. -/
structure Placeable (n : Node) : Prop where
  located : n.Located
  keeps : ∀ m, n.Contains m → ∀ name ∈ m.writes, name ∉ placeMembers

namespace Placeable

variable {n m : Node}

theorem part (h : n.Placeable) (hm : m ∈ n.children) : m.Placeable :=
  ⟨h.located.part hm, fun k hk => h.keeps k (.of_mem hm hk)⟩

theorem of_children (hn : n.isLocated = true) (hwrites : n.writes = []) (h : ∀ m ∈ n.children, m.Placeable) :
    n.Placeable := by
  refine ⟨.mk hn (fun m hm => (h m hm).located), fun m hm name hname => ?_⟩
  rcases contains_iff.mp hm with rfl | ⟨k, hk, hkm⟩
  · rw [hwrites] at hname
    cases hname
  · exact (h k hk).keeps m hkm name hname

end Placeable

end Syntax.Node

namespace Comparison

/-- The comparison of the interpreter with the one that notes where errors come up. -/
def placing : Comparison := exact true false (fun b => (Node.body b).Placeable)

/-- Programs in which every construct has a place, wherever they run. -/
def placeable : placing.Manner where
  Tree := Node.Placeable
  Here _ _ := True
  part hn _ hm := hn.part hm
  fit hb := hb
  names _ _ := rfl
  writes _ _ _ hn hname := hn.keeps _ .self _ hname
  bounded h := absurd rfl h
  later _ _ := trivial
  enter _ := trivial

theorem placeable_opens : placeable.Opens := ⟨fun hb hn => Node.Placeable.part hb hn, fun _ => trivial⟩

theorem placeable_passes : placeable.Passes where
  clause {k} hk := by
    cases k
    exact Node.Placeable.part hk List.mem_cons_self
  here _ _ _ _ := trivial

theorem agrees_noter (level : Nat) : placing.Agrees placeable (interpreter level) (noter level) := by
  induction level with
  | zero => exact ⟨fun _ _ => settled_exhaust, fun _ _ => settled_exhaust, fun _ _ => alike_exhaust, .inl rfl⟩
  | succ level ih =>
    refine ⟨fun hx hhere => ?_, fun hx hhere => ?_, fun _ hargs => ?_, .inl rfl⟩
    · exact (alike_evalForm ih hx hhere).noting rfl (fun _ _ _ _ _ hv => ⟨hv.same, hv.known⟩) _ _ (hx.located _ .self)
    · exact (alike_execForm ih placeable_passes rfl hx hhere).noting rfl (fun _ _ _ _ _ hk => ⟨hk.same, hk.known⟩)
        _ _ (hx.located _ .self)
    · exact alike_callValue ih placeable_opens _ hargs

end Comparison

/-! ### All runs -/

/-- What is asked of a value if it is an error. -/
def Value.IfError (K : Address → Prop) : Value → Prop
  | .error a => K a
  | _ => True

/-- A store in which every error that programs can reach has a place, all errors are told places by their own method, and
every function of a program is one whose runs keep it so. -/
structure Store.Placed (s : Store) : Prop where
  holds : s.Holds (Value.IfError fun a => ∃ e, s.errors[a]? = some e ∧ e.HasPlace)
  unhooked : ∀ e ∈ s.errors, e.hook? = none
  closures : ∀ f ∈ s.closures, (Node.body f.body).Placeable

/-- A store in which the places of all errors have been noted. -/
def Store.marked (s : Store) : Store :=
  { s with errors := s.errors.map (fun e =>
      if e.located then { e with assigned := Attribute.put noteName e.place e.assigned } else e) }

/-- An error without a note. -/
def ErrorRecord.unnoted (e : ErrorRecord) : ErrorRecord :=
  { e with assigned := e.assigned.filter (fun b => b.1 != noteName) }

/-- A store without notes. -/
def Store.unnoted (s : Store) : Store := { s with errors := s.errors.map ErrorRecord.unnoted }

/-- An outcome without notes. -/
def Outcome.unnoted {α : Type} : Outcome α → Outcome α
  | .done a s => .done a s.unnoted
  | .raised e s => .raised e s.unnoted
  | .escaped f s => .escaped f s.unnoted
  | .exhausted s => .exhausted s.unnoted

namespace Comparison

variable {s t : Store}

theorem known_placing (s : Store) :
    placing.Known s = Value.IfError fun a => ∃ e, s.errors[a]? = some e ∧ e.HasPlace := by
  funext v
  cases v <;> simp [Known, Value.IfError, placing, exact, apart]

theorem recordsAlike_marked {K : Value → Prop} (hs : s.Holds K) {e : ErrorRecord} (he : e ∈ s.errors)
    (hunhooked : e.hook? = none) :
    placing.RecordsAlike K e
      (if e.located then { e with assigned := Attribute.put noteName e.place e.assigned } else e) := by
  have hvisible : placing.Attributes K (placing.visible e.assigned) (placing.visible e.assigned) := by
    refine ⟨?_, fun b hb => ?_⟩
    · simp [placing, exact, apart, funext shiftAttribute_stay]
    · obtain ⟨hb, hname⟩ := List.mem_filter.mp hb
      exact hs.assigned e he b hb (by simpa [placing, exact, apart] using hname)
  have hfault : e.fault = e.fault.shift placing.shifts := (Fault.shift_stay _).symm
  have hline : e.line = e.line.shift placing.shifts := (HostValue.shift_stay _).symm
  have hcolumn : e.column = e.column.shift placing.shifts := (HostValue.shift_stay _).symm
  have hplace : placing.closed = true ∨ placing.listed = true → e.line.Known K ∧ e.column.Known K :=
    fun h => by rcases h with h | h <;> cases h
  split
  · refine ⟨hfault, hs.faults e he, (fun h => by cases h), ?_, hline, hcolumn, rfl,
      fun _ _ => Attribute.find?_put_self _ _ _, fun _ => hunhooked, hplace⟩
    rw [visible_put_note rfl]
    exact hvisible
  · rename_i hlocated
    exact ⟨hfault, hs.faults e he, (fun h => by cases h), hvisible, hline, hcolumn, rfl,
      fun _ h => absurd h hlocated, fun _ => hunhooked, hplace⟩

theorem parallel_marked (hs : s.Placed) : placing.Parallel s s.marked := by
  have hholds : s.Holds (placing.Known s) := by
    rw [known_placing]
    exact hs.holds
  refine tables_beside hholds hs.closures (fun _ _ _ _ => rfl) ⟨Nat.zero_le _, Array.size_map, fun a e he => ?_⟩
  rw [Shift.apply_stay, Array.getElem?_map, he]
  exact ⟨_, rfl, recordsAlike_marked hholds (Array.mem_of_getElem? he) (hs.unhooked e (Array.mem_of_getElem? he))⟩

theorem Parallel.placed (h : placing.Parallel s t) : s.Placed := by
  have hholds : s.Holds (placing.Known s) := Tables.holds (fun _ => rfl) h
  rw [known_placing] at hholds
  exact ⟨hholds, forall_mem_of_corresponds h.errors (fun _ _ hee' => hee'.unhooked rfl),
    forall_mem_of_corresponds h.closures (fun _ _ hfg => hfg.fit)⟩

theorem RecordsAlike.unnoted {K : Value → Prop} {e e' : ErrorRecord} (h : placing.RecordsAlike K e e') :
    e'.unnoted = e.unnoted := by
  obtain ⟨fault, line, column, located, assigned⟩ := e
  obtain ⟨fault', line', column', located', assigned'⟩ := e'
  have hfault : fault' = fault := h.fault.trans (Fault.shift_stay fault)
  have hline : line' = line := h.line.trans (HostValue.shift_stay line)
  have hcolumn : column' = column := h.column.trans (HostValue.shift_stay column)
  have hlocated : located' = located := h.located
  have hassigned : assigned'.filter (fun b => b.1 != noteName) = assigned.filter (fun b => b.1 != noteName) := by
    have hsame : placing.visible assigned' = (placing.visible assigned).map (shiftAttribute .stay) := h.assigned.same
    rw [funext shiftAttribute_stay, List.map_id'] at hsame
    exact hsame
  rw [ErrorRecord.unnoted, ErrorRecord.unnoted, hfault, hline, hcolumn, hlocated, hassigned]

theorem Parallel.unnoted (h : placing.Parallel s t) : t.unnoted = s.unnoted := by
  have herrors : t.errors.map ErrorRecord.unnoted = s.errors.map ErrorRecord.unnoted := by
    apply Array.ext_getElem?
    intro a
    rw [Array.getElem?_map, Array.getElem?_map]
    have ha : placing.shifts.error.apply a = a := Shift.apply_stay a
    cases he : s.errors[a]? with
    | none => rw [← ha, h.errors.missing he]
    | some e =>
      obtain ⟨e', he', hee'⟩ := h.errors.entry a e he
      rw [ha] at he'
      rw [he', Option.map_some, Option.map_some, hee'.unnoted]
  have hdata := data_eq_of_tables h
  rw [← scopes_eq_of_tables h] at hdata
  calc t.unnoted = { { t with errors := s.errors } with errors := s.errors.map ErrorRecord.unnoted } := by
        rw [Store.unnoted, herrors]
    _ = s.unnoted := by rw [hdata, Store.unnoted]

end Comparison

/-- How a run compares with one that notes where errors come up, both from stores with the same
contents. -/
structure Attributed {α : Type} (s : Store) (o o' : Outcome α) : Prop where
  /-- They end the same way, in the same store but for the notes. -/
  same : o'.unnoted = o.unnoted
  /-- Every place of an error is the one that was noted. -/
  places : ∀ (a : Nat) (e : ErrorRecord), o.store.errors[a]? = some e → e.located = true →
    ∃ e', o'.store.errors[a]? = some e' ∧ e'.note? = some e.place
  /-- An error that leaves has a place. -/
  leaving : ∀ (a : Nat) (t : Store), o = .raised a t → ∃ e, t.errors[a]? = some e ∧ e.HasPlace
  /-- Errors from before have kept their places. -/
  kept : ∀ (a : Nat) (e : ErrorRecord), s.errors[a]? = some e →
    ∃ e', o.store.errors[a]? = some e' ∧ e.SamePlace e'
  /-- Later runs find everything as this one did. -/
  placed : o.store.Placed

namespace Comparison

variable {s : Store}

theorem Follows.attributed {t s' t' : Store} (h : placing.Follows s t s' t') :
    (∀ (a : Nat) (e : ErrorRecord), s'.errors[a]? = some e → e.located = true →
      ∃ e', t'.errors[a]? = some e' ∧ e'.note? = some e.place) ∧
    (∀ (a : Nat) (e : ErrorRecord), s.errors[a]? = some e → ∃ e', s'.errors[a]? = some e' ∧ e.SamePlace e') := by
  refine ⟨fun a e he hlocated => ?_, fun a e he => ?_⟩
  · obtain ⟨e', he', hee'⟩ := h.parallel.errors.entry a e he
    have ha : placing.shifts.error.apply a = a := Shift.apply_stay a
    rw [ha] at he'
    have hline : e'.line = e.line := hee'.line.trans (HostValue.shift_stay _)
    have hcolumn : e'.column = e.column := hee'.column.trans (HostValue.shift_stay _)
    have hplace : e'.place = e.place := by rw [ErrorRecord.place, hline, hcolumn, ErrorRecord.place]
    exact ⟨e', he', (hee'.noted rfl hlocated).trans (congrArg some hplace)⟩
  · obtain ⟨e', he', hsame⟩ := h.first.errors a e he
    exact ⟨e', he', hsame rfl⟩

theorem Settled.attributed {α : Type} {Q : Store → Store → α → α → Prop} {x y : Action α}
    (hQ : ∀ s' t' a b, Q s' t' a b → b = a) (h : placing.Settled Q s s.marked x y) (hs : s.Placed) :
    Attributed s (x s) (y s.marked) := by
  have hmatches := h (parallel_marked hs)
  generalize x s = o at hmatches ⊢
  generalize y s.marked = o' at hmatches ⊢
  cases hmatches with
  | done hq hf =>
    refine ⟨?_, hf.attributed.1, nofun, hf.attributed.2, hf.parallel.placed⟩
    rw [Outcome.unnoted, hQ _ _ _ _ hq, hf.parallel.unnoted, Outcome.unnoted]
  | @raised a s' t' ha hf =>
    have hsame : placing.shifts.error.apply a = a := Shift.apply_stay a
    refine ⟨?_, hf.attributed.1, fun b t' hb => ?_, hf.attributed.2, hf.parallel.placed⟩
    · rw [hsame, Outcome.unnoted, hf.parallel.unnoted, Outcome.unnoted]
    · cases hb
      exact ha rfl
  | escaped _ hf =>
    refine ⟨?_, hf.attributed.1, nofun, hf.attributed.2, hf.parallel.placed⟩
    rw [Outcome.unnoted, hf.parallel.unnoted, Outcome.unnoted]
  | exhausted hf =>
    refine ⟨?_, hf.attributed.1, nofun, hf.attributed.2, hf.parallel.placed⟩
    rw [Outcome.unnoted, hf.parallel.unnoted, Outcome.unnoted]
  | gaveUp hw => cases hw

end Comparison

/-- Everything that is read from a text has a place, but for the empty program. Where every construct has
a place and none assigns to the members that hold the places of errors, every error that leaves a construct
has a place. All places are those that are noted where the innermost construct that was running when the
error came up has noted it, and the places of errors that were there before are what they were. -/
theorem errors_are_placed_once_and_innermost :
    (∀ source x, Syntax.parseUnit source = .ok x → (Node.stmt x).Located ∨ x = .unit none []) ∧
    ∀ s : Store, s.Placed → ∀ (level : Nat) (c : Context),
      (∀ x : Stmt, (Node.stmt x).Placeable →
        Attributed s ((interpreter level).exec c x s) ((noter level).exec c x s.marked)) ∧
      ∀ x : Expr, (Node.expr x).Placeable →
        Attributed s ((interpreter level).eval c x s) ((noter level).eval c x s.marked) := by
  refine ⟨fun source x hx => Syntax.parseUnit_located hx, fun s hs level c => ?_⟩
  have hagrees := Comparison.agrees_noter level
  have hmove : Comparison.placing.move c = c := Comparison.move_exact c
  refine ⟨fun x hx => ?_, fun x hx => ?_⟩
  · have hsettled := hagrees.exec (c := c) (s := s) (t := s.marked) hx trivial
    rw [hmove] at hsettled
    refine hsettled.attributed (fun _ _ k k' hk => ?_) hs
    exact hk.same.trans (Completion.shift_stay k)
  · have hsettled := hagrees.eval (c := c) (s := s) (t := s.marked) hx trivial
    rw [hmove] at hsettled
    refine hsettled.attributed (fun _ _ v v' hv => ?_) hs
    exact hv.same.trans (Value.shift_stay v)

/-- There are no errors in what programs begin with. -/
theorem placed_initial : Store.initial.Placed where
  holds := Store.initial_holds trivial trivial
  unhooked := fun _ hx => absurd hx (Array.not_mem_empty _)
  closures := fun _ hx => absurd hx (Array.not_mem_empty _)

/-! ### Errors that are raised again -/

/-- The number that a value of the host is, if it is one. -/
def HostValue.coordinate? : HostValue → Option Int
  | .int n => some n
  | _ => Option.none

/-- The line and the column of the error that leaves an action, where they are numbers. -/
def Outcome.place? {α : Type} : Outcome α → Option (Option Int × Option Int)
  | .raised a s => s.errors[a]?.map (fun e => (e.line.coordinate?, e.column.coordinate?))
  | _ => none

/-- The error that leaves an action, and what has been written until then. -/
def Outcome.report? {α : Type} : Outcome α → Option (Address × String)
  | .raised a s => some (a, s.output)
  | _ => none

theorem Outcome.of_report? {α : Type} {o : Outcome α} {a : Address} {text : String} (h : o.report? = some (a, text)) :
    ∃ s, o = .raised a s ∧ s.output = text := by
  cases o with
  | raised b s =>
    obtain ⟨rfl, rfl⟩ := Prod.mk.inj (Option.some.inj h)
    exact ⟨s, rfl, rfl⟩
  | _ => cases h

/-- An assignment to what a name stands for: when it is told a place, an expression is evaluated instead. -/
def telling (name : String) (x : Expr) : Expr :=
  .assignment none .plain (.property none (.identifier none name) "attach_location")
    (.functionLiteral none [⟨none, "line", .required, none⟩, ⟨none, "column", .required, none⟩] (.expression none x))

/-- An expression that writes a line. -/
def printing (text : String) : Expr := .call none (.identifier none "print") [.positional (.stringLiteral none text)]

/-- A block that looks up an unbound name. -/
def lookingUp : Stmt :=
  .block (some ⟨1, 14⟩) [.expression (some ⟨1, 16⟩) (.identifier (some ⟨1, 16⟩) "foo")]

/-- A statement that runs an expression on the error of such a block and raises it again. -/
def raisingAgain (x : Expr) : Stmt :=
  .trying (some ⟨1, 10⟩) lookingUp
    [.mk (some ⟨1, 23⟩) (.block (some ⟨1, 33⟩) [.expression (some ⟨1, 35⟩) x, .rethrowing (some ⟨1, 50⟩)])
      none (some "e") none] none

theorem placeable_raisingAgain {x : Expr} (hx : (Node.expr x).Placeable) :
    (Node.stmt (raisingAgain x)).Placeable := by
  have hfoo : (Node.expr (.identifier (some ⟨1, 16⟩) "foo")).Placeable := .of_children rfl rfl (List.forall_mem_nil _)
  have hlookingUp : (Node.stmt lookingUp).Placeable :=
    .of_children rfl rfl (List.forall_mem_singleton.mpr (.of_children rfl rfl (List.forall_mem_singleton.mpr hfoo)))
  have hrun : (Node.stmt (.expression (some ⟨1, 35⟩) x)).Placeable :=
    .of_children rfl rfl (List.forall_mem_singleton.mpr hx)
  have hrethrow : (Node.stmt (.rethrowing (some ⟨1, 50⟩))).Placeable := .of_children rfl rfl (List.forall_mem_nil _)
  refine .of_children rfl rfl (List.forall_mem_cons.mpr ⟨hlookingUp, List.forall_mem_singleton.mpr ?_⟩)
  refine .of_children rfl rfl (List.forall_mem_singleton.mpr ?_)
  exact .of_children rfl rfl (List.forall_mem_cons.mpr ⟨hrun, List.forall_mem_singleton.mpr hrethrow⟩)

end

theorem errors_are_placed_once_and_innermost_raised_again :
    ((interpreter 12).exec ⟨rootScope, 0⟩ (raisingAgain (.identifier (some ⟨1, 35⟩) "e")) Store.initial).place? =
        some (some 1, some 16) ∧
      Attributed Store.initial
        ((interpreter 12).exec ⟨rootScope, 0⟩ (raisingAgain (.identifier (some ⟨1, 35⟩) "e")) Store.initial)
        ((noter 12).exec ⟨rootScope, 0⟩ (raisingAgain (.identifier (some ⟨1, 35⟩) "e")) Store.initial.marked) :=
  ⟨by decide, (errors_are_placed_once_and_innermost.2 Store.initial placed_initial 12 ⟨rootScope, 0⟩).1 _
    (placeable_raisingAgain (.of_children rfl rfl (List.forall_mem_nil _)))⟩

/-- An assignment to the line of the error. -/
def clearing : Expr :=
  .assignment (some ⟨1, 35⟩) .plain (.property (some ⟨1, 35⟩) (.identifier (some ⟨1, 35⟩) "e") "line")
    (.nullLiteral (some ⟨1, 44⟩))

theorem located_raisingAgain {x : Expr} (hx : (Node.expr x).Located) : (Node.stmt (raisingAgain x)).Located :=
  have hlookingUp : (Node.stmt lookingUp).Located := .one rfl rfl (.one rfl rfl (.leaf rfl rfl))
  .two rfl rfl hlookingUp (.one rfl rfl (.two rfl rfl (.one rfl rfl hx) (.leaf rfl rfl)))

theorem located_clearing : (Node.expr clearing).Located :=
  .two rfl rfl (.one rfl rfl (.leaf rfl rfl)) (.leaf rfl rfl)

theorem ErrorRecord.HasPlace.number {e : ErrorRecord} (h : e.HasPlace) : e.line.coordinate?.isSome = true := by
  obtain ⟨-, p, hline, -⟩ := h
  rw [hline]
  rfl

/-- A program can take the place of an error away. -/
theorem assigned_places_change :
    (Node.stmt (raisingAgain clearing)).Located ∧
      ∃ a t e, engine.exec ⟨rootScope, 0⟩ (raisingAgain clearing) Store.initial = .raised a t ∧
        t.errors[a]? = some e ∧ ¬ e.HasPlace := by
  have hplace : (engine.exec ⟨rootScope, 0⟩ (raisingAgain clearing) Store.initial).place? = some (none, some 16) := by
    decide +kernel
  refine ⟨located_raisingAgain located_clearing, ?_⟩
  generalize engine.exec ⟨rootScope, 0⟩ (raisingAgain clearing) Store.initial = o at hplace ⊢
  cases o with
  | raised a t =>
    obtain ⟨e, he, hnumbers⟩ := Option.map_eq_some_iff.mp hplace
    refine ⟨a, t, e, rfl, he, fun hlocated => ?_⟩
    have hline := hlocated.number
    rw [(Prod.mk.inj hnumbers).1] at hline
    cases hline
  | _ => cases hplace

end Dartlet
