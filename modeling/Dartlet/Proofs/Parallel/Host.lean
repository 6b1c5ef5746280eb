import Dartlet.Proofs.Parallel.Sequences

/-!
# The host in parallel

Handing values to the host and taking its data over, the host's own functions, and the attributes of
its objects and of errors.
-/

namespace Dartlet.Comparison

open Dartlet.Action

set_option linter.unusedSectionVars false

variable [Host]

variable {w : Comparison} {inside : Bool} {s t : Store} {c c' : Caller}

/-! ### Handing over -/

/-- Corresponding data of the host. -/
structure Data (w : Comparison) (K : Value → Prop) (x y : HostValue) : Prop where
  same : y = x.shift w.shifts
  known : x.Known K

/-- Several corresponding data of the host. -/
structure DataList (w : Comparison) (K : Value → Prop) (xs ys : List HostValue) : Prop where
  same : ys = xs.map (HostValue.shift w.shifts)
  known : ∀ x ∈ xs, x.Known K

/-- Corresponding data at the end of a run. -/
def Dat (w : Comparison) (s _ : Store) (x y : HostValue) : Prop := w.Data (w.Known s) x y

theorem toHostWithin_escaping (s : Store) (limit : Nat) (v : Value) :
    Troubled (fun f => f.isEscaping = true) (v.toHostWithin s limit) := by
  have hkey (x : HostValue) : Troubled (fun f => f.isEscaping = true) x.asKey := by
    cases x <;> first | exact .ok _ | exact .error rfl
  induction limit generalizing v with
  | zero => cases v <;> first | exact .ok _ | exact .error rfl
  | succ limit ih =>
    cases v with
    | list a => exact (Troubled.mapM ih _).map _
    | iterable a => exact (Troubled.mapM ih _).map _
    | set a =>
      refine (Troubled.foldlM (fun members v => ?_) _ _).map _
      exact (ih v).bind (fun x => (hkey x).bind (fun key => .ok _))
    | map a =>
      refine (Troubled.foldlM (fun entries e => ?_) _ _).map _
      exact (ih e.1).bind (fun x => (ih e.2).bind (fun y => (hkey x).bind (fun key => .ok _)))
    | _ => exact .ok _

theorem reads_toHost {v : Value} (hv : v.Known (w.Known s)) :
    w.Reads inside (w.Data (w.Known s)) s t (toHost v) (toHost (v.shift w.shifts)) := by
  refine .of_parallel (fun hst => ?_)
  have hsame := hst.toHost v
  have hknown := hst.toHostWithin_known (Value.nestingLimit s) hv
  have hescaping := toHostWithin_escaping s (Value.nestingLimit s) v
  unfold toHost
  cases hx : v.toHost s with
  | ok x =>
    rw [hx] at hsame
    simp only [Except.map] at hsame
    exact fun _ => .inl ⟨x, x.shift w.shifts, ⟨rfl, hknown x hx⟩, by simp only [hx], by simp only [hsame]⟩
  | error f =>
    rw [hx] at hsame
    simp only [Except.map] at hsame
    intro hst
    simp only [hx, hsame]
    exact .inr (.escaped (.inr (hescaping f hx)) (.refl hst))

theorem reads_toHostAll {vs : List Value} (hvs : ∀ v ∈ vs, v.Known (w.Known s)) :
    w.Reads inside (w.DataList (w.Known s)) s t (toHostAll vs) (toHostAll (vs.map (Value.shift w.shifts))) := by
  induction vs with
  | nil => exact reads_pure ⟨rfl, List.forall_mem_nil _⟩
  | cons v rest ih =>
    refine (reads_toHost (hvs v List.mem_cons_self)).then (fun x _ hx => ?_)
    refine (ih (fun u hu => hvs u (List.mem_cons_of_mem v hu))).then (fun xs _ hxs => reads_pure ⟨?_, ?_⟩)
    · rw [hx.same, hxs.same, List.map_cons]
    · exact List.forall_mem_cons.mpr ⟨hx.known, hxs.known⟩

mutual

theorem alike_fromHost : ∀ {s t : Store} {h : HostValue}, h.Known (w.Known s) →
    w.Alike inside w.Val s t (fromHost h) (fromHost (h.shift w.shifts))
  | s, t, .none, _ => by simpa only [fromHost, HostValue.shift] using alike_plain rfl
  | s, t, .bool b, _ => by simpa only [fromHost, HostValue.shift] using alike_plain rfl
  | s, t, .int n, _ => by simpa only [fromHost, HostValue.shift] using alike_plain rfl
  | s, t, .float x, _ => by simpa only [fromHost, HostValue.shift] using alike_plain rfl
  | s, t, .text u, _ => by simpa only [fromHost, HostValue.shift] using alike_plain rfl
  | s, t, .value v, hv => by simpa only [fromHost, HostValue.shift] using alike_value hv
  | s, t, .callback f, hf => by
    simp only [fromHost, HostValue.shift]
    exact alike_newNative "<lambda>" (.host (.callback f)) hf (fun _ => rfl)
  | s, t, .list items, hitems => by
    simp only [fromHost, HostValue.shift]
    exact (alike_fromHostAll (knownAll_iff.mp hitems)).bind (fun _ _ xs ys _ hxy => alike_newList hxy)
  | s, t, .set items, hitems => by
    simp only [fromHost, HostValue.shift]
    exact (alike_fromHostAll (knownAll_iff.mp hitems)).bind (fun _ _ xs ys _ hxy => alike_newSet hxy.ofList)
  | s, t, .dict entries, hentries => by
    simp only [fromHost, HostValue.shift]
    refine (alike_fromHostEntries (knownEntries_iff.mp hentries)).bind (fun _ _ xs ys _ hxy => alike_newMap ?_)
    exact Pairs.putAll ⟨rfl, by simp⟩ hxy

theorem alike_fromHostAll : ∀ {s t : Store} {items : List HostValue}, (∀ h ∈ items, h.Known (w.Known s)) →
    w.Alike inside (fun s' _ => w.Values (w.Known s')) s t (fromHostAll items) (fromHostAll (shiftAll w.shifts items))
  | s, t, [], _ => by simpa only [fromHostAll, shiftAll] using alike_pure ⟨rfl, by simp⟩
  | s, t, h :: rest, hitems => by
    simp only [fromHostAll, shiftAll]
    refine (alike_fromHost (hitems h List.mem_cons_self)).bind (fun s' t' v _ hf hv => ?_)
    refine (alike_fromHostAll (fun h' hh' => ?_)).bind (fun s'' t'' xs ys hf' hxy => alike_pure ⟨?_, ?_⟩)
    · exact HostValue.Known.mono hf.first.known _ (hitems h' (List.mem_cons_of_mem h hh'))
    · rw [hv.same, hxy.same, List.map_cons]
    · exact List.forall_mem_cons.mpr ⟨hv.known.mono hf'.first.known, hxy.known⟩

theorem alike_fromHostEntries : ∀ {s t : Store} {entries : List (HostValue × HostValue)},
    (∀ e ∈ entries, e.1.Known (w.Known s) ∧ e.2.Known (w.Known s)) →
      w.Alike inside (fun s' _ => w.Pairs (w.Known s')) s t (fromHostEntries entries)
        (fromHostEntries (shiftEntries w.shifts entries))
  | s, t, [], _ => by simpa only [fromHostEntries, shiftEntries] using alike_pure ⟨rfl, by simp⟩
  | s, t, (key, value) :: rest, hentries => by
    simp only [fromHostEntries, shiftEntries]
    obtain ⟨hkey, hvalue⟩ := hentries (key, value) List.mem_cons_self
    refine (alike_fromHost hkey).bind (fun s₁ t₁ k _ hf₁ hk => ?_)
    refine (alike_fromHost (HostValue.Known.mono hf₁.first.known _ hvalue)).bind (fun s₂ t₂ v _ hf₂ hv => ?_)
    have hs₂ := hf₁.first.trans hf₂.first
    refine (alike_fromHostEntries (fun e he => ?_)).bind (fun s₃ t₃ xs ys hf₃ hxy => alike_pure ⟨?_, ?_⟩)
    · obtain ⟨hkey', hvalue'⟩ := hentries e (List.mem_cons_of_mem _ he)
      exact ⟨HostValue.Known.mono hs₂.known _ hkey', HostValue.Known.mono hs₂.known _ hvalue'⟩
    · rw [hk.same, hv.same, hxy.same]
      rfl
    · have hs₃ := hf₂.first.trans hf₃.first
      exact List.forall_mem_cons.mpr ⟨⟨hk.known.mono hs₃.known, hv.known.mono hf₃.first.known⟩, hxy.known⟩

end

/-- A failure whose wording depends on the store. -/
theorem alike_report {α β : Type} {Q : Store → Store → α → β → Prop} {f g : Store → HostFailure}
    (h : w.Parallel s t → g t = f s) :
    w.Alike true Q s t (fun s => escape (f s) s) (fun t => escape (g t) t) := by
  intro hst
  change w.Matches true _ _ s t (escape (f s) s) (escape (g t) t)
  rw [h hst]
  exact alike_escape (.inl rfl) hst

/-- A complaint about the kind of data, which is the same in both stores. -/
theorem alike_typeComplaint {α β : Type} {Q : Store → Store → α → β → Prop} (before after : String) (x : HostValue) :
    w.Alike true Q s t (fun s => escape (.reported "TypeError" (before ++ x.kindName s ++ after)) s)
      (fun t => escape (.reported "TypeError" (before ++ (x.shift w.shifts).kindName t ++ after)) t) :=
  alike_report (fun hst => by rw [hst.kindName])

/-! ### Objects -/

theorem alike_data {x : HostValue} (hx : x.Known (w.Known s)) :
    w.Alike inside w.Dat s t (pure x) (pure (x.shift w.shifts)) :=
  alike_pure ⟨rfl, hx⟩

/-- Data without addresses. -/
theorem alike_plainData {x : HostValue} (hx : x.shift w.shifts = x) (hknown : x.Known (w.Known s)) :
    w.Alike inside w.Dat s t (pure x) (pure x) :=
  alike_pure ⟨hx.symm, hknown⟩

theorem data_argument {xs : List HostValue} (i : Nat) :
    (xs.map (HostValue.shift w.shifts))[i]?.getD .none = (xs[i]?.getD .none).shift w.shifts := by
  rw [List.getElem?_map]
  cases xs[i]? <;> rfl

theorem known_dataArgument {K : Value → Prop} {xs : List HostValue} (h : ∀ x ∈ xs, x.Known K) (i : Nat) :
    (xs[i]?.getD .none).Known K := by
  cases hi : xs[i]? with
  | none => trivial
  | some x => exact h x (List.mem_of_getElem? hi)

theorem Tables.square {K : Value → Prop} (h : w.Tables K s t) (x : HostValue) :
    HostMethod.square t (x.shift w.shifts) = HostMethod.square s x := by
  have hnumeral : HostMethod.numeral? (x.shift w.shifts) = HostMethod.numeral? x := by
    simp only [HostMethod.numeral?, HostValue.number?_shift]
  unfold HostMethod.square
  rw [hnumeral, h.kindName]
  cases x <;> rfl

theorem square_troubled (s : Store) (x : HostValue) :
    Troubled (fun f => ∀ g, f = .fault g → g.isClosed = true) (HostMethod.square s x) := by
  unfold HostMethod.square
  split
  · refine (Numeral.commonly_combine _ _ _ _).mono (fun f hf g hg => ?_)
    subst hg
    exact hf
  · dsimp only
    split <;> exact .error (fun _ h => by cases h)

/-- A coordinate of a point. -/
def coordinate (s : Store) (a : Address) (name : String) : HostValue :=
  (tableFind? (match s.objects[a]? with
    | some o => o.attributes
    | none => []) name).getD .none

/-- The sum of the squares of two data. -/
def squares (s : Store) (x y : HostValue) : Except Trouble HostValue := do
  let x ← HostMethod.square s x
  let y ← HostMethod.square s y
  let sum ← x.combine (· + ·) (· + ·) y
  .ok (HostMethod.ofNumeral sum)

theorem Tables.coordinate {K : Value → Prop} (h : w.Tables K s t) (a : Nat) (name : String) :
    Comparison.coordinate t (w.shifts.object.apply a) name = (Comparison.coordinate s a name).shift w.shifts := by
  unfold Comparison.coordinate
  cases ho : s.objects[a]? with
  | none =>
    rw [h.objects.missing ho]
    rfl
  | some o =>
    obtain ⟨o', ho', hoo'⟩ := h.objects.entry a o ho
    simp only [ho', hoo'.attributes.find?]
    cases tableFind? o.attributes name <;> rfl

theorem squares_troubled (s : Store) (x y : HostValue) :
    Troubled (fun f => ∀ g, f = .fault g → g.isClosed = true) (squares s x y) := by
  refine (square_troubled s x).bind (fun m => (square_troubled s y).bind (fun n => ?_))
  refine Troubled.bind ((Numeral.commonly_combine _ _ m n).mono (fun f hf g hg => ?_)) (fun sum => .ok _)
  subst hg
  exact hf

/-- Squares are numbers, which are the same in both runs. -/
theorem squares_data {K : Value → Prop} {s : Store} {x y z : HostValue} (h : squares s x y = .ok z) :
    w.Data K z z := by
  simp only [squares, bind, Except.bind] at h
  split at h
  · cases h
  · split at h
    · cases h
    · split at h
      · cases h
      · rename_i sum _
        cases h
        cases sum <;> exact ⟨rfl, trivial⟩

theorem alike_squaredNorm (a : Address) :
    w.Alike true w.Dat s t (HostMethod.squaredNorm a) (HostMethod.squaredNorm (w.shifts.object.apply a)) := by
  intro hst
  have hsquares : squares t (coordinate t (w.shifts.object.apply a) "x") (coordinate t (w.shifts.object.apply a) "y") =
      squares s (coordinate s a "x") (coordinate s a "y") := by
    simp only [squares, hst.coordinate, hst.square]
  change w.Matches true _ _ s t (ofExcept (squares s (coordinate s a "x") (coordinate s a "y")) s)
    (ofExcept (squares t (coordinate t (w.shifts.object.apply a) "x") (coordinate t (w.shifts.object.apply a) "y")) t)
  rw [hsquares]
  refine (reads_ofExcept_inside (squares_troubled s _ _)).alike (fun z z' hz => ?_) hst
  obtain ⟨hz, rfl⟩ := hz
  exact squares_data hz

theorem alike_draw (a : Address) :
    w.Alike inside Same s t (HostMethod.draw a) (HostMethod.draw (w.shifts.object.apply a)) := by
  intro hst
  unfold HostMethod.draw
  cases ho : s.objects[a]? with
  | none =>
    rw [hst.objects.missing ho]
    exact .done rfl (.refl hst)
  | some o =>
    obtain ⟨o', ho', hoo'⟩ := hst.objects.entry a o ho
    obtain ⟨kind, attributes⟩ := o
    obtain ⟨kind', attributes'⟩ := o'
    obtain rfl : kind' = kind := hoo'.kind
    rw [ho']
    cases kind' with
    | random state =>
      refine .done rfl ((Tables.modifyObject hst a (fun x y hxy => ?_)).follows_data rfl rfl)
      exact ⟨rfl, hxy.attributes⟩
    | _ => exact .done rfl (.refl hst)

theorem alike_drawBelow (a : Address) (bound : Int) :
    w.Alike inside w.Dat s t (HostMethod.drawBelow a bound)
      (HostMethod.drawBelow (w.shifts.object.apply a) bound) :=
  (alike_draw a).bind (fun _ _ _ _ _ heq => heq ▸ alike_plainData rfl trivial)

theorem alike_nextBelow (a : Address) (bound : HostValue) :
    w.Alike true w.Dat s t (HostMethod.nextBelow a bound)
      (HostMethod.nextBelow (w.shifts.object.apply a) (bound.shift w.shifts)) := by
  refine .of_parallel (fun hst => ?_)
  have hshown := HostValue.write_shift w.shifts (f := fun _ => "") (g := fun _ => "") (fun _ => rfl) false bound
  intro hst
  unfold HostMethod.nextBelow
  simp only [hshown, HostValue.number?_shift, hst.kindName]
  split
  · exact alike_escape (.inl rfl) hst
  · split
    · exact alike_escape (.inl rfl) hst
    · split
      · exact alike_escape (.inl rfl) hst
      · split
        · exact alike_escape (.inl rfl) hst
        · split
          · exact alike_drawBelow a _ hst
          · exact alike_escape (.inl rfl) hst
  · split
    · exact alike_escape (.inl rfl) hst
    · exact alike_drawBelow a _ hst
  · exact alike_plainData (x := .none) rfl trivial hst

theorem alike_readLine (hobjects : w.objects = true) :
    w.Alike inside w.Dat s t HostMethod.readLine HostMethod.readLine := by
  intro hst
  unfold HostMethod.readLine
  rw [(hst.sameObjects hobjects).2]
  split
  · exact .done ⟨rfl, trivial⟩ (.refl hst)
  · exact .done ⟨rfl, trivial⟩ ((Tables.setInput hst hobjects _).follows_data rfl rfl)

theorem alike_hostMethod (hobjects : w.objects = true) (a : Address) {xs : List HostValue} (m : HostMethod) :
    w.Alike true w.Dat s t (m.run a xs) (m.run (w.shifts.object.apply a) (xs.map (HostValue.shift w.shifts))) := by
  cases m <;> simp only [HostMethod.run, data_argument]
  case norm2 => exact alike_squaredNorm a
  case explode => exact alike_escape (.inl rfl)
  case nextInt => exact alike_nextBelow a _
  case nextDouble => exact (alike_draw a).bind (fun _ _ _ _ _ heq => heq ▸ alike_plainData rfl trivial)
  case nextBool => exact (alike_draw a).bind (fun _ _ _ _ _ heq => heq ▸ alike_plainData rfl trivial)
  case readLineSync => exact alike_readLine hobjects

/-! ### Methods of errors -/

theorem alike_errorMethod {a : Address} (ha : w.Known s (.error a)) {xs : List HostValue}
    (hxs : ∀ x ∈ xs, x.Known (w.Known s)) (m : ErrorMethod) :
    w.Alike true w.Dat s t (m.run a xs) (m.run (w.shifts.error.apply a) (xs.map (HostValue.shift w.shifts))) := by
  cases m <;> simp only [ErrorMethod.run, data_argument]
  case attachLocation =>
    have hset {line : HostValue} (hline : line.Known (w.Known s)) : w.Alike true w.Dat s t
        (do
          modify (fun s => s.modifyError a (fun e =>
            if e.located then e
            else { e with line := line, column := xs[1]?.getD HostValue.none, located := true }))
          pure HostValue.none)
        (do
          modify (fun s => s.modifyError (w.shifts.error.apply a) (fun e =>
            if e.located then e
            else { e with
              line := line.shift w.shifts, column := (xs[1]?.getD HostValue.none).shift w.shifts
              located := true }))
          pure HostValue.none) := by
      refine alike_change (fun hst => ?_) (fun _ _ _ => alike_plainData rfl trivial)
      have hlocated {e : ErrorRecord} (hw : w.placed = true) (he : s.errors[a]? = some e) : e.located = true := by
        obtain ⟨e', he', hplace⟩ := ha hw
        obtain rfl : e = e' := Option.some.inj (he.symm.trans he')
        exact hplace.1
      refine Tables.follows (Tables.modifyError hst a (fun e e' he hee' => ?_)) (later_modifyError s a ?_)
        (later_modifyError t _ ?_)
      · rw [hee'.located]
        split
        · exact hee'
        · rename_i hno
          exact { hee' with
            line := rfl, column := rfl, located := rfl
            noted := fun hw => absurd (hlocated hw he) hno
            place := fun _ => ⟨hline, known_dataArgument hxs 1⟩ }
      · intro hw e he
        rw [if_pos (hlocated hw he)]
        exact ⟨rfl, rfl, rfl, rfl⟩
      · intro hw e' he'
        obtain ⟨e, he, -⟩ := ha hw
        obtain ⟨e'', he'', hee''⟩ := hst.errors.entry a e he
        obtain rfl : e' = e'' := Option.some.inj (he'.symm.trans he'')
        rw [if_pos (hee''.located.trans (hlocated hw he))]
        exact ⟨rfl, rfl, rfl, rfl⟩
    have hfirst := known_dataArgument hxs 0
    cases hx : xs[0]?.getD .none with
    | none => exact alike_plainData rfl trivial
    | _ => exact hset (hx ▸ hfirst)
  case withTraceback =>
    cases xs[0]?.getD .none with
    | none => exact alike_data (x := .value (.error a)) ha
    | _ => exact alike_escape (.inl rfl)
  case addNote =>
    cases xs[0]?.getD .none with
    | text u => exact alike_plainData rfl trivial
    | _ => exact alike_typeComplaint "note must be a str, not '" "'" _

/-! ### Functions of the host -/

theorem complaint?_shift (σ : Shifts) (count : Nat) (f : HostFunction) :
    (f.shift σ).complaint? count = f.complaint? count := by
  cases f <;> rfl

theorem alike_callBack (hc : w.Callers c c') {f : Value} (hf : f.Known (w.Known s)) {xs : List HostValue}
    (hxs : ∀ x ∈ xs, x.Known (w.Known s)) :
    w.Alike inside w.Dat s t (HostFunction.callBack c f xs)
      (HostFunction.callBack c' (f.shift w.shifts) (xs.map (HostValue.shift w.shifts))) := by
  unfold HostFunction.callBack
  rw [← shiftAll_eq_map]
  refine (alike_fromHostAll hxs).bind (fun s₁ t₁ vs ws hf₁ hvs => ?_)
  obtain ⟨rfl, hknown⟩ := hvs
  refine (hc.call (hf.mono hf₁.first.known) hknown).weaken.bind (fun s₂ t₂ v v' _ hv => ?_)
  obtain ⟨rfl, hv⟩ := hv
  exact (reads_toHost hv).alike (fun _ _ h => h)

theorem alike_callData (hc : w.Callers c c') {f : HostValue} (hf : f.Known (w.Known s)) {xs : List HostValue}
    (hxs : ∀ x ∈ xs, x.Known (w.Known s)) :
    w.Alike inside w.Dat s t (HostFunction.callData c f xs)
      (HostFunction.callData c' (f.shift w.shifts) (xs.map (HostValue.shift w.shifts))) := by
  have hnot (h : HostValue) : w.Alike inside w.Dat s t (fun s => escape (.notCallable (h.kindName s)) s)
      (fun t => escape (.notCallable ((h.shift w.shifts).kindName t)) t) := by
    intro hst
    beta_reduce
    rw [hst.kindName]
    exact alike_escape (.inr rfl) hst
  cases f with
  | callback g => exact alike_callBack hc hf hxs
  | _ => exact hnot _

theorem alike_callData_one (hc : w.Callers c c') {f x : HostValue} (hf : f.Known (w.Known s)) (hx : x.Known (w.Known s)) :
    w.Alike inside w.Dat s t (HostFunction.callData c f [x])
      (HostFunction.callData c' (f.shift w.shifts) [x.shift w.shifts]) :=
  alike_callData hc hf (List.forall_mem_singleton.mpr hx)

/-- Errors that leave corresponding constructs are told their places in both stores. -/
theorem alike_attach (hc : w.Callers c c') (hw : w.placed = false) (a : Address) (location : Syntax.Location) :
    w.Alike inside (fun _ _ _ _ => True) s t (attach c a location) (attach c' (w.shifts.error.apply a) location) := by
  intro hst
  unfold attach
  rw [hst.hook? a]
  cases hf : s.hook? a with
  | none => exact .done trivial ((Tables.locate hst hw a location).follows (later_locate hw _ _ _) (later_locate hw _ _ _))
  | some f =>
    have hplain : ∀ x ∈ placeData location, x.shift w.shifts = x ∧ x.Known (w.Known s) := by
      cases location <;> simp [placeData, HostValue.shift, HostValue.Known]
    have hcall : w.Alike inside w.Dat s t (HostFunction.callData c f (placeData location))
        (HostFunction.callData c' (f.shift w.shifts) ((placeData location).map (HostValue.shift w.shifts))) :=
      alike_callData hc (hst.hook?_known hf) (fun x hx => (hplain x hx).2)
    rw [List.map_congr_left (fun x hx => (hplain x hx).1), List.map_id'] at hcall
    exact hcall.bind (fun _ _ _ _ _ _ => alike_pure trivial) hst

theorem Alike.within {α β : Type} {Q : Store → Store → α → β → Prop} {x : Action α} {y : Action β} (hc : w.Callers c c')
    (hw : w.placed = false) (location : Syntax.Location) (h : w.Alike false Q s t x y) :
    w.Settled Q s t (within c location x) (within c' location y) := by
  intro hst
  have h' := h hst
  have hknown (s' : Store) (a : Address) : w.Known s' (.error a) := fun hw' => absurd hw' (by simp [hw])
  unfold Action.within
  generalize x s = o at h' ⊢
  generalize y t = o' at h' ⊢
  cases h' with
  | done hq hf => exact .done hq hf
  | @raised e s' t' hp hf =>
    have hraise : w.Alike false Q s' t' (raiseFrom c location e) (raiseFrom c' location (w.shifts.error.apply e)) :=
      (alike_attach hc hw e location).bind (fun s'' _ _ _ _ _ => alike_raise (hknown s'' e))
    exact ((hraise hf.parallel).after hf).mono (fun s'' _ a _ => hknown s'' a) (fun _ _ _ _ _ hq => hq)
  | escaped hfail hf => exact .escaped hfail hf
  | exhausted hf => exact .exhausted hf
  | gaveUp hw => exact .gaveUp hw

theorem seedState_shift (hobjects : w.objects = true) (hst : w.Parallel s t) (seed : HostValue) :
    seedState t (seed.shift w.shifts) = seedState s seed := by
  have hsize : t.objects.size = s.objects.size := by
    rw [hst.objects.size, (hst.sameObjects hobjects).1, Nat.add_zero]
  cases seed with
  | none | bool _ | int _ | float _ | text _ => simp only [HostValue.shift, seedState, hsize]
  | _ => rfl

theorem alike_newObject (hobjects : w.objects = true) {x y : HostObject}
    (hxy : w.ObjectsAlike (w.Known s) x y) :
    w.Alike inside w.Val s t (update (fun s => s.addObject x)) (update (fun t => t.addObject y)) :=
  alike_update (fun hst => ⟨⟨congrArg Value.object hst.objects.fresh, trivial⟩,
    (Tables.addObject hst hobjects hxy).follows_data rfl rfl⟩)

theorem alike_newRandom (hobjects : w.objects = true) (seed : HostValue) :
    w.Alike true w.Dat s t (HostFunction.newRandom seed) (HostFunction.newRandom (seed.shift w.shifts)) := by
  intro hst
  unfold HostFunction.newRandom
  rw [seedState_shift hobjects hst]
  cases seedState s seed with
  | error f => exact alike_escape (.inl rfl) hst
  | ok state =>
    refine .done ⟨?_, trivial⟩ ((Tables.addObject hst hobjects ⟨rfl, ⟨rfl, by simp⟩⟩).follows_data rfl rfl)
    exact congrArg (fun a => HostValue.value (.object a)) hst.objects.fresh

theorem alike_apply (hc : w.Callers c c') {f : HostFunction} (hf : f.Known (w.Known s))
    (hobjects : w.objects = false → f.usesObjects = false) {xs : List HostValue}
    (hxs : ∀ x ∈ xs, x.Known (w.Known s)) :
    w.Alike true w.Dat s t (f.apply c xs) ((f.shift w.shifts).apply c' (xs.map (HostValue.shift w.shifts))) := by
  -- a function that makes or uses objects runs only where there are the same ones
  have hwith (h : f.usesObjects = true) : w.objects = true := by
    cases hw : w.objects with
    | true => rfl
    | false => exact absurd h (by simp [hobjects hw])
  cases f <;> simp only [HostFunction.shift, HostFunction.apply, data_argument]
  case callback f => exact alike_callBack hc hf hxs
  case makePoint =>
    have hpoint : w.ObjectsAlike (w.Known s) { kind := .point, attributes := ["x", "y"].zip xs }
        { kind := .point, attributes := ["x", "y"].zip (xs.map (HostValue.shift w.shifts)) } := by
      refine ⟨rfl, ?_, fun e he => hxs e.2 (List.of_mem_zip he).2⟩
      simp only [List.zip_map_right]
      rfl
    refine (alike_newObject (hwith rfl) hpoint).bind (fun _ _ v v' _ hv => ?_)
    · obtain ⟨rfl, hv⟩ := hv
      exact alike_data (x := .value v) hv
  case makeRandom => exact alike_newRandom (hwith rfl) _
  case applyTwice =>
    have h₀ := known_dataArgument hxs 0
    refine (alike_callData_one hc h₀ (known_dataArgument hxs 1)).bind (fun s' t' x x' hf hx => ?_)
    obtain ⟨rfl, hx⟩ := hx
    exact alike_callData_one hc (HostValue.Known.mono hf.first.known _ h₀) hx
  case echo => exact alike_data (known_dataArgument hxs 0)
  case method a m => exact alike_hostMethod (hwith rfl) a m
  case errorMethod a m => exact alike_errorMethod hf hxs m

theorem alike_hostFunction (hc : w.Callers c c') {f : HostFunction} (hf : f.Known (w.Known s))
    (hobjects : w.objects = false → f.usesObjects = false) {xs : List HostValue}
    (hxs : ∀ x ∈ xs, x.Known (w.Known s)) :
    w.Alike true w.Dat s t (f.run c xs) ((f.shift w.shifts).run c' (xs.map (HostValue.shift w.shifts))) := by
  unfold HostFunction.run
  rw [complaint?_shift, List.length_map]
  split
  · exact alike_escape (.inl rfl)
  · exact alike_apply hc hf hobjects hxs

/-! ### Attributes -/

theorem alike_noMember {α β : Type} {Q : Store → Store → α → β → Prop} {v : Value} (hv : v.Known (w.Known s))
    (name : String) : w.Alike inside Q s t (noMember v name) (noMember (v.shift w.shifts) name) := by
  intro hst
  unfold noMember
  rw [hst.typeName]
  exact alike_fail (f := .noMember v (v.typeName s) name) hv (fun _ => nofun) hst

/-- Where there are no objects, no attribute uses any. -/
theorem find?_usesObjects {K : Value → Prop} (h : w.Tables K s t) {v : Value} {name : String} {f : HostFunction}
    (hf : Attribute.find? s v name = some (.function f)) (hobjects : w.objects = false) : f.usesObjects = false := by
  have hdata {x : HostValue} (hx : Attribute.ofData x = .function f) : f.usesObjects = false := by
    cases x with
    | callback g =>
      cases hx
      rfl
    | _ => cases hx
  unfold Attribute.find? at hf
  split at hf
  · cases v with
    | object a =>
      have hnone : s.objects[a]? = none := by simp [h.noObjects hobjects]
      simp [Attribute.ofObject?, hnone] at hf
    | error a =>
      simp only [Attribute.ofError?] at hf
      split at hf
      · cases hf
      · split at hf
        · cases hf
        · split at hf
          · exact hdata (Option.some.inj hf)
          · split at hf
            · exact hdata (Option.some.inj hf)
            · split at hf
              · exact hdata (Option.some.inj hf)
              · split at hf
                · cases hf
                · split at hf
                  · cases hf
                  · obtain ⟨m, -, hm⟩ := Option.map_eq_some_iff.mp hf
                    cases hm
                    rfl
    | _ => cases hf
  · cases hf

theorem alike_readAttribute {v : Value} (hv : v.Known (w.Known s)) (name : String) :
    w.Alike inside w.Val s t (readAttribute v name) (readAttribute (v.shift w.shifts) name) := by
  intro hst
  have hsame := Tables.attribute? hst v name
  unfold readAttribute
  rw [hsame]
  cases hx : Attribute.find? s v name with
  | none => exact alike_noMember hv name hst
  | some x =>
    have hknown := hst.attribute?_known hv hx
    cases x with
    | data h => exact alike_fromHost hknown hst
    | function f => exact alike_newNative name (.host f) hknown (find?_usesObjects hst hx) hst

/-- What objects yield when they are walked over is the same in both runs. -/
theorem elements?_data {K : Value → Prop} {kind : HostClass} {xs : List HostValue} (h : kind.elements? = some xs) :
    w.DataList K xs xs := by
  cases kind with
  | bag =>
    cases h
    exact ⟨rfl, by simp [HostValue.Known, KnownAll]⟩
  | _ => cases h

theorem Tables.elements? {K : Value → Prop} (h : w.Tables K s t) (a : Nat) :
    t.objects[w.shifts.object.apply a]?.bind (fun o => o.kind.elements?) =
      s.objects[a]?.bind (fun o => o.kind.elements?) := by
  cases ho : s.objects[a]? with
  | none => rw [h.objects.missing ho]
  | some o =>
    obtain ⟨o', ho', hoo'⟩ := h.objects.entry a o ho
    simp only [ho', Option.bind_some, hoo'.kind]

theorem alike_errorArguments {x : HostValue} (hx : x.Known (w.Known s)) :
    w.Alike true (fun s' _ => w.DataList (w.Known s')) s t (errorArguments x) (errorArguments (x.shift w.shifts)) := by
  cases x with
  | list items => exact alike_pure ⟨shiftAll_eq_map _ _, knownAll_iff.mp hx⟩
  | set items => exact alike_pure ⟨shiftAll_eq_map _ _, knownAll_iff.mp hx⟩
  | dict entries =>
    refine alike_pure ⟨?_, fun h hh => ?_⟩
    · simp [shiftEntries_eq_map, shiftEntry, Function.comp_def]
    · obtain ⟨e, he, rfl⟩ := List.mem_map.mp hh
      exact (knownEntries_iff.mp hx e he).1
  | text u =>
    refine alike_pure ⟨?_, fun h hh => ?_⟩
    · simp [HostValue.shift, Function.comp_def]
    · obtain ⟨c, -, rfl⟩ := List.mem_map.mp hh
      trivial
  | value v =>
    cases v with
    | object a =>
      have hnone := alike_typeComplaint (w := w) (s := s) (t := t)
        (Q := fun s' _ => w.DataList (w.Known s')) "'" "' object is not iterable" (.value (.object a))
      intro hst
      have hmatches := hnone hst
      unfold errorArguments
      simp only [HostValue.shift, Value.shift, hst.elements?] at hmatches ⊢
      cases hitems : s.objects[a]?.bind (fun o => o.kind.elements?) with
      | none => exact hmatches
      | some items =>
        obtain ⟨o, -, ho⟩ := Option.bind_eq_some_iff.mp hitems
        exact .done (elements?_data ho) (.refl hst)
    | _ => exact alike_typeComplaint "'" "' object is not iterable" (.value _)
  | _ => exact alike_typeComplaint "'" "' object is not iterable" _

theorem visible_put {name : String} (hname : name ≠ noteName) (x : HostValue) (xs : List (String × HostValue)) :
    w.visible (Attribute.put name x xs) = Attribute.put name x (w.visible xs) := by
  induction xs with
  | nil => simp [Attribute.put, visible, hname]
  | cons b rest ih =>
    simp only [visible] at ih
    by_cases hb : b.1 = name
    · simp [Attribute.put, visible, hb, hname]
    · have hput (more : List (String × HostValue)) : Attribute.put name x (b :: more) = b :: Attribute.put name x more := by
        simp [Attribute.put, hb]
      simp only [visible, hput, List.filter_cons, ih]
      split
      · rw [hput]
      · rfl

theorem find?_put_of_ne {name other : String} (h : name ≠ other) (x : HostValue) (xs : List (String × HostValue)) :
    tableFind? (Attribute.put name x xs) other = tableFind? xs other := by
  induction xs with
  | nil => simp [Attribute.put, tableFind?, h]
  | cons b rest ih =>
    simp only [tableFind?] at ih
    by_cases hb : b.1 = name
    · simp [Attribute.put, tableFind?, hb, h]
    · by_cases hother : b.1 = other
      · simp [Attribute.put, tableFind?, hother, Ne.symm h]
      · simpa [Attribute.put, tableFind?, hb, hother] using ih

/-- Assigning an attribute of an error. Where places are noted, they are not assigned. -/
theorem alike_assignErrorAttribute (a : Address) {name : String} (hpublic : name ≠ noteName)
    (hname : w.placed = true → name ∉ placeMembers) {x : HostValue} (hx : x.Known (w.Known s)) :
    w.Alike true (fun _ _ _ _ => True) s t (assignErrorAttribute a name x)
      (assignErrorAttribute (w.shifts.error.apply a) name (x.shift w.shifts)) := by
  have hset {s t : Store} {f g : ErrorRecord → ErrorRecord} (hst : w.Parallel s t)
      (hfg : ∀ e e', s.errors[a]? = some e → w.RecordsAlike (w.Known s) e e' → w.RecordsAlike (w.Known s) (f e) (g e'))
      (hf : w.placed = true → ∀ e, e.SamePlace (f e)) (hg : w.placed = true → ∀ e, e.SamePlace (g e)) :
      w.Follows s t (s.modifyError a f) (t.modifyError (w.shifts.error.apply a) g) :=
    (Tables.modifyError hst a hfg).follows (later_modifyError s a (fun hw e _ => hf hw e))
      (later_modifyError t _ (fun hw e _ => hg hw e))
  have hnot {P : Prop} (hplace : ¬name ∉ placeMembers) (hw : w.placed = true) : P :=
    absurd (hname hw) hplace
  unfold assignErrorAttribute
  refine alike_ite (fun _ => ?_) (fun _ => alike_ite (fun hline => alike_modify (fun hst => ?_)) (fun _ =>
    alike_ite (fun hcolumn => alike_modify (fun hst => ?_)) (fun _ => ?_)))
  · exact alike_report (fun hst => by rw [hst.fault, Fault.kind_shift])
  · have hplace : ¬name ∉ placeMembers := fun h => h (by simp [placeMembers, beq_iff_eq.mp hline])
    refine hset hst (fun e e' he hee' => ?_) (hnot hplace) (hnot hplace)
    exact { hee' with line := rfl, noted := hnot hplace, place := fun hw => ⟨hx, (hee'.place hw).2⟩ }
  · have hplace : ¬name ∉ placeMembers := fun h => h (by simp [placeMembers, beq_iff_eq.mp hcolumn])
    refine hset hst (fun e e' he hee' => ?_) (hnot hplace) (hnot hplace)
    exact { hee' with column := rfl, noted := hnot hplace, place := fun hw => ⟨(hee'.place hw).1, hx⟩ }
  · -- the attribute is stored after the data have been made ready for it
    have hput {s t : Store} {y y' : HostValue} (hy : w.Data (w.Known s) y y') :
        w.Alike true (fun _ _ _ _ => True) s t
          (modify (fun s => s.modifyError a (fun e => { e with assigned := Attribute.put name y e.assigned })))
          (modify (fun s => s.modifyError (w.shifts.error.apply a)
            (fun e => { e with assigned := Attribute.put name y' e.assigned }))) := by
      have hsame (e : ErrorRecord) (z : HostValue) : e.SamePlace { e with assigned := Attribute.put name z e.assigned } :=
        ⟨rfl, rfl, rfl, find?_put_of_ne hpublic z e.assigned⟩
      refine alike_modify (fun hst => hset hst (fun e e' _ hee' => ?_) (fun _ e => hsame e y) (fun _ e => hsame e y'))
      refine { hee' with assigned := ⟨?_, fun b hb => ?_⟩, noted := fun hw he => ?_, unhooked := fun hw => ?_ }
      · rw [visible_put hpublic, visible_put hpublic, hee'.assigned.same, hy.same, Attribute.put_shift]
      · rw [visible_put hpublic] at hb
        rcases Attribute.mem_put hb with rfl | hb
        · exact hy.known
        · exact hee'.assigned.known b hb
      · exact (hsame e' y').note.trans (hee'.noted hw he)
      · have hother : name ≠ "attach_location" := fun h => hname hw (by simp [placeMembers, h])
        exact (find?_put_of_ne hother y e.assigned).trans (hee'.unhooked hw)
    refine alike_ite (fun _ => ?_) (fun _ => hput ⟨rfl, hx⟩)
    refine (alike_errorArguments hx).bind (fun _ _ xs ys _ hxy => hput ⟨?_, knownAll_iff.mpr hxy.known⟩)
    rw [hxy.same, HostValue.shift, shiftAll_eq_map]

theorem isPublic_of_find? {v : Value} {name : String} {x : Attribute} (hx : Attribute.find? s v name = some x) :
    Attribute.isPublic name = true := by
  unfold Attribute.find? at hx
  split at hx
  · assumption
  · cases hx

/-- An attribute that a value has is given another value. -/
def replaceAttribute (receiver : Value) (name : String) (v : Value) : Action Value := do
  let h ← toHost v
  match receiver with
  | .object a => modify (fun s => s.modifyObject a (fun o => { o with attributes := Attribute.put name h o.attributes }))
  | .error a => delegate (assignErrorAttribute a name h)
  | _ => pure ()
  pure v

theorem alike_replaceAttribute {name : String} (hpublic : name ≠ noteName)
    (hname : w.placed = true → name ∉ placeMembers) (v : Value) {u : Value} (hu : u.Known (w.Known s)) :
    w.Alike inside w.Val s t (replaceAttribute v name u)
      (replaceAttribute (v.shift w.shifts) name (u.shift w.shifts)) := by
  refine (reads_toHost hu).bind (fun x _ hx => ?_)
  obtain ⟨rfl, hx⟩ := hx
  cases v with
  | object a =>
    refine alike_change (fun hst => ?_) (fun _ _ hf => alike_value (hu.mono hf.first.known))
    have hput (o o' : HostObject) (hoo' : w.ObjectsAlike (w.Known s) o o') : w.ObjectsAlike (w.Known s)
        { o with attributes := Attribute.put name x o.attributes }
        { o' with attributes := Attribute.put name (x.shift w.shifts) o'.attributes } := by
      refine ⟨hoo'.kind, ?_, fun b hb => ?_⟩
      · rw [hoo'.attributes.same, Attribute.put_shift]
      · rcases Attribute.mem_put hb with rfl | hb
        · exact hx
        · exact hoo'.attributes.known b hb
    exact (Tables.modifyObject hst a hput).follows_data rfl rfl
  | error a =>
    refine (Alike.delegate (alike_assignErrorAttribute a hpublic hname hx)).bind (fun _ _ _ _ hf _ => ?_)
    exact alike_value (hu.mono hf.first.known)
  | _ => exact alike_value hu

theorem alike_assignAttribute {v : Value} (hv : v.Known (w.Known s)) {name : String}
    (hname : w.placed = true → name ∉ placeMembers) {u : Value} (hu : u.Known (w.Known s)) :
    w.Alike inside w.Val s t (assignAttribute v name u)
      (assignAttribute (v.shift w.shifts) name (u.shift w.shifts)) := by
  intro hst
  unfold assignAttribute
  rw [Tables.attribute? hst v name]
  cases hfound : Attribute.find? s v name with
  | none => exact alike_noMember hv name hst
  | some x => exact alike_replaceAttribute (ne_noteName (isPublic_of_find? hfound)) hname v hu hst

theorem alike_callAttribute (hc : w.Callers c c') {v : Value} (hv : v.Known (w.Known s)) (name : String)
    {arguments : List Value} (hargs : ∀ u ∈ arguments, u.Known (w.Known s)) :
    w.Alike inside w.Val s t (callAttribute c v name arguments)
      (callAttribute c' (v.shift w.shifts) name (arguments.map (Value.shift w.shifts))) := by
  intro hst
  have hsame := Tables.attribute? hst v name
  unfold callAttribute
  rw [hsame]
  cases hx : Attribute.find? s v name with
  | none =>
    simp only [Option.map_none, List.isEmpty_map]
    split
    · exact (alike_textOf v).bind (fun _ _ text _ _ heq => heq ▸ alike_plain rfl) hst
    · exact alike_noMember hv name hst
  | some x =>
    have hknown := hst.attribute?_known hv hx
    cases x with
    | data h =>
      refine ((alike_fromHost hknown).bind (fun s' t' f f' hf hff' => ?_)) hst
      obtain ⟨rfl, hff'⟩ := hff'
      exact (hc.call hff' (fun u hu => (hargs u hu).mono hf.first.known)).weaken
    | function f =>
      refine ((reads_toHostAll hargs).bind (fun xs ys hxy => ?_)) hst
      obtain ⟨rfl, hxs⟩ := hxy
      have hrun := alike_hostFunction (t := t) hc hknown (find?_usesObjects hst hx) hxs
      refine hrun.delegate.bind (fun s' t' h h' _ hh => ?_)
      obtain ⟨rfl, hh⟩ := hh
      exact alike_fromHost hh

end Dartlet.Comparison
