import Dartlet.Proofs.Parallel.Stores

/-!
# Changes of parallel stores

The same change of corresponding entries, or corresponding new entries, leave two stores parallel.
-/

namespace Dartlet.Comparison

variable {w : Comparison} {K : Value → Prop} {s t : Store}

/-! ### New entries -/

namespace Tables

theorem addList (h : w.Tables K s t) {xs ys : Array Value} (hxy : w.Arrays K xs ys) :
    w.Tables K (s.addList xs).2 (t.addList ys).2 :=
  { h with lists := h.lists.push hxy }

theorem addIterable (h : w.Tables K s t) {xs ys : List Value} (hxy : w.Values K xs ys) :
    w.Tables K (s.addIterable xs).2 (t.addIterable ys).2 :=
  { h with iterables := h.iterables.push hxy }

theorem addSet (h : w.Tables K s t) {xs ys : List Value} (hxy : w.Values K xs ys) :
    w.Tables K (s.addSet xs).2 (t.addSet ys).2 :=
  { h with sets := h.sets.push hxy }

theorem addMap (h : w.Tables K s t) {xs ys : List (Value × Value)} (hxy : w.Pairs K xs ys) :
    w.Tables K (s.addMap xs).2 (t.addMap ys).2 :=
  { h with maps := h.maps.push hxy }

theorem addNative (h : w.Tables K s t) {f g : NativeFunction} (hfg : w.NativesAlike K f g) :
    w.Tables K (s.addNative f).2 (t.addNative g).2 :=
  { h with natives := h.natives.push hfg }

theorem addClosure (h : w.Tables K s t) {f g : Closure} (hfg : w.ClosuresAlike f g)
    (hscope : w.shifts.scope.gap ≠ 0 → f.scope < s.scopes.size) :
    w.Tables K (s.addClosure f).2 (t.addClosure g).2 :=
  { h with
    closures := h.closures.push hfg
    ordered := by
      intro hgap
      refine ⟨(h.ordered hgap).1, fun f' hf' => ?_⟩
      rcases Array.mem_push.mp hf' with hf' | rfl
      · exact (h.ordered hgap).2 f' hf'
      · exact hscope hgap }

theorem addError (h : w.Tables K s t) {f : Fault} (hknown : f.Known K)
    (hhandled : w.handled = true → f ≠ .rethrowOutsideCatch) :
    w.Tables K (s.addError f).2 (t.addError (f.shift w.shifts)).2 := by
  refine { h with errors := h.errors.push ⟨rfl, hknown, hhandled, ⟨rfl, List.forall_mem_nil _⟩, rfl, rfl, rfl, nofun, fun _ => rfl, fun _ => ⟨trivial, trivial⟩⟩ }

theorem addObject (h : w.Tables K s t) (hobjects : w.objects = true) {x y : HostObject} (hxy : w.ObjectsAlike K x y) :
    w.Tables K (s.addObject x).2 (t.addObject y).2 :=
  { h with
    objects := h.objects.push hxy
    noObjects := fun hnone => absurd hobjects (by simp [hnone]) }

end Tables

theorem later_addError (s : Store) (f : Fault) : w.Later s (s.addError f).2 := by
  refine ⟨fun a x hx => ⟨x, hx, rfl, rfl⟩, fun a e he => ⟨e, ?_, fun _ => ⟨rfl, rfl, rfl, rfl⟩⟩, fun _ _ h => h, Nat.le_refl _⟩
  exact Array.getElem?_push_of_some _ he

theorem later_addNative (s : Store) (f : NativeFunction) : w.Later s (s.addNative f).2 := by
  refine ⟨fun a x hx => ⟨x, hx, rfl, rfl⟩, fun a e he => ⟨e, he, fun _ => ⟨rfl, rfl, rfl, rfl⟩⟩, fun a g hg => ?_, Nat.le_refl _⟩
  exact Array.getElem?_push_of_some _ hg

/-- A native function that has just been made may be held. -/
theorem known_addNative (s : Store) (f : NativeFunction) :
    (s.addNative f).1.Known (w.Known (s.addNative f).2) :=
  fun _ => by simp [Store.addNative]

/-! ### Changed entries -/

namespace Tables

theorem setList (h : w.Tables K s t) (a : Address) {xs ys : Array Value} (hxy : w.Arrays K xs ys) :
    w.Tables K (s.setList a xs) (t.setList (w.shifts.list.apply a) ys) :=
  { h with lists := h.lists.set a hxy }

theorem modifyList (h : w.Tables K s t) (a : Address) {f g : Array Value → Array Value}
    (hfg : ∀ xs ys, w.Arrays K xs ys → w.Arrays K (f xs) (g ys)) :
    w.Tables K (s.modifyList a f) (t.modifyList (w.shifts.list.apply a) g) :=
  { h with lists := h.lists.modify (fun xs ys _ hxy => hfg xs ys hxy) }

theorem setSet (h : w.Tables K s t) (a : Address) {xs ys : List Value} (hxy : w.Values K xs ys) :
    w.Tables K (s.setSet a xs) (t.setSet (w.shifts.set.apply a) ys) :=
  { h with sets := h.sets.set a hxy }

theorem setMap (h : w.Tables K s t) (a : Address) {xs ys : List (Value × Value)} (hxy : w.Pairs K xs ys) :
    w.Tables K (s.setMap a xs) (t.setMap (w.shifts.map.apply a) ys) :=
  { h with maps := h.maps.set a hxy }

theorem modifyError (h : w.Tables K s t) (a : Address) {f g : ErrorRecord → ErrorRecord}
    (hfg : ∀ e e', s.errors[a]? = some e → w.RecordsAlike K e e' → w.RecordsAlike K (f e) (g e')) :
    w.Tables K (s.modifyError a f) (t.modifyError (w.shifts.error.apply a) g) :=
  { h with errors := h.errors.modify hfg }

theorem modifyObject (h : w.Tables K s t) (a : Address) {f g : HostObject → HostObject}
    (hfg : ∀ x y, w.ObjectsAlike K x y → w.ObjectsAlike K (f x) (g y)) :
    w.Tables K (s.modifyObject a f) (t.modifyObject (w.shifts.object.apply a) g) :=
  { h with
    objects := h.objects.modify (fun x y _ hxy => hfg x y hxy)
    noObjects := fun hnone => by simp [Store.modifyObject, h.noObjects hnone] }

theorem setInput (h : w.Tables K s t) (hobjects : w.objects = true) (input : List Char) :
    w.Tables K { s with input := input } { t with input := input } :=
  { h with sameObjects := fun _ => ⟨(h.sameObjects hobjects).1, rfl⟩ }

theorem setOutput (h : w.Tables K s t) (output : String) :
    w.Tables K { s with output := output } { t with output := output } :=
  { h with output := rfl }

end Tables

/-- Changing an error leaves the places of all errors as they are if it leaves that of this error. -/
theorem later_modifyError (s : Store) (a : Address) {f : ErrorRecord → ErrorRecord}
    (hf : w.placed = true → ∀ e, s.errors[a]? = some e → e.SamePlace (f e)) : w.Later s (s.modifyError a f) := by
  refine ⟨fun b x hx => ⟨x, hx, rfl, rfl⟩, fun b e he => ?_, fun _ _ h => h, Nat.le_refl _⟩
  simp only [Store.modifyError]
  rw [Array.getElem?_modify, he]
  split
  · rename_i hab
    subst hab
    exact ⟨f e, rfl, fun hw => hf hw e he⟩
  · exact ⟨e, rfl, fun _ => ⟨rfl, rfl, rfl, rfl⟩⟩

/-! ### Scopes -/

theorem shown_put {name : String} (hname : w.hidden name = false) (v : Value) (bindings : List (String × Value)) :
    w.shown (Scope.put name v bindings) = Scope.put name v (w.shown bindings) := by
  induction bindings with
  | nil => simp [Scope.put, shown, hname]
  | cons b rest ih =>
    simp only [shown] at ih
    by_cases hb : b.1 = name
    · subst hb
      simp [Scope.put, shown, hname]
    · cases hhidden : w.hidden b.1 <;> simp [Scope.put, shown, hb, hhidden, ih]

theorem map_put (σ : Shifts) (name : String) (v : Value) (bindings : List (String × Value)) :
    Scope.put name (v.shift σ) (bindings.map (shiftBinding σ)) = (Scope.put name v bindings).map (shiftBinding σ) := by
  induction bindings with
  | nil => rfl
  | cons b rest ih =>
    simp only [Scope.put, List.map_cons, shiftBinding] at ih ⊢
    split
    · simp [shiftBinding]
    · simp [ih, shiftBinding]

theorem mem_put {name : String} {v : Value} {bindings : List (String × Value)} {b : String × Value}
    (hb : b ∈ Scope.put name v bindings) : b = (name, v) ∨ b ∈ bindings := by
  induction bindings with
  | nil => exact .inl (by simpa [Scope.put] using hb)
  | cons c rest ih =>
    simp only [Scope.put] at hb
    split at hb
    · rcases List.mem_cons.mp hb with rfl | hb
      · exact .inl rfl
      · exact .inr (List.mem_cons_of_mem c hb)
    · rcases List.mem_cons.mp hb with rfl | hb
      · exact .inr List.mem_cons_self
      · exact (ih hb).imp id (List.mem_cons_of_mem c)

theorem ScopesAlike.bind {x y : Scope} (h : w.ScopesAlike K x y) {name : String} (hname : w.hidden name = false)
    {v : Value} (hv : v.Known K) : w.ScopesAlike K (x.bind name v) (y.bind name (v.shift w.shifts)) := by
  refine ⟨h.parent, h.activeError, ⟨?_, fun b hb => ?_⟩, h.active⟩
  · simp only [Scope.bind, shown_put hname, h.bindings.same, map_put]
  · simp only [Scope.bind, shown_put hname] at hb
    rcases mem_put hb with rfl | hb
    · exact hv
    · exact h.bindings.known b hb

namespace Tables

/-- The scopes with corresponding addresses. -/
theorem scope (h : w.Tables K s t) (a : Nat) : w.ScopesAlike K (s.scope a) (t.scope (w.shifts.scope.apply a)) :=
  h.scopes.getD a ⟨rfl, rfl, ⟨rfl, List.forall_mem_nil _⟩, nofun⟩

theorem modifyScope (h : w.Tables K s t) (a : Nat) {f g : Scope → Scope}
    (hparent : ∀ x, (f x).parent = x.parent)
    (hfg : ∀ x y, w.ScopesAlike K x y → w.ScopesAlike K (f x) (g y)) :
    w.Tables K { s with scopes := s.scopes.modify a f }
      { t with scopes := t.scopes.modify (w.shifts.scope.apply a) g } :=
  { h with
    scopes := h.scopes.modify (fun x y _ hxy => hfg x y hxy)
    ordered := by
      intro hgap
      obtain ⟨hdescends, hclosures⟩ := h.ordered hgap
      refine ⟨fun b p hp => hdescends b p ?_, fun f' hf' => by simpa using hclosures f' hf'⟩
      simp only [Store.scope, Array.getElem?_modify] at hp ⊢
      split at hp
      · rename_i hab
        subst hab
        cases hx : s.scopes[a]? with
        | none => simp [hx] at hp
        | some x => simpa [hx, hparent] using hp
      · exact hp }

theorem declare (h : w.Tables K s t) (a : Nat) {name : String} (hname : w.hidden name = false) {v : Value}
    (hv : v.Known K) :
    w.Tables K (s.declare a name v) (t.declare (w.shifts.scope.apply a) name (v.shift w.shifts)) :=
  h.modifyScope a (fun _ => rfl) (fun _ _ hxy => hxy.bind hname hv)

theorem declareAll (h : w.Tables K s t) (a : Nat) {bs cs : List (String × Value)} (hbc : w.Bindings K bs cs)
    (hnames : ∀ b ∈ bs, w.hidden b.1 = false) :
    w.Tables K (s.declareAll a bs) (t.declareAll (w.shifts.scope.apply a) cs) := by
  obtain ⟨rfl, hknown⟩ := hbc
  induction bs generalizing s t with
  | nil => exact h
  | cons b rest ih =>
    have hb := h.declare a (hnames b List.mem_cons_self) (hknown b List.mem_cons_self)
    exact ih hb (fun c hc => hnames c (List.mem_cons_of_mem b hc)) (fun c hc => hknown c (List.mem_cons_of_mem b hc))

theorem setActiveError (h : w.Tables K s t) (a : Nat) {error : Address} (herror : K (.error error)) :
    w.Tables K (s.setActiveError a error)
      (t.setActiveError (w.shifts.scope.apply a) (w.shifts.error.apply error)) :=
  h.modifyScope a (fun _ => rfl) (fun x y hxy => ⟨hxy.parent, rfl, hxy.bindings, fun b hb => by
    obtain rfl := Option.some.inj hb
    exact herror⟩)

theorem enter (h : w.Tables K s t) {parent : Nat} (hparent : w.shifts.scope.gap ≠ 0 → parent < s.scopes.size) :
    w.Tables K (s.enter parent).2 (t.enter (w.shifts.scope.apply parent)).2 :=
  { h with
    scopes := h.scopes.push ⟨rfl, rfl, ⟨rfl, List.forall_mem_nil _⟩, nofun⟩
    ordered := by
      intro hgap
      obtain ⟨hdescends, hclosures⟩ := h.ordered hgap
      refine ⟨fun b p hp => ?_, fun f hf => ?_⟩
      · simp only [Store.scope, Store.enter, Store.addScope, Array.getElem?_push] at hp
        split at hp
        · obtain rfl := Option.some.inj hp
          have hlt := hparent hgap
          omega
        · exact hdescends b p hp
      · have hlt : f.scope < s.scopes.size := hclosures f hf
        simp only [Store.enter, Store.addScope, Array.size_push]
        exact Nat.lt_succ_of_lt hlt }

theorem enter_fst (h : w.Tables K s t) (parent parent' : Nat) :
    (t.enter parent').1 = w.shifts.scope.apply (s.enter parent).1 :=
  h.scopes.fresh

end Tables

/-- Binding names changes neither what a scope lies in nor the error that it remembers. -/
theorem later_modifyScope (s : Store) (a : Nat) {f : Scope → Scope}
    (hf : ∀ x, (f x).parent = x.parent ∧ (f x).activeError = x.activeError) :
    w.Later s { s with scopes := s.scopes.modify a f } := by
  refine ⟨fun b x hx => ?_, fun b e he => ⟨e, he, fun _ => ⟨rfl, rfl, rfl, rfl⟩⟩, fun _ _ h => h,
    Nat.le_refl _⟩
  simp only [Array.getElem?_modify, hx]
  split
  · exact ⟨f x, rfl, hf x⟩
  · exact ⟨x, rfl, rfl, rfl⟩

theorem later_declare (s : Store) (a : Nat) (name : String) (v : Value) : w.Later s (s.declare a name v) :=
  later_modifyScope s a (fun _ => ⟨rfl, rfl⟩)

theorem later_declareAll (s : Store) (a : Nat) (bs : List (String × Value)) : w.Later s (s.declareAll a bs) := by
  induction bs generalizing s with
  | nil => exact .refl s
  | cons b rest ih => exact (later_declare s a b.1 b.2).trans (ih _)

theorem later_enter (s : Store) (parent : Nat) : w.Later s (s.enter parent).2 := by
  refine ⟨fun b x hx => ⟨x, ?_, rfl, rfl⟩, fun b e he => ⟨e, he, fun _ => ⟨rfl, rfl, rfl, rfl⟩⟩, fun _ _ h => h,
    Nat.le_refl _⟩
  exact Array.getElem?_push_of_some _ hx

end Dartlet.Comparison
