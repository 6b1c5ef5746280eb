import Dartlet.Host.Standard
import Dartlet.Proofs.Parallel.Moved
import Dartlet.Proofs.Parallel.Runs
import Dartlet.Proofs.Program.Names

/-!
# Names that a program does not mention

A program that does not mention a name cannot tell whether the outermost scope binds it, and to what.
Binding values that are in the store already leaves a run as it is. Where the values come with tables of
their own, what the program makes gets other addresses; the run is then the same up to these.
-/

namespace Dartlet

open Dartlet.Syntax (FunctionBody Node)

set_option linter.unusedSectionVars false

section

variable [Host]

/-! ### Stores with the same contents -/

/-- Why a run has no result, with the address of the error changed. -/
def Stop.shift (σ : Shifts) : Stop → Stop
  | .raised error => .raised (σ.error.apply error)
  | stop => stop

/-- A store that has what another one has, at other addresses, and shows it the same. -/
structure Store.Mirrors (σ : Shifts) (s t : Store) : Prop where
  output : t.output = s.output
  lists : ∀ a : Nat, t.list (σ.list.apply a) = (s.list a).map (Value.shift σ)
  iterables : ∀ a : Nat, t.iterable (σ.iterable.apply a) = (s.iterable a).map (Value.shift σ)
  sets : ∀ a : Nat, t.set (σ.set.apply a) = (s.set a).map (Value.shift σ)
  maps : ∀ a : Nat, t.map (σ.map.apply a) = (s.map a).map (shiftPair σ)
  closures : ∀ a : Nat, t.closures[σ.closure.apply a]? = s.closures[a]?.map (Closure.shift σ)
  natives : ∀ a : Nat, t.natives[σ.native.apply a]? = s.natives[a]?.map (fun f => ⟨f.name, f.code.shift σ⟩)
  errors : ∀ a : Nat, t.errors[σ.error.apply a]? = s.errors[a]?.map (ErrorRecord.shift σ)
  text : ∀ v : Value, (v.shift σ).text t = v.text s
  kind : ∀ a : Nat, (t.fault (σ.error.apply a)).kind = (s.fault a).kind
  errorText : ∀ a : Nat, t.errorText (σ.error.apply a) = s.errorText a

/-- A run that ends like another one, up to the addresses in the store. -/
structure Run.Mirrors (σ : Shifts) (r r' : Run Value) : Prop where
  result : r'.result = (r.result.map (Value.shift σ)).mapError (Stop.shift σ)
  store : r.store.Mirrors σ r'.store

/-- A store that has all tables of another one, and may have more. -/
structure Store.Includes (t s : Store) : Prop where
  scopes : s.scopes.toList <+: t.scopes.toList
  lists : s.lists.toList <+: t.lists.toList
  iterables : s.iterables.toList <+: t.iterables.toList
  sets : s.sets.toList <+: t.sets.toList
  maps : s.maps.toList <+: t.maps.toList
  closures : s.closures.toList <+: t.closures.toList
  natives : s.natives.toList <+: t.natives.toList
  errors : s.errors.toList <+: t.errors.toList
  objects : s.objects.toList <+: t.objects.toList
  globals : t.globals = s.globals
  output : t.output = s.output

/-- The addresses of what is made after a table has been extended. -/
def Shift.past {α : Type} (xs ys : Array α) : Shift := ⟨xs.size, ys.size - xs.size⟩

/-- The addresses of what is made after a store has been extended. -/
def Shifts.past (s t : Store) : Shifts :=
  ⟨.past s.scopes t.scopes, .past s.lists t.lists, .past s.iterables t.iterables, .past s.sets t.sets,
    .past s.maps t.maps, .past s.closures t.closures, .past s.natives t.natives, .past s.errors t.errors,
    .past s.objects t.objects⟩

namespace Comparison

variable {w : Comparison} {K : Value → Prop} {s t : Store}

/-! ### Reading both stores -/

theorem Tables.errorText (h : w.Tables K s t) (a : Nat) :
    t.errorText (w.shifts.error.apply a) = s.errorText a := by
  have hshown (x : HostValue) : (x.shift w.shifts).write (Value.text t) false = x.write (Value.text s) false :=
    HostValue.write_shift w.shifts h.text false x
  unfold Store.errorText
  cases he : s.errors[a]? with
  | none => rw [h.errors.missing he]
  | some e =>
    obtain ⟨e', he', hee'⟩ := h.errors.entry a e he
    rw [he', h.errorMessage]
    simp only [hee'.line, hee'.column]
    have hline := hshown e.line
    have hcolumn := hshown e.column
    generalize e.line = line at hline ⊢
    generalize e.column = column at hcolumn ⊢
    cases line with
    | none => rfl
    | _ =>
      cases column with
      | none =>
        simp only [HostValue.shift] at hline ⊢
        rw [hline]
      | _ =>
        simp only [HostValue.shift] at hline hcolumn ⊢
        rw [hline, hcolumn]

theorem Tables.mirrors (hw : w.placed = false) (h : w.Tables K s t) : s.Mirrors w.shifts t where
  output := h.output
  lists a := (h.list a).toArray
  iterables a := (h.iterable a).same
  sets a := (h.set a).same
  maps a := (h.map a).same
  closures := getElem?_of_corresponds h.closures (fun _ _ hfg => hfg.same)
  natives := getElem?_of_corresponds h.natives (fun _ _ hfg => hfg.same)
  errors := getElem?_of_corresponds h.errors (fun _ _ => RecordsAlike.shift hw)
  text := h.text
  kind a := by rw [h.fault, Fault.kind_shift]
  errorText := h.errorText

theorem Concludes.mirrors (hw : w.placed = false) {r r' : Run Value} (h : w.Concludes w.Val r r') :
    r.Mirrors w.shifts r' := by
  cases h with
  | done hv hst => exact ⟨congrArg Except.ok hv.same, hst.mirrors hw⟩
  | refused hst => exact ⟨rfl, hst.mirrors hw⟩
  | raised hst => exact ⟨rfl, hst.mirrors hw⟩
  | escaped _ hst => exact ⟨rfl, hst.mirrors hw⟩
  | exhausted hst => exact ⟨rfl, hst.mirrors hw⟩

/-! ### Programs that do not mention hidden names -/

/-- The constructs that mention no hidden name. -/
def Unmentioning (hidden : String → Bool) (n : Node) : Prop := ∀ name, n.Mentions name → hidden name = false

theorem Unmentioning.part {hidden : String → Bool} {n m : Node} (h : Unmentioning hidden n) (hm : m ∈ n.children) :
    Unmentioning hidden m :=
  fun name ⟨k, hk, hname⟩ => h name ⟨k, .of_mem hm hk, hname⟩

/-- The comparison of runs whose stores differ in hidden names and have things at other addresses. -/
def concealing (σ : Shifts) (hidden : String → Bool) (objects : Bool) : Comparison :=
  { shifts := σ, hidden, objects, placed := false, handled := false, Fit := fun b => Unmentioning hidden (.body b) }

/-- Programs that mention no hidden name, wherever they run. -/
def unmentioning (σ : Shifts) (hidden : String → Bool) (objects : Bool) : (concealing σ hidden objects).Manner where
  Tree := Unmentioning hidden
  Here s a := σ.scope.gap ≠ 0 → a < s.scopes.size
  part hn _ hm := hn.part hm
  fit hb := hb
  names hn hname := hn _ ⟨_, .self, hname⟩
  writes := nofun
  bounded hgap _ _ hhere := hhere hgap
  later hhere hlater hgap := Nat.lt_of_lt_of_le (hhere hgap) hlater.scopes_size
  enter _ _ := by simp [Store.enter, Store.addScope]

section Unmentioning

variable {σ : Shifts} {hidden : String → Bool} {objects : Bool}

theorem unmentioning_opens : (unmentioning σ hidden objects).Opens where
  body hb hn := Unmentioning.part hb hn
  here h := h

theorem unmentioning_passes : (unmentioning σ hidden objects).Passes where
  clause {k} hk := by
    cases k
    exact Unmentioning.part hk List.mem_cons_self
  here {s a} error exceptionName traceName _ _ := by
    have hmarked : ((s.enter a).2.setActiveError (s.enter a).1 error).scopes.size = s.scopes.size + 1 := by
      simp [Store.setActiveError, Store.enter, Store.addScope]
    have hopened : ((s.enter a).2.setActiveError (s.enter a).1 error).scopes.size ≤
        (openClause s a error exceptionName traceName).scopes.size :=
      (later_declareAll (w := concealing σ hidden objects) _ _ _).scopes_size
    rw [hmarked] at hopened
    exact hopened

theorem agrees_unmentioning (level : Nat) :
    (concealing σ hidden objects).Agrees (unmentioning σ hidden objects) (interpreter level) (interpreter level) :=
  agrees_interpreter unmentioning_passes unmentioning_opens rfl rfl level

end Unmentioning

/-! ### Hidden names in the second store -/

theorem shown_put_hidden {name : String} (hname : w.hidden name = true) (v : Value) (bindings : List (String × Value)) :
    w.shown (Scope.put name v bindings) = w.shown bindings := by
  induction bindings with
  | nil => simp [Scope.put, shown, hname]
  | cons b rest ih =>
    simp only [shown] at ih
    by_cases hb : b.1 = name
    · subst hb
      simp [Scope.put, shown, hname]
    · simp [Scope.put, shown, hb, ih, List.filter_cons]

theorem Tables.declare_hidden (h : w.Tables K s t) (a : Nat) {name : String} (hname : w.hidden name = true) (v : Value) :
    w.Tables K s (t.declare a name v) := by
  refine { h with scopes := ⟨h.scopes.start, by simpa [Store.declare] using h.scopes.size, fun b x hx => ?_⟩ }
  obtain ⟨y, hy, hxy⟩ := h.scopes.entry b x hx
  simp only [Store.declare, Array.getElem?_modify, hy]
  split
  · refine ⟨_, rfl, hxy.parent, hxy.activeError, ?_, hxy.active⟩
    simp only [Scope.bind, shown_put_hidden hname]
    exact hxy.bindings
  · exact ⟨y, rfl, hxy⟩

theorem Tables.withNames_hidden (h : w.Tables K s t) {names : List (String × Value)}
    (hnames : ∀ b ∈ names, w.hidden b.1 = true) : w.Tables K s (t.withNames names) := by
  unfold Store.withNames
  induction names generalizing t with
  | nil => exact h
  | cons b rest ih =>
    exact ih (h.declare_hidden rootScope (hnames b List.mem_cons_self) b.2)
      (fun c hc => hnames c (List.mem_cons_of_mem b hc))

/-! ### Extended stores -/

theorem corresponds_of_prefix {α : Type} {R : α → α → Prop} {xs ys : Array α} (h : xs.toList <+: ys.toList)
    (hR : ∀ x ∈ xs, R x x) : Corresponds (.past xs ys) R xs ys := by
  have hsize : xs.size ≤ ys.size := h.length_le
  refine ⟨Nat.le_refl _, by simp [Shift.past]; omega, fun a x hx => ⟨x, ?_, hR x (Array.mem_of_getElem? hx)⟩⟩
  obtain ⟨ha, rfl⟩ := Array.getElem?_eq_some_iff.mp hx
  rw [Shift.apply_of_lt _ ha, ← Array.getElem?_toList]
  exact List.prefix_iff_getElem?.mp h a ha

/-- A table that is still empty corresponds to whatever it becomes. -/
theorem corresponds_of_empty {α : Type} {R : α → α → Prop} {xs ys : Array α} (h : xs.toList <+: ys.toList)
    (hxs : xs = #[]) : Corresponds (.past xs ys) R xs ys :=
  corresponds_of_prefix h (by simp [hxs])

theorem initial_values {v : Value} (u : Store) (hv : v = .native 0 ∨ v = .native 1 ∨ ∃ t, v = .type t) :
    v.shift (.past Store.initial u) = v := by
  have hnative {a : Nat} (ha : a < 2) : (Shifts.past Store.initial u).native.apply a = a := Shift.apply_of_lt _ ha
  rcases hv with rfl | rfl | ⟨t, rfl⟩
  · rw [Value.shift, hnative (by omega)]
  · rw [Value.shift, hnative (by omega)]
  · rfl

/-- Any store that has what programs begin with, and more, runs in parallel with that. -/
theorem parallel_included {u : Store} (h : u.Includes Store.initial) (hidden : String → Bool) :
    (concealing (.past Store.initial u) hidden false).Parallel Store.initial u := by
  have hknown (v : Value) : v.Known ((concealing (.past Store.initial u) hidden false).Known Store.initial) :=
    v.known_of_forall (Comparison.known_all rfl rfl rfl _)
  -- what programs begin with keeps its addresses
  have hbindings {bs : List (String × Value)}
      (hbs : ∀ b ∈ bs, b.2 = .native 0 ∨ b.2 = .native 1 ∨ ∃ t, b.2 = .type t) :
      bs = bs.map (shiftBinding (.past Store.initial u)) := by
    refine (List.map_id bs).symm.trans (List.map_congr_left (fun b hb => ?_))
    rw [shiftBinding, initial_values u (hbs b hb), id]
  exact {
    scopes := corresponds_of_prefix h.scopes (fun x hx => by
      rw [Store.initial_scopes, List.mem_toArray, List.mem_singleton] at hx
      subst hx
      refine ⟨rfl, rfl, ⟨hbindings (fun b hb => ?_), fun b _ => hknown b.2⟩, fun _ h => by cases h⟩
      obtain rfl := List.mem_singleton.mp (List.mem_filter.mp hb).1
      exact .inr (.inl rfl))
    lists := corresponds_of_empty h.lists rfl
    iterables := corresponds_of_empty h.iterables rfl
    sets := corresponds_of_empty h.sets rfl
    maps := corresponds_of_empty h.maps rfl
    closures := corresponds_of_empty h.closures rfl
    natives := corresponds_of_prefix h.natives (fun f hf => by
      simp only [Store.initial_natives, List.mem_toArray, List.mem_cons, List.not_mem_nil, or_false] at hf
      rcases hf with rfl | rfl <;> exact ⟨rfl, trivial, fun _ => rfl⟩)
    errors := corresponds_of_empty h.errors rfl
    objects := corresponds_of_empty h.objects rfl
    globals := by
      refine ⟨?_, fun b _ => hknown b.2⟩
      rw [h.globals, Store.initial_globals]
      refine hbindings (fun b hb => ?_)
      rcases List.mem_cons.mp hb with rfl | hb
      · exact .inl rfl
      · obtain ⟨t, -, rfl⟩ := List.mem_map.mp hb
        exact .inr (.inr ⟨t, rfl⟩)
    output := h.output
    sameObjects := fun h => by cases h
    noObjects := fun _ => rfl
    ordered := fun _ => by
      refine ⟨fun a p hp => ?_, fun _ h => absurd h (Array.not_mem_empty _)⟩
      have hnone : (Store.initial.scope a).parent = none := by
        cases a with
        | zero => rfl
        | succ a => rfl
      rw [hnone] at hp
      cases hp }

end Comparison

/-! ### All runs -/

/-- Whether a name occurs in the program that a text stands for. -/
def Mentioned (source name : String) : Prop :=
  ∃ unit, Syntax.parseUnit source = .ok unit ∧ (Node.stmt unit).Mentions name

/-- Whether a name occurs in a function of the program. -/
def Closure.Mentions (f : Closure) (name : String) : Prop := name ∈ f.parameters ∨ (Node.body f.body).Mentions name

/-- The names of bindings. -/
def bindingNames (names : List (String × Value)) (name : String) : Bool := names.any (fun b => b.1 == name)

section Hidden

variable {names : List (String × Value)}

theorem bindingNames_of_mem {b : String × Value} (hb : b ∈ names) : bindingNames names b.1 = true :=
  List.any_eq_true.mpr ⟨b, hb, beq_self_eq_true b.1⟩

theorem bindingNames_eq_false {name : String} (h : ∀ b ∈ names, b.1 ≠ name) : bindingNames names name = false := by
  simpa [bindingNames] using h

end Hidden

/-- Binding names that a program does not mention does not change how it ends. -/
theorem Comparison.concludes_unmentioned {σ : Shifts} {objects : Bool} {source : String}
    {names : List (String × Value)} (hmain : ∀ b ∈ names, b.1 ≠ entryName)
    (hnames : ∀ b ∈ names, ¬Mentioned source b.1) (arguments : List String) {s u : Store}
    (hroot : σ.scope.apply rootScope = rootScope) (hscope : σ.scope.gap ≠ 0 → rootScope < s.scopes.size)
    (hsu : (concealing σ (bindingNames names) objects).Parallel s u) :
    (concealing σ (bindingNames names) objects).Concludes (concealing σ (bindingNames names) objects).Val
      (runMain source arguments s) (runMain source arguments (u.withNames names)) := by
  have hagrees : (concealing σ (bindingNames names) objects).Agrees (unmentioning σ (bindingNames names) objects)
      engine engine := agrees_unmentioning levelLimit
  refine concludes_runMain hagrees (bindingNames_eq_false hmain) hroot hscope ?_ arguments
    (Tables.withNames_hidden hsu (fun b hb => bindingNames_of_mem hb)) rfl
  refine fun x hx name hname => bindingNames_eq_false (fun b hb heq => hnames b hb ?_)
  exact ⟨x, hx, heq ▸ hname⟩

/-- Two runs that end in the same way, with the same store apart from the scopes. -/
structure Run.SameData (r r' : Run Value) : Prop where
  result : r'.result = r.result
  store : { r'.store with scopes := r.store.scopes } = r.store

theorem Comparison.Concludes.sameData {hidden : String → Bool} {r r' : Run Value}
    (h : (concealing .stay hidden true).Concludes (concealing .stay hidden true).Val r r') : r.SameData r' := by
  have herror (a : Nat) : (concealing .stay hidden true).shifts.error.apply a = a := Shift.apply_stay a
  have hdata {s t : Store} (hst : (concealing .stay hidden true).Parallel s t) : { t with scopes := s.scopes } = s := by
    have hrest := data_eq_of_tables hst
    rwa [← errors_eq_of_tables hst] at hrest
  cases h with
  | done hv hst => exact ⟨congrArg Except.ok (hv.same.trans (Value.shift_stay _)), hdata hst⟩
  | refused hst => exact ⟨rfl, hdata hst⟩
  | raised hst => exact ⟨congrArg (fun a => Except.error (Stop.raised a)) (herror _), hdata hst⟩
  | escaped _ hst => exact ⟨rfl, hdata hst⟩
  | exhausted hst => exact ⟨rfl, hdata hst⟩

theorem sameData_withNames {source : String} {names : List (String × Value)} (hmain : ∀ b ∈ names, b.1 ≠ entryName)
    (hnames : ∀ b ∈ names, ¬Mentioned source b.1) (arguments : List String) {s : Store}
    (hclosures : ∀ f ∈ s.closures, ∀ b ∈ names, ¬f.Mentions b.1) :
    (runMain source arguments s).SameData (runMain source arguments (s.withNames names)) := by
  refine (Comparison.concludes_unmentioned hmain hnames arguments (Shift.apply_stay _) (absurd rfl) ?_).sameData
  refine Comparison.tables_self (Comparison.known_all rfl rfl rfl s) (fun f hf name hname => ?_) (fun f hf name hname => ?_) nofun
  · exact bindingNames_eq_false (fun b hb heq => hclosures f hf b hb (.inr (heq ▸ hname)))
  · exact bindingNames_eq_false (fun b hb heq => hclosures f hf b hb (.inl (heq ▸ hname)))

theorem mirrors_withNames {source : String} {names : List (String × Value)} (hmain : ∀ b ∈ names, b.1 ≠ entryName)
    (hnames : ∀ b ∈ names, ¬Mentioned source b.1) (arguments : List String) {u : Store}
    (hu : u.Includes Store.initial) :
    (runMain source arguments Store.initial).Mirrors (.past Store.initial u)
      (runMain source arguments (u.withNames names)) := by
  have hroot : rootScope < Store.initial.scopes.size := by decide
  exact (Comparison.concludes_unmentioned hmain hnames arguments (Shift.apply_of_lt _ hroot) (fun _ => hroot)
    (Comparison.parallel_included hu _)).mirrors rfl

/-- The store that the console extends, with what it adds to the tables. -/
def Store.consoleTables (input : String) : Store :=
  { ((Store.initial.addNative ⟨"Random", .host .makeRandom⟩).2.addObject { kind := .stdin }).2 with
    input := input.toList }

theorem withConsole_eq (input : String) :
    Store.initial.withConsole input =
      (Store.consoleTables input).withNames [("Random", .native 2), ("stdin", .object 0)] := rfl

theorem past_withConsole (input : String) :
    Shifts.past Store.initial (Store.initial.withConsole input) = .past Store.initial (Store.consoleTables input) := rfl

theorem consoleTables_includes (input : String) : (Store.consoleTables input).Includes Store.initial where
  scopes := List.prefix_rfl
  lists := List.prefix_rfl
  iterables := List.prefix_rfl
  sets := List.prefix_rfl
  maps := List.prefix_rfl
  closures := List.prefix_rfl
  natives := by simp [Store.consoleTables, Store.addNative, Store.addObject]
  errors := List.prefix_rfl
  objects := List.nil_prefix
  globals := rfl
  output := rfl

/-- A program cannot tell whether the outermost scope binds names that it does not mention. Binding them
to values of the store leaves everything but the scopes as it is. Binding them to values that come with
tables of their own gives the same output, the same result and the same error at other addresses; so
does adding the console, for programs that mention neither of its names. -/
theorem unmentioned_names_change_nothing (source : String) (arguments : List String) :
    (∀ names : List (String × Value), (∀ b ∈ names, b.1 ≠ entryName ∧ ¬Mentioned source b.1) →
      (∀ s : Store, (∀ f ∈ s.closures, ∀ b ∈ names, ¬f.Mentions b.1) →
        (runMain source arguments s).SameData (runMain source arguments (s.withNames names))) ∧
      ∀ u : Store, u.Includes Store.initial →
        (runMain source arguments Store.initial).Mirrors (.past Store.initial u)
          (runMain source arguments (u.withNames names))) ∧
    (¬Mentioned source "Random" → ¬Mentioned source "stdin" → ∀ input : String,
      (runMain source arguments Store.initial).Mirrors (.past Store.initial (Store.initial.withConsole input))
        (runMain source arguments (Store.initial.withConsole input))) := by
  refine ⟨fun names hnames => ?_, fun hrandom hstdin input => ?_⟩
  · have hmain : ∀ b ∈ names, b.1 ≠ entryName := fun b hb => (hnames b hb).1
    have hunmentioned : ∀ b ∈ names, ¬Mentioned source b.1 := fun b hb => (hnames b hb).2
    exact ⟨fun s hs => sameData_withNames hmain hunmentioned arguments hs,
      fun u hu => mirrors_withNames hmain hunmentioned arguments hu⟩
  · rw [past_withConsole, withConsole_eq]
    refine mirrors_withNames (by decide) ?_ arguments (consoleTables_includes input)
    simp [hrandom, hstdin]

/-- Only names that are written in a text are mentioned. -/
theorem not_mentioned {source name : String} (hplain : ∀ t ∈ (Syntax.lex source).tokens, t.terminal ≠ .string)
    (hname : name ∉ Syntax.tokenTexts source) : ¬Mentioned source name := by
  rintro ⟨x, hx, hmentions⟩
  exact hname ((Node.IsReadFrom.program hx).namesAmong hplain name hmentions)

end

theorem unmentioned_names_change_nothing_main :
    (¬Mentioned "main() => 1;" "n" ∧ ¬Mentioned "main() => 1;" "Random" ∧ ¬Mentioned "main() => 1;" "stdin") ∧
      (runMain "main() => 1;" [] Store.initial).SameData
        (runMain "main() => 1;" [] (Store.initial.withNames [("n", .native 0)])) ∧
      (runMain "main() => 1;" [] Store.initial).Mirrors (.past Store.initial (Store.consoleTables "text"))
        (runMain "main() => 1;" [] ((Store.consoleTables "text").withNames [("n", .object 0)])) ∧
      (runMain "main() => 1;" [] Store.initial).Mirrors (.past Store.initial (Store.initial.withConsole "text"))
        (runMain "main() => 1;" [] (Store.initial.withConsole "text")) := by
  have hplain : ∀ t ∈ (Syntax.lex "main() => 1;").tokens, t.terminal ≠ .string := by decide
  have hnames : ∀ name ∈ ["n", "Random", "stdin"], name ∉ Syntax.tokenTexts "main() => 1;" := by decide
  have hn : ¬Mentioned "main() => 1;" "n" := not_mentioned hplain (hnames _ (by decide))
  have hrandom : ¬Mentioned "main() => 1;" "Random" := not_mentioned hplain (hnames _ (by decide))
  have hstdin : ¬Mentioned "main() => 1;" "stdin" := not_mentioned hplain (hnames _ (by decide))
  have h := unmentioned_names_change_nothing "main() => 1;" []
  refine ⟨⟨hn, hrandom, hstdin⟩, ?_, ?_, h.2 hrandom hstdin "text"⟩
  · exact (h.1 [("n", .native 0)] (List.forall_mem_singleton.mpr ⟨by decide, hn⟩)).1 Store.initial nofun
  · exact (h.1 [("n", .object 0)] (List.forall_mem_singleton.mpr ⟨by decide, hn⟩)).2 _ (consoleTables_includes "text")

end Dartlet
