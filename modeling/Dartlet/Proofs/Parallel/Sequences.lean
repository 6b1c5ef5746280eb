import Dartlet.Proofs.Parallel.Collections

/-!
# Lists, iterables and types in parallel

What lists, sets and iterables share, sorting, what lists and types have of their own, and all members
together.
-/

namespace Dartlet.Comparison

open Dartlet.Action

set_option linter.unusedSectionVars false

variable [Host]

variable {w : Comparison} {inside : Bool} {s t : Store} {c c' : Caller}

theorem Arrays.push {K : Value → Prop} {xs ys : Array Value} (h : w.Arrays K xs ys) {v : Value} (hv : v.Known K) :
    w.Arrays K (xs.push v) (ys.push (v.shift w.shifts)) := by
  unfold Arrays
  rw [Array.toList_push, Array.toList_push]
  exact h.append (.single hv)

theorem Arrays.later {s' : Store} {xs ys : Array Value} (h : w.Arrays (w.Known s) xs ys) (hs : w.Later s s') :
    w.Arrays (w.Known s') xs ys :=
  Values.mono hs.known h

theorem alike_element {xs ys : List Value} (h : w.Values (w.Known s) xs ys) (i : Nat) :
    w.Alike inside w.Val s t (pure (xs[i]?.getD .null)) (pure (ys[i]?.getD .null)) := by
  rw [h.same, List.getElem?_map]
  cases hx : xs[i]? with
  | none => exact alike_plain rfl
  | some v => exact alike_value (h.known v (List.mem_of_getElem? hx))

/-! ### Callbacks of walks -/

/-- A walk whose steps call a function on what `g` says and then go on by `k`. -/
theorem steps_of_call {β : Type} (hc : w.Callers c c') (f : Value) (P : Store → β → β → Prop)
    (g : β → Value → List Value) (k : β → Value → Value → Action (Walk β))
    (hlater : ∀ {s s' : Store} {r r' : β}, w.Later s s' → P s r r' → P s' r r')
    (hg : ∀ {s : Store} {r r' : β} {v : Value}, P s r r' → v.Known (w.Known s) →
      w.Values (w.Known s) (g r v) (g r' (v.shift w.shifts)))
    (hk : ∀ {s t : Store} {r r' : β} {v u : Value}, P s r r' → v.Known (w.Known s) → u.Known (w.Known s) →
      w.Alike true (Walks P) s t (k r v u) (k r' (v.shift w.shifts) (u.shift w.shifts))) :
    w.Steps (fun s r r' => f.Known (w.Known s) ∧ P s r r') (fun r v => c.call f (g r v) >>= k r v)
      (fun r v => c'.call (f.shift w.shifts) (g r v) >>= k r v) := by
  refine ⟨fun hs h => ⟨h.1.mono hs.known, hlater hs h.2⟩, fun {s t r r' v} h hv => ?_⟩
  have hargs := hg h.2 hv
  rw [hargs.same]
  refine (hc.call h.1 hargs.known).weaken.bind (fun s' t' u _ hfollows hu => ?_)
  obtain ⟨rfl, huknown⟩ := hu
  have hs := hfollows.first
  refine (hk (hlater hs h.2) (hv.mono hs.known) huknown).mono (fun s'' t'' x x' hfollows' hx => ?_)
  have hf : f.Known (w.Known s'') := h.1.mono (hs.trans hfollows'.first).known
  cases x <;> cases x' <;> first | exact ⟨hf, hx⟩ | exact hx.elim

/-- A walk that asks a function for a truth value about each element. -/
theorem steps_of_test {β : Type} (hc : w.Callers c c') (f : Value) (method : String) (P : Store → β → β → Prop)
    (k : β → Value → Bool → Walk β)
    (hlater : ∀ {s s' : Store} {r r' : β}, w.Later s s' → P s r r' → P s' r r')
    (hk : ∀ {s : Store} {r r' : β} {v : Value} (b : Bool), P s r r' → v.Known (w.Known s) →
      Walks P s s (k r v b) (k r' (v.shift w.shifts) b)) :
    w.Steps (fun s r r' => f.Known (w.Known s) ∧ P s r r')
      (fun r v => do
        let u ← c.call f [v]
        let b ← boolResult method u
        pure (k r v b))
      (fun r v => do
        let u ← c'.call (f.shift w.shifts) [v]
        let b ← boolResult method u
        pure (k r v b)) := by
  refine steps_of_call hc f P (fun _ v => [v]) (fun r v u => boolResult method u >>= fun b => pure (k r v b)) hlater
    (fun _ hv => .single hv) (fun {s t r r' v u} h hv _ => ?_)
  exact (reads_boolResult method u).bind (fun b _ heq => heq ▸ alike_pure (hk b h hv))

theorem alike_sequenceMethod (hc : w.Callers c c') (source : Value) {arguments : List Value}
    (hargs : ∀ v ∈ arguments, v.Known (w.Known s)) (m : SequenceMethod) :
    w.Alike true w.Val s t (m.run c source arguments)
      (m.run c' (source.shift w.shifts) (arguments.map (Value.shift w.shifts))) := by
  have h₀ := known_argument hargs 0
  have h₁ := known_argument hargs 1
  cases m <;> simp only [SequenceMethod.run, argument_shift]
  case contains =>
    refine (reads_itemsOf source).bind (fun xs ys hxy => ?_)
    rw [hxy.same]
    simp only [List.any_map, Function.comp_def, Value.equals_shift]
    exact alike_plain rfl
  case elementAt =>
    refine (reads_itemsOf source).bind (fun xs ys hxy => ?_)
    refine (reads_intArgument _ _).bind (fun index _ heq => ?_)
    subst heq
    have hlength : ys.length = xs.length := by rw [hxy.same, List.length_map]
    rw [hlength]
    exact (reads_checkIndex _ _).bind (fun i _ heq => heq ▸ alike_element hxy i)
  case join =>
    have hjoin (separator : String) : w.Alike true w.Val s t
        (do
          let items ← itemsOf source
          let texts ← textsOf items
          pure (Value.string (separator.intercalate texts)))
        (do
          let items ← itemsOf (source.shift w.shifts)
          let texts ← textsOf items
          pure (Value.string (separator.intercalate texts))) := by
      refine (reads_itemsOf source).bind (fun xs ys hxy => ?_)
      rw [hxy.same]
      exact (alike_textsOf xs).bind (fun _ _ texts _ _ heq => heq ▸ alike_plain rfl)
    rw [List.head?_map]
    cases arguments.head? with
    | none => exact hjoin ""
    | some v => exact (reads_stringArgument "join" v).bind (fun separator _ heq => heq ▸ hjoin separator)
  case map =>
    refine (reads_functionArgument _ _).bind (fun _ _ _ => ?_)
    have hsteps := steps_of_call hc (argument arguments 0) (fun s r r' => w.Arrays (w.Known s) r r')
      (fun _ v => [v]) (fun done _ v => pure (.next (done.push v))) (fun hs h => h.later hs) (fun _ hv => .single hv)
      (fun h _ hu => alike_pure (h.push hu))
    refine (alike_walk hsteps hc.rounds source ⟨h₀, .nil⟩).bind (fun s' t' xs ys _ hxy => ?_)
    exact alike_newIterable hxy.2
  case where_ =>
    refine (reads_functionArgument _ _).bind (fun _ _ _ => ?_)
    have hsteps := steps_of_test hc (argument arguments 0) "where" (fun s r r' => w.Arrays (w.Known s) r r')
      (fun done item keep => .next (if keep then done.push item else done)) (fun hs h => h.later hs)
      (fun keep h hv => by cases keep with
        | true => exact h.push hv
        | false => exact h)
    refine (alike_walk hsteps hc.rounds source ⟨h₀, .nil⟩).bind (fun s' t' xs ys _ hxy => ?_)
    exact alike_newIterable hxy.2
  case forEach =>
    refine (reads_functionArgument _ _).bind (fun _ _ _ => ?_)
    refine (reads_itemsOf source).bind (fun xs ys hxy => ?_)
    rw [hxy.same]
    exact (alike_callEach hc h₀ hxy.known).weaken.bind (fun _ _ _ _ _ _ => alike_plain rfl)
  case any =>
    refine (reads_functionArgument _ _).bind (fun _ _ _ => ?_)
    have hsteps := steps_of_test hc (argument arguments 0) "any" (fun _ (r r' : Bool) => r' = r)
      (fun _ _ hit => if hit then .stop true else .next false) (fun _ h => h) (fun hit _ _ => by cases hit <;> rfl)
    refine (alike_walk hsteps hc.rounds source ⟨h₀, rfl⟩).bind (fun s' t' found found' _ h => ?_)
    rw [h.2]
    exact alike_plain rfl
  case every =>
    refine (reads_functionArgument _ _).bind (fun _ _ _ => ?_)
    have hsteps := steps_of_test hc (argument arguments 0) "every" (fun _ (r r' : Bool) => r' = r)
      (fun _ _ hit => if hit then .next true else .stop false) (fun _ h => h) (fun hit _ _ => by cases hit <;> rfl)
    refine (alike_walk hsteps hc.rounds source ⟨h₀, rfl⟩).bind (fun s' t' found found' _ h => ?_)
    rw [h.2]
    exact alike_plain rfl
  case fold =>
    refine (reads_functionArgument _ _).bind (fun _ _ _ => ?_)
    have hsteps := steps_of_call hc (argument arguments 1) (fun s r r' => w.Val s s r r')
      (fun r v => [r, v]) (fun _ _ v => pure (.next v)) (fun hs h => ⟨h.same, h.known.mono hs.known⟩)
      (fun h hv => ⟨by rw [h.same]; rfl, by simp [h.known, hv]⟩) (fun _ _ hu => alike_pure ⟨rfl, hu⟩)
    exact (alike_walk hsteps hc.rounds source ⟨h₁, rfl, h₀⟩).mono (fun _ _ _ _ _ h => ⟨h.2.same, h.2.known⟩)
  case reduce =>
    refine (reads_itemsOf source).bind (fun xs ys hxy => ?_)
    obtain ⟨rfl, hknown⟩ := hxy
    cases xs with
    | nil => exact alike_escape (.inl rfl)
    | cons v rest =>
      refine (reads_functionArgument _ _).bind (fun _ _ _ => ?_)
      exact (alike_combine hc h₀ (hknown v List.mem_cons_self)
        (fun u hu => hknown u (List.mem_cons_of_mem v hu))).weaken
  case skip =>
    refine (reads_itemsOf source).bind (fun xs ys hxy => ?_)
    exact (reads_intArgument _ _).bind (fun count _ heq => heq ▸ alike_newIterable (hxy.drop _))
  case take =>
    refine (reads_itemsOf source).bind (fun xs ys hxy => ?_)
    exact (reads_intArgument _ _).bind (fun count _ heq => heq ▸ alike_newIterable (hxy.take _))
  case toList => exact (reads_itemsOf source).bind (fun xs ys hxy => alike_newList hxy)
  case toSet => exact (reads_itemsOf source).bind (fun xs ys hxy => alike_newSet hxy.ofList)

/-! ### Sorting -/

section Sorting

variable {less less' : Value → Value → Action Bool}

/-- Comparisons that compare corresponding values alike while something holds. -/
structure Orders (w : Comparison) (P : Store → Prop) (less less' : Value → Value → Action Bool) : Prop where
  later : ∀ {s s' : Store}, w.Later s s' → P s → P s'
  alike : ∀ {s t : Store} {l r : Value}, P s → l.Known (w.Known s) → r.Known (w.Known s) →
    w.Alike true Same s t (less l r) (less' (l.shift w.shifts) (r.shift w.shifts))

variable {P : Store → Prop}

theorem alike_keeping {α β : Type} {Q : Store → Store → α → β → Prop} {x : Action α} {y : Action β} (a : Address)
    {xs ys : Array Value} (hxy : w.Arrays (w.Known s) xs ys) (h : w.Alike true Q s t x y) :
    w.Alike true Q s t (Sort.keeping a xs x) (Sort.keeping (w.shifts.list.apply a) ys y) := by
  intro hst
  have h' := h hst
  have hrestore {s' t' : Store} (hf : w.Follows s t s' t') :
      w.Follows s t (s'.setList a xs) (t'.setList (w.shifts.list.apply a) ys) :=
    hf.trans (Tables.setList hf.parallel a (hxy.later hf.first)).follows_setList
  unfold Sort.keeping
  generalize x s = o at h' ⊢
  generalize y t = o' at h' ⊢
  cases h' with
  | done hq hf => exact .done hq hf
  | raised hp hf => exact .raised hp (hrestore hf)
  | escaped hfail hf => exact .escaped hfail (hrestore hf)
  | exhausted hf => exact .exhausted (hrestore hf)
  | gaveUp hw => exact .gaveUp hw

theorem alike_runLength (h : w.Orders P less less') (hP : P s) (descending : Bool) {previous : Value}
    (hprevious : previous.Known (w.Known s)) {xs : List Value} (hxs : ∀ v ∈ xs, v.Known (w.Known s)) :
    w.Alike true Same s t (Sort.runLength less descending previous xs)
      (Sort.runLength less' descending (previous.shift w.shifts) (xs.map (Value.shift w.shifts))) := by
  induction xs generalizing s t previous with
  | nil => exact alike_same 0
  | cons v rest ih =>
    have hv := hxs v List.mem_cons_self
    refine (h.alike hP hv hprevious).bind (fun s' t' below _ hf heq => ?_)
    obtain rfl := heq
    refine alike_ite (fun _ => ?_) (fun _ => alike_same 0)
    have hs := hf.first
    have hmore := ih (s := s') (t := t') (h.later hs hP) (hv.mono hs.known)
      (fun u hu => (hxs u (List.mem_cons_of_mem v hu)).mono hs.known)
    refine hmore.bind (fun _ _ more _ _ heq => ?_)
    obtain rfl := heq
    exact alike_same _

/-- Corresponding runs with the elements that follow them. -/
def Runs (w : Comparison) (s _ : Store) (x y : List Value × List Value) : Prop :=
  w.Values (w.Known s) x.1 y.1 ∧ w.Values (w.Known s) x.2 y.2

theorem alike_frontRun (h : w.Orders P less less') (hP : P s) {xs ys : List Value}
    (hxy : w.Values (w.Known s) xs ys) :
    w.Alike true w.Runs s t (Sort.frontRun less xs) (Sort.frontRun less' ys) := by
  obtain ⟨rfl, hknown⟩ := hxy
  match xs, hknown with
  | [], _ => exact alike_pure ⟨.nil, .nil⟩
  | [v], hknown => exact alike_pure ⟨⟨rfl, hknown⟩, .nil⟩
  | first :: second :: rest, hknown =>
    have hfirst := hknown first (by simp)
    have hsecond := hknown second (by simp)
    have hrest (v : Value) (hv : v ∈ rest) := hknown v (by simp [hv])
    refine (h.alike hP hsecond hfirst).bind (fun s' t' descending _ hf heq => ?_)
    obtain rfl := heq
    have hs := hf.first
    have hmore := alike_runLength (s := s') (t := t') h (h.later hs hP) descending (hsecond.mono hs.known)
      (fun v hv => (hrest v hv).mono hs.known)
    refine hmore.bind (fun s'' t'' more _ hf' heq => ?_)
    obtain rfl := heq
    have hall : w.Values (w.Known s'') (first :: second :: rest) ((first :: second :: rest).map (Value.shift w.shifts)) :=
      ⟨rfl, fun v hv => (hknown v hv).mono (hs.trans hf'.first).known⟩
    have hrun := hall.take (more + 2)
    have hdrop := hall.drop (more + 2)
    cases descending with
    | true => exact alike_pure ⟨hrun.reverse, hdrop⟩
    | false => exact alike_pure ⟨hrun, hdrop⟩

theorem alike_insertionPoint (h : w.Orders P less less') (hP : P s) {pivot : Value}
    (hpivot : pivot.Known (w.Known s)) {xs ys : Array Value} (hxy : w.Arrays (w.Known s) xs ys) (limit low high : Nat) :
    w.Alike true Same s t (Sort.insertionPoint less pivot xs limit low high)
      (Sort.insertionPoint less' (pivot.shift w.shifts) ys limit low high) := by
  induction limit generalizing s t low high with
  | zero => exact alike_same low
  | succ limit ih =>
    refine alike_ite (fun _ => ?_) (fun _ => alike_same low)
    have hmiddle : (ys[low + (high - low) / 2]?.getD .null) = (xs[low + (high - low) / 2]?.getD .null).shift w.shifts := by
      rw [hxy.toArray, Array.getElem?_map]
      cases xs[low + (high - low) / 2]? <;> rfl
    have hknown : (xs[low + (high - low) / 2]?.getD .null).Known (w.Known s) := by
      cases hx : xs[low + (high - low) / 2]? with
      | none => trivial
      | some v => exact hxy.known v (Array.mem_toList_iff.mpr (Array.mem_of_getElem? hx))
    dsimp only
    rw [hmiddle]
    refine (h.alike hP hpivot hknown).bind (fun s' t' below _ hf heq => ?_)
    obtain rfl := heq
    have hs := hf.first
    exact alike_ite (fun _ => ih (h.later hs hP) (hpivot.mono hs.known) (hxy.later hs) _ _)
      (fun _ => ih (h.later hs hP) (hpivot.mono hs.known) (hxy.later hs) _ _)

theorem Arrays.insert {K : Value → Prop} {xs ys : Array Value} (h : w.Arrays K xs ys) {v : Value} (hv : v.Known K)
    (i : Nat) : w.Arrays K (xs.insertIdxIfInBounds i v) (ys.insertIdxIfInBounds i (v.shift w.shifts)) := by
  have hsize : ys.size = xs.size := by rw [h.toArray, Array.size_map]
  unfold Array.insertIdxIfInBounds
  by_cases hi : i ≤ xs.size
  · rw [dif_pos hi, dif_pos (by rw [hsize]; exact hi)]
    refine ⟨?_, fun u hu => ?_⟩
    · simp only [h.toArray, Array.toList_insertIdx, Array.toList_map]
      rw [List.map_insertIdx]
    · rw [Array.toList_insertIdx] at hu
      rcases List.eq_or_mem_of_mem_insertIdx hu with rfl | hu
      · exact hv
      · exact h.known u hu
  · rw [dif_neg hi, dif_neg (by rw [hsize]; exact hi)]
    exact h

theorem alike_insertAll (h : w.Orders P less less') (hP : P s) (a : Address) {xs ys : Array Value}
    (hxy : w.Arrays (w.Known s) xs ys) {rest : List Value} (hrest : ∀ v ∈ rest, v.Known (w.Known s)) :
    w.Alike true (fun s' _ => w.Arrays (w.Known s')) s t (Sort.insertAll less a xs rest)
      (Sort.insertAll less' (w.shifts.list.apply a) ys (rest.map (Value.shift w.shifts))) := by
  induction rest generalizing s t xs ys with
  | nil => exact alike_pure hxy
  | cons pivot rest ih =>
    have hpivot := hrest pivot List.mem_cons_self
    have hsize : ys.size = xs.size := by rw [hxy.toArray, Array.size_map]
    simp only [List.map_cons, Sort.insertAll, hsize]
    have hall : w.Arrays (w.Known s) (xs ++ (pivot :: rest).toArray)
        (ys ++ (pivot.shift w.shifts :: rest.map (Value.shift w.shifts)).toArray) := by
      have happend := Values.append (w := w) hxy ⟨rfl, hrest⟩
      simpa [Arrays] using happend
    refine (alike_keeping a hall (alike_insertionPoint h hP hpivot hxy _ _ _)).bind (fun s' t' place _ hf heq => ?_)
    obtain rfl := heq
    have hs := hf.first
    exact ih (h.later hs hP) ((hxy.later hs).insert (hpivot.mono hs.known) place)
      (fun v hv => (hrest v (List.mem_cons_of_mem pivot hv)).mono hs.known)

theorem alike_finish (a : Address) {xs ys : Array Value} (hxy : w.Arrays (w.Known s) xs ys) :
    w.Alike true (fun _ _ _ _ => True) s t (Sort.finish a xs) (Sort.finish (w.shifts.list.apply a) ys) := by
  intro hst
  have hempty : (t.list (w.shifts.list.apply a)).isEmpty = (s.list a).isEmpty := by
    simp [(hst.list a).toArray, Array.isEmpty]
  have hfollows := (Tables.setList hst a hxy).follows_setList
  unfold Sort.finish
  rw [hempty]
  split
  · exact .done trivial hfollows
  · exact .escaped (.inl rfl) hfollows

theorem alike_sortList (h : w.Orders P less less') (hP : P s) (a : Address) :
    w.Alike true (fun _ _ _ _ => True) s t (Sort.sortList less a) (Sort.sortList less' (w.shifts.list.apply a)) := by
  refine .of_parallel (fun hst => alike_get ?_)
  have hlist := hst.list a
  refine alike_change (fun hst => (Tables.setList hst a ⟨rfl, by simp⟩).follows_setList) (fun s' t' hf => ?_)
  have hs := hf.first
  have hlist' : w.Arrays (w.Known s') (s.list a) (t.list (w.shifts.list.apply a)) := hlist.later hs
  refine (alike_keeping a hlist' (alike_frontRun h (h.later hs hP) hlist')).bind (fun s₁ t₁ x y hf₁ hxy => ?_)
  obtain ⟨run, rest⟩ := x
  obtain ⟨run', rest'⟩ := y
  obtain ⟨hrun, rfl, hrest⟩ := hxy
  have hs₁ := hs.trans hf₁.first
  refine (alike_insertAll h (h.later hs₁ hP) a hrun hrest).bind (fun s₂ t₂ xs ys _ hxs => ?_)
  exact alike_finish a hxs

theorem orders_natural (w : Comparison) : w.Orders (fun _ => True) Sort.naturalLess Sort.naturalLess := by
  refine ⟨fun _ _ => trivial, fun {s t l r} _ _ _ => ?_⟩
  have hnumber : w.Alike true Same s t
      (if l.isNumber && r.isNumber then pure (NumberMethod.order l r < 0 : Bool)
        else fun s => mismatch (.notComparable (l.typeName s) (r.typeName s)) s)
      (if (l.shift w.shifts).isNumber && (r.shift w.shifts).isNumber then
          pure (NumberMethod.order (l.shift w.shifts) (r.shift w.shifts) < 0 : Bool)
        else fun t => mismatch (.notComparable ((l.shift w.shifts).typeName t) ((r.shift w.shifts).typeName t)) t) := by
    rw [Value.isNumber_shift, Value.isNumber_shift, order_shift]
    refine alike_ite (fun _ => alike_same _) (fun _ => alike_complaint (fun hst => ?_))
    rw [hst.typeName, hst.typeName]
  cases l with
  | string x =>
    cases r with
    | string y => exact alike_same _
    | _ => exact hnumber
  | _ => exact hnumber

theorem orders_function (hc : w.Callers c c') (f : Value) :
    w.Orders (fun s => f.Known (w.Known s)) (Sort.functionLess c f) (Sort.functionLess c' (f.shift w.shifts)) := by
  refine ⟨fun hs hf => hf.mono hs.known, fun {s t l r} hf hl hr => ?_⟩
  have hcall : w.Alike false w.Val s t (c.call f [l, r])
      (c'.call (f.shift w.shifts) [l.shift w.shifts, r.shift w.shifts]) := hc.call hf (by simp [hl, hr])
  refine hcall.weaken.bind (fun s' t' u _ _ hu => ?_)
  obtain ⟨rfl, -⟩ := hu
  exact (reads_intArgument _ u).bind (fun n _ heq => heq ▸ alike_same _)

end Sorting

/-! ### Lists -/

namespace Arrays

variable {K : Value → Prop} {xs ys : Array Value}

theorem append (h : w.Arrays K xs ys) {zs us : List Value} (h' : w.Values K zs us) :
    w.Arrays K (xs ++ zs.toArray) (ys ++ us.toArray) := by
  have happend := Values.append (w := w) h h'
  simpa [Arrays] using happend

theorem set (h : w.Arrays K xs ys) {v : Value} (hv : v.Known K) (i : Nat) :
    w.Arrays K (xs.setIfInBounds i v) (ys.setIfInBounds i (v.shift w.shifts)) := by
  refine ⟨by simp [h.toArray, List.map_set], fun u hu => ?_⟩
  rw [Array.toList_setIfInBounds] at hu
  rcases List.mem_or_eq_of_mem_set hu with hu | rfl
  · exact h.known u hu
  · exact hv

theorem erase (h : w.Arrays K xs ys) (i : Nat) : w.Arrays K (xs.eraseIdxIfInBounds i) (ys.eraseIdxIfInBounds i) := by
  refine ⟨by simp [h.toArray, List.eraseIdx_map], fun v hv => h.known v ?_⟩
  rw [Array.toList_eraseIdxIfInBounds] at hv
  exact List.mem_of_mem_eraseIdx hv

theorem pop (h : w.Arrays K xs ys) : w.Arrays K xs.pop ys.pop := by
  refine ⟨by simp [h.toArray], fun v hv => h.known v ?_⟩
  rw [Array.toList_pop] at hv
  exact List.dropLast_subset xs.toList hv

theorem extract (h : w.Arrays K xs ys) (low high : Nat) : w.Arrays K (xs.extract low high) (ys.extract low high) := by
  refine ⟨by simp [h.toArray], fun v hv => h.known v ?_⟩
  rw [Array.toList_extract] at hv
  exact List.mem_of_mem_drop (List.mem_of_mem_take hv)

theorem findIdx? (h : w.Arrays K xs ys) (v : Value) :
    ys.findIdx? (fun item => item.equals (v.shift w.shifts)) = xs.findIdx? (fun item => item.equals v) := by
  rw [h.toArray, Array.findIdx?_map]
  simp [Function.comp_def]

theorem size (h : w.Arrays K xs ys) : ys.size = xs.size := by rw [h.toArray, Array.size_map]

end Arrays

/-- An element of corresponding lists. -/
theorem alike_item {xs ys : Array Value} (h : w.Arrays (w.Known s) xs ys) (i : Nat) :
    w.Alike inside w.Val s t (pure (xs[i]?.getD .null)) (pure (ys[i]?.getD .null)) := by
  rw [← Array.getElem?_toList, ← Array.getElem?_toList]
  exact alike_element h i

theorem alike_listMethod (hc : w.Callers c c') (a : Address) {arguments : List Value}
    (hargs : ∀ v ∈ arguments, v.Known (w.Known s)) (m : ListMethod) :
    w.Alike true w.Val s t (m.run c a arguments)
      (m.run c' (w.shifts.list.apply a) (arguments.map (Value.shift w.shifts))) := by
  refine .of_parallel (fun hst => ?_)
  have hlist := hst.list a
  have h₀ := known_argument hargs 0
  have h₁ := known_argument hargs 1
  cases m <;> simp only [ListMethod.run, argument_shift]
  case getAt =>
    refine (reads_intArgument _ _).bind (fun index _ heq => ?_)
    subst heq
    refine alike_get ?_
    rw [hlist.size]
    exact (reads_checkIndex _ _).bind (fun i _ heq => heq ▸ alike_item hlist i)
  case setAt =>
    refine (reads_intArgument _ _).bind (fun index _ heq => ?_)
    subst heq
    refine alike_get ?_
    rw [hlist.size]
    refine (reads_checkIndex _ _).bind (fun i _ heq => ?_)
    subst heq
    refine alike_change (fun hst => ?_) (fun s' t' hf => alike_value (h₁.mono hf.first.known))
    exact (Tables.modifyList hst a (fun xs ys hxy => hxy.set h₁ i)).follows_modifyList
  case add =>
    refine alike_change (fun hst => ?_) (fun _ _ _ => alike_plain rfl)
    exact (Tables.modifyList hst a (fun xs ys hxy => hxy.push h₀)).follows_modifyList
  case addAll =>
    refine (reads_itemsOf _).bind (fun xs ys hxy => ?_)
    refine alike_change (fun hst => ?_) (fun _ _ _ => alike_plain rfl)
    exact (Tables.modifyList hst a (fun zs us hzu => hzu.append hxy)).follows_modifyList
  case insert =>
    refine (reads_intArgument _ _).bind (fun index _ heq => ?_)
    subst heq
    refine alike_get ?_
    rw [hlist.size]
    refine (reads_checkRange _ _ _).bind (fun range _ heq => ?_)
    subst heq
    refine alike_change (fun hst => ?_) (fun _ _ _ => alike_plain rfl)
    exact (Tables.modifyList hst a (fun xs ys hxy => hxy.insert h₁ range.1)).follows_modifyList
  case remove =>
    refine alike_get ?_
    rw [hlist.findIdx?]
    cases (s.list a).findIdx? (fun item => item.equals (argument arguments 0)) with
    | none => exact alike_plain rfl
    | some i =>
      refine alike_change (fun hst => ?_) (fun _ _ _ => alike_plain rfl)
      exact (Tables.setList hst a (hlist.erase i)).follows_setList
  case removeAt =>
    refine (reads_intArgument _ _).bind (fun index _ heq => ?_)
    subst heq
    refine alike_get ?_
    rw [hlist.size]
    refine (reads_checkIndex _ _).bind (fun i _ heq => ?_)
    subst heq
    refine alike_change (fun hst => ?_) (fun s' t' hf => alike_item (hlist.later hf.first) i)
    exact (Tables.setList hst a (hlist.erase i)).follows_setList
  case removeLast =>
    refine alike_get ?_
    rw [hlist.toArray, Array.back?_map]
    cases hv : (s.list a).back? with
    | none => exact alike_escape (.inl rfl)
    | some v =>
      have hknown : v.Known (w.Known s) := hlist.known v (Array.mem_toList_iff.mpr (Array.mem_of_back? hv))
      refine alike_change (fun hst => ?_) (fun s' t' hf => alike_value (hknown.mono hf.first.known))
      exact (Tables.modifyList hst a (fun xs ys hxy => hxy.pop)).follows_modifyList
  case clear =>
    exact alike_change (fun hst => (Tables.setList hst a ⟨rfl, by simp⟩).follows_setList) (fun _ _ _ => alike_plain rfl)
  case indexOf =>
    refine alike_get ?_
    rw [hlist.findIdx?]
    cases (s.list a).findIdx? (fun item => item.equals (argument arguments 0)) <;> exact alike_plain rfl
  case sublist =>
    refine alike_get ?_
    refine (reads_intArgument _ _).bind (fun start _ heq => ?_)
    subst heq
    rw [hlist.size]
    refine (reads_stopArgument _ _ _).bind (fun stop _ heq => ?_)
    subst heq
    refine (reads_checkRange _ _ _).bind (fun range _ heq => ?_)
    subst heq
    exact alike_newList (hlist.extract range.1 range.2)
  case sort =>
    have hfunction (v : Value) (hv : v.Known (w.Known s)) : w.Alike true w.Val s t
        (functionArgument "sort" v >>= fun _ => Sort.sortList (Sort.functionLess c v) a >>= fun _ => pure .null)
        (functionArgument "sort" (v.shift w.shifts) >>= fun _ =>
          Sort.sortList (Sort.functionLess c' (v.shift w.shifts)) (w.shifts.list.apply a) >>= fun _ => pure .null) := by
      refine (reads_functionArgument _ _).bind (fun _ _ _ => ?_)
      exact (alike_sortList (orders_function hc v) hv a).bind (fun _ _ _ _ _ _ => alike_plain rfl)
    cases hv : argument arguments 0 with
    | null =>
      exact (alike_sortList w.orders_natural trivial a).bind (fun _ _ _ _ _ _ => alike_plain rfl)
    | _ => exact hfunction _ (hv ▸ h₀)

theorem alike_reversedList (a : Address) :
    w.Alike inside w.Val s t (reversedList a) (reversedList (w.shifts.list.apply a)) :=
  .of_parallel (fun hst => alike_get (alike_newIterable (hst.list a).reverse))

/-! ### Types -/

theorem alike_generated (hc : w.Callers c c') {f : Value} (hf : f.Known (w.Known s)) (count i : Nat)
    {xs ys : Array Value} (hxy : w.Arrays (w.Known s) xs ys) :
    w.Alike false (fun s' _ => w.Arrays (w.Known s')) s t (TypeMethod.generated c.call f count i xs)
      (TypeMethod.generated c'.call (f.shift w.shifts) count i ys) := by
  induction count generalizing s t i xs ys with
  | zero => exact alike_pure hxy
  | succ count ih =>
    have hcall : w.Alike false w.Val s t (c.call f [.int i]) (c'.call (f.shift w.shifts) [.int i]) :=
      hc.call hf (by simp [Value.Known])
    refine hcall.bind (fun s' t' v _ hfollows hv => ?_)
    obtain ⟨rfl, hknown⟩ := hv
    exact ih (hf.mono hfollows.first.known) (i + 1) ((hxy.later hfollows.first).push hknown)

theorem parsed?_plain {u : BuiltinType} {text : String} {v : Value} (h : TypeMethod.parsed? u text = some v) :
    v.isPlain = true := by
  have hint {v : Value} (h : (Number.parseInt? text.toList).map Value.int = some v) : v.isPlain = true := by
    obtain ⟨n, -, rfl⟩ := Option.map_eq_some_iff.mp h
    rfl
  have hdouble {v : Value} (h : (Number.parseDouble? text.toList).map Value.double = some v) : v.isPlain = true := by
    obtain ⟨x, -, rfl⟩ := Option.map_eq_some_iff.mp h
    rfl
  cases u with
  | int => exact hint h
  | num =>
    simp only [TypeMethod.parsed?, Option.orElse_eq_orElse, Option.orElse_eq_or, Option.or_eq_some_iff] at h
    rcases h with h | ⟨-, h⟩
    · exact hint h
    · exact hdouble h
  | _ => exact hdouble h

/-- What follows a number that is read from a text. -/
theorem alike_readNumber {u : BuiltinType} {text : String} {f g : Option Value → Action α}
    (hnone : w.Alike true Q s t (f none) (g none))
    (hsome : ∀ v, TypeMethod.parsed? u text = some v → w.Alike true Q s t (f (some v)) (g (some v))) :
    w.Alike true Q s t (TypeMethod.read u text >>= f) (TypeMethod.read u text >>= g) := by
  unfold TypeMethod.read
  cases TypeMethod.refusal? u text with
  | some failure => exact alike_escape (.inl rfl)
  | none =>
    cases hv : TypeMethod.parsed? u text with
    | none => exact hnone
    | some v => exact hsome v hv

theorem alike_typeMethod (hc : w.Callers c c') (u : BuiltinType) {arguments : List Value}
    (hargs : ∀ v ∈ arguments, v.Known (w.Known s)) (m : TypeMethod) :
    w.Alike true w.Val s t (m.run c u arguments) (m.run c' u (arguments.map (Value.shift w.shifts))) := by
  have h₁ := known_argument hargs 1
  cases m <;> simp only [TypeMethod.run, argument_shift]
  case parse =>
    refine (reads_stringArgument _ _).bind (fun text _ heq => ?_)
    subst heq
    refine alike_readNumber ?_ (fun v hv => ?_)
    · exact alike_escape (.inl rfl)
    · exact alike_plain (parsed?_plain hv)
  case tryParse =>
    refine (reads_stringArgument _ _).bind (fun text _ heq => ?_)
    subst heq
    refine alike_readNumber ?_ (fun v hv => ?_)
    · exact alike_plain rfl
    · exact alike_plain (parsed?_plain hv)
  case fromCharCode =>
    refine (reads_intArgument _ _).bind (fun code _ heq => ?_)
    subst heq
    refine alike_ite (fun _ => alike_escape (.inl rfl)) (fun _ => ?_)
    exact alike_ite (fun _ => alike_escape (.inl rfl)) (fun _ => alike_plain rfl)
  case filled =>
    refine (reads_intArgument _ _).bind (fun count _ heq => ?_)
    subst heq
    refine alike_ite (fun _ => alike_escape (.inl rfl)) (fun _ => ?_)
    refine alike_ite (fun _ => alike_escape (.inl rfl)) (fun _ => ?_)
    refine alike_ite (fun _ => alike_escape (.inl rfl)) (fun _ => alike_newList ⟨?_, fun v hv => ?_⟩)
    · simp
    · rw [Array.toList_replicate] at hv
      exact List.eq_of_mem_replicate hv ▸ h₁
  case generate =>
    refine (reads_intArgument _ _).bind (fun count _ heq => ?_)
    subst heq
    refine (reads_functionArgument _ _).bind (fun _ _ _ => ?_)
    refine Alike.bind (alike_generated hc h₁ _ _ ⟨rfl, by simp⟩).weaken (fun s' t' xs ys _ hxy => ?_)
    exact alike_newList hxy
  case from_ =>
    refine (reads_itemsOf _).bind (fun xs ys hxy => ?_)
    cases u with
    | set => exact alike_newSet hxy.ofList
    | _ => exact alike_newList hxy

/-! ### All members -/

theorem alike_getter (receiver : Value) (g : Getter) :
    w.Alike true w.Val s t (g.read receiver) (g.read (receiver.shift w.shifts)) := by
  cases g with
  | text g =>
    cases receiver with
    | string content => exact alike_textGetter content g
    | _ => exact alike_plain rfl
  | number g =>
    cases receiver with
    | int n => exact alike_numberGetter (.int n) g
    | double x => exact alike_numberGetter (.double x) g
    | _ => exact alike_plain rfl
  | sequence g => exact alike_sequenceGetter receiver g
  | reversed =>
    cases receiver with
    | list a => exact alike_reversedList a
    | _ => exact alike_plain rfl
  | map g =>
    cases receiver with
    | map a => exact alike_mapGetter a g
    | _ => exact alike_plain rfl
  | type g =>
    cases receiver with
    | type u => cases g <;> exact alike_plain rfl
    | _ => exact alike_plain rfl

theorem alike_method (hc : w.Callers c c') (receiver : Value) {arguments : List Value}
    (hargs : ∀ v ∈ arguments, v.Known (w.Known s)) (m : Method) :
    w.Alike true w.Val s t (m.run c receiver arguments)
      (m.run c' (receiver.shift w.shifts) (arguments.map (Value.shift w.shifts))) := by
  cases m with
  | text m =>
    cases receiver with
    | string content => exact alike_textMethod content arguments m
    | _ => exact alike_plain rfl
  | number m =>
    cases receiver with
    | int n => exact alike_numberMethod (.int n) arguments m
    | double x => exact alike_numberMethod (.double x) arguments m
    | _ => exact alike_plain rfl
  | sequence m => exact alike_sequenceMethod hc receiver hargs m
  | list m =>
    cases receiver with
    | list a => exact alike_listMethod hc a hargs m
    | _ => exact alike_plain rfl
  | set m =>
    cases receiver with
    | set a => exact alike_setMethod a hargs m
    | _ => exact alike_plain rfl
  | map m =>
    cases receiver with
    | map a => exact alike_mapMethod hc a hargs m
    | _ => exact alike_plain rfl
  | type m =>
    cases receiver with
    | type u => exact alike_typeMethod hc u hargs m
    | _ => exact alike_plain rfl

end Dartlet.Comparison
