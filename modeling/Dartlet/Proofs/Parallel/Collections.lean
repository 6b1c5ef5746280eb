import Dartlet.Proofs.Parallel.Members

/-!
# Members of collections in parallel

Collections with corresponding contents are walked over, changed and sorted in step. The functions
that they call may change anything, so after a call only what is still known of the contents counts.
-/

namespace Dartlet.Comparison

open Dartlet.Action

set_option linter.unusedSectionVars false

variable [Host]

variable {w : Comparison} {inside : Bool} {s t : Store}

/-- How many rounds the loops of both runs have: the same number, unless the second may have more. -/
def Rounds (w : Comparison) (n n' : Nat) : Prop := n' = n ∨ w.lenient = true ∧ n ≤ n'

/-- Loops that still have rounds in the first run have them in the second. -/
theorem Rounds.succ {n n' : Nat} (h : w.Rounds (n + 1) n') : ∃ k, n' = k + 1 ∧ w.Rounds n k := by
  rcases h with rfl | ⟨hw, hle⟩
  · exact ⟨n, rfl, .inl rfl⟩
  · exact ⟨n' - 1, by omega, .inr ⟨hw, by omega⟩⟩

/-- Where the first run has no rounds left, it gives up. -/
theorem Rounds.alike_zero {α β : Type} {Q : Store → Store → α → β → Prop} {f : Nat → Action β} {n' : Nat}
    (h : w.Rounds 0 n') (hf : f 0 = exhaust) : w.Alike inside Q s t exhaust (f n') := by
  rcases h with rfl | ⟨hw, -⟩
  · rw [hf]
    exact alike_exhaust
  · exact alike_gaveUp hw

/-- Callers that call functions of the program alike. -/
structure Callers (w : Comparison) (c c' : Caller) : Prop where
  call : ∀ {s t : Store} {f : Value} {arguments : List Value}, f.Known (w.Known s) →
    (∀ v ∈ arguments, v.Known (w.Known s)) →
      w.Alike false w.Val s t (c.call f arguments)
        (c'.call (f.shift w.shifts) (arguments.map (Value.shift w.shifts)))
  rounds : w.Rounds c.rounds c'.rounds

variable {c c' : Caller}

/-! ### Corresponding contents -/

namespace Values

variable {K : Value → Prop} {xs ys : List Value}

theorem nil : w.Values K [] [] := ⟨rfl, List.forall_mem_nil _⟩

theorem append {xs' ys' : List Value} (h : w.Values K xs ys) (h' : w.Values K xs' ys') :
    w.Values K (xs ++ xs') (ys ++ ys') := by
  refine ⟨by rw [h.same, h'.same, List.map_append], fun v hv => ?_⟩
  rcases List.mem_append.mp hv with hv | hv
  · exact h.known v hv
  · exact h'.known v hv

theorem single {v : Value} (hv : v.Known K) : w.Values K [v] [v.shift w.shifts] :=
  ⟨rfl, fun _ hu => List.mem_singleton.mp hu ▸ hv⟩

theorem of_subset {zs : List Value} (h : w.Values K xs ys) (hzs : zs ⊆ xs) :
    w.Values K zs (zs.map (Value.shift w.shifts)) :=
  ⟨rfl, fun v hv => h.known v (hzs hv)⟩

theorem take (h : w.Values K xs ys) (n : Nat) : w.Values K (xs.take n) (ys.take n) := by
  have htake := h.of_subset (List.take_subset n xs)
  rwa [List.map_take, ← h.same] at htake

theorem drop (h : w.Values K xs ys) (n : Nat) : w.Values K (xs.drop n) (ys.drop n) := by
  have hdrop := h.of_subset (List.drop_subset n xs)
  rwa [List.map_drop, ← h.same] at hdrop

theorem reverse (h : w.Values K xs ys) : w.Values K xs.reverse ys.reverse := by
  refine ⟨by rw [h.same, List.map_reverse], fun v hv => h.known v (List.mem_reverse.mp hv)⟩

theorem ofList (h : w.Values K xs ys) : w.Values K (Members.ofList xs) (Members.ofList ys) := by
  refine ⟨by rw [h.same]; exact Members.foldl_add_shift w.shifts xs [], fun v hv => ?_⟩
  rcases Members.mem_foldl_add hv with hv | hv
  · cases hv
  · exact h.known v hv

end Values

namespace Pairs

variable {K : Value → Prop} {xs ys : List (Value × Value)}

theorem keys (h : w.Pairs K xs ys) : w.Values K (xs.map Prod.fst) (ys.map Prod.fst) := by
  refine ⟨by simp [h.same, shiftPair, Function.comp_def], fun v hv => ?_⟩
  obtain ⟨e, he, rfl⟩ := List.mem_map.mp hv
  exact (h.known e he).1

theorem values (h : w.Pairs K xs ys) : w.Values K (xs.map Prod.snd) (ys.map Prod.snd) := by
  refine ⟨by simp [h.same, shiftPair, Function.comp_def], fun v hv => ?_⟩
  obtain ⟨e, he, rfl⟩ := List.mem_map.mp hv
  exact (h.known e he).2

theorem find? (h : w.Pairs K xs ys) (key : Value) :
    Entries.find? ys (key.shift w.shifts) = (Entries.find? xs key).map (Value.shift w.shifts) := by
  rw [h.same, Entries.find?_shift]

theorem find?_known (h : w.Pairs K xs ys) {key v : Value} (hv : Entries.find? xs key = some v) : v.Known K := by
  obtain ⟨e, he, rfl⟩ := Entries.find?_mem hv
  exact (h.known e he).2

theorem put (h : w.Pairs K xs ys) {key value : Value} (hkey : key.Known K) (hvalue : value.Known K) :
    w.Pairs K (Entries.put key value xs) (Entries.put (key.shift w.shifts) (value.shift w.shifts) ys) :=
  ⟨by rw [h.same, Entries.put_shift], Entries.forall_put hkey hvalue h.known⟩

theorem putAll {xs' ys' : List (Value × Value)} (h : w.Pairs K xs ys) (h' : w.Pairs K xs' ys') :
    w.Pairs K (Entries.putAll xs xs') (Entries.putAll ys ys') :=
  ⟨by rw [h.same, h'.same, Entries.putAll_shift], Entries.forall_putAll h.known h'.known⟩

end Pairs

/-! ### Sets -/

theorem alike_setMethod (a : Address) {arguments : List Value} (hargs : ∀ v ∈ arguments, v.Known (w.Known s))
    (m : SetMethod) :
    w.Alike true w.Val s t (m.run a arguments)
      (m.run (w.shifts.set.apply a) (arguments.map (Value.shift w.shifts))) := by
  refine .of_parallel (fun hst => ?_)
  have hset := hst.set a
  have hv := known_argument hargs 0
  cases m <;> simp only [SetMethod.run, argument_shift]
  case add =>
    refine alike_get ?_
    rw [hset.same, Members.has_shift]
    refine alike_ite (fun _ => alike_plain rfl) (fun _ => alike_change (fun hst => ?_) (fun _ _ _ => alike_plain rfl))
    refine (Tables.setSet hst a ?_).follows_data rfl rfl
    have happend := hset.append (Values.single hv)
    rwa [hset.same] at happend
  case remove =>
    refine alike_get ?_
    rw [hset.same, Members.has_shift, Members.remove_shift]
    refine alike_ite (fun _ => alike_change (fun hst => ?_) (fun _ _ _ => alike_plain rfl)) (fun _ => alike_plain rfl)
    exact (Tables.setSet hst a (hset.of_subset List.eraseP_subset)).follows_data rfl rfl
  case clear =>
    exact alike_change (fun hst => (Tables.setSet hst a .nil).follows_data rfl rfl) (fun _ _ _ => alike_plain rfl)

/-! ### Maps -/

theorem alike_mapGetter (a : Address) (g : MapGetter) :
    w.Alike inside w.Val s t (g.read a) (g.read (w.shifts.map.apply a)) := by
  refine .of_parallel (fun hst => alike_get ?_)
  have hmap := hst.map a
  cases g with
  | keys => exact alike_newIterable hmap.keys
  | values => exact alike_newIterable hmap.values
  | length =>
    dsimp only
    rw [hmap.same, List.length_map]
    exact alike_plain rfl
  | isEmpty =>
    dsimp only
    rw [hmap.same, List.isEmpty_map]
    exact alike_plain rfl
  | isNotEmpty =>
    dsimp only
    rw [hmap.same, List.isEmpty_map]
    exact alike_plain rfl

theorem alike_callEachEntry (hc : w.Callers c c') {f : Value} (hf : f.Known (w.Known s))
    {xs : List (Value × Value)} (hxs : ∀ e ∈ xs, e.1.Known (w.Known s) ∧ e.2.Known (w.Known s)) :
    w.Alike false (fun _ _ _ _ => True) s t (MapMethod.callEach c.call f xs)
      (MapMethod.callEach c'.call (f.shift w.shifts) (xs.map (shiftPair w.shifts))) := by
  induction xs generalizing s t with
  | nil => exact alike_pure trivial
  | cons e rest ih =>
    obtain ⟨hkey, hvalue⟩ := hxs e List.mem_cons_self
    refine (hc.call hf (by simp [hkey, hvalue])).bind (fun s' t' _ _ hfollows _ => ?_)
    have hknown := hfollows.first.known
    refine ih (hf.mono hknown) (fun e' he' => ?_)
    obtain ⟨hkey', hvalue'⟩ := hxs e' (List.mem_cons_of_mem e he')
    exact ⟨hkey'.mono hknown, hvalue'.mono hknown⟩

theorem alike_mapMethod (hc : w.Callers c c') (a : Address) {arguments : List Value}
    (hargs : ∀ v ∈ arguments, v.Known (w.Known s)) (m : MapMethod) :
    w.Alike true w.Val s t (m.run c a arguments)
      (m.run c' (w.shifts.map.apply a) (arguments.map (Value.shift w.shifts))) := by
  refine .of_parallel (fun hst => ?_)
  have hmap := hst.map a
  have h₀ := known_argument hargs 0
  have h₁ := known_argument hargs 1
  cases m <;> simp only [MapMethod.run, argument_shift]
  case getAt =>
    refine alike_get ?_
    rw [hmap.find?]
    cases hv : Entries.find? (s.map a) (argument arguments 0) with
    | none => exact alike_plain rfl
    | some v => exact alike_value (hmap.find?_known hv)
  case setAt =>
    refine alike_change (fun hst => ?_) (fun s' t' hf => alike_value (h₁.mono hf.first.known))
    exact (Tables.setMap hst a ((hst.map a).put h₀ h₁)).follows_data rfl rfl
  case containsKey =>
    refine alike_get ?_
    rw [hmap.same, Entries.hasKey_shift]
    exact alike_plain rfl
  case containsValue =>
    refine alike_get ?_
    rw [hmap.same]
    simp only [List.any_map, Function.comp_def, shiftPair, Value.equals_shift]
    exact alike_plain rfl
  case remove =>
    refine alike_get ?_
    rw [hmap.same, Entries.remove_shift, Entries.find?_shift]
    refine alike_change (fun hst => ?_) (fun s' t' hf => ?_)
    · exact (Tables.setMap hst a ⟨rfl, fun e he => hmap.known e (List.eraseP_subset he)⟩).follows_data rfl rfl
    · cases hv : Entries.find? (s.map a) (argument arguments 0) with
      | none => exact alike_plain rfl
      | some v => exact alike_value ((hmap.find?_known hv).mono hf.first.known)
  case putIfAbsent =>
    refine alike_get ?_
    rw [hmap.find?]
    cases hv : Entries.find? (s.map a) (argument arguments 0) with
    | some v => exact alike_value (hmap.find?_known hv)
    | none =>
      refine (reads_functionArgument _ _).bind (fun _ _ _ => ?_)
      refine Alike.bind (hc.call h₁ (by simp)).weaken (fun s' t' v _ hf hvalue => ?_)
      obtain ⟨rfl, hvknown⟩ := hvalue
      refine alike_change (fun hst' => ?_) (fun s'' t'' hf' => alike_value (hvknown.mono hf'.first.known))
      exact (Tables.setMap hst' a ((hst'.map a).put (h₀.mono hf.first.known) hvknown)).follows_data rfl rfl
  case addAll =>
    cases argument arguments 0 with
    | map b =>
      refine alike_change (fun hst => ?_) (fun _ _ _ => alike_plain rfl)
      exact (Tables.setMap hst a ((hst.map a).putAll (hst.map b))).follows_data rfl rfl
    | _ => exact (reads_complaint (.badArgument "addAll" "a Map") _).alike (fun _ _ hfalse => hfalse)
  case forEach =>
    refine (reads_functionArgument _ _).bind (fun _ _ _ => alike_get ?_)
    rw [hmap.same]
    exact (alike_callEachEntry hc h₀ hmap.known).weaken.bind (fun _ _ _ _ _ _ => alike_plain rfl)
  case clear =>
    exact alike_change (fun hst => (Tables.setMap hst a ⟨rfl, by simp⟩).follows_data rfl rfl)
      (fun _ _ _ => alike_plain rfl)

/-! ### Walks -/

section Walk

variable {β : Type} {P : Store → β → β → Prop} {step step' : β → Value → Action (Walk β)}

/-- Walks that both go on or both stop, with corresponding results. -/
def Walks (P : Store → β → β → Prop) (s _ : Store) : Walk β → Walk β → Prop
  | .next r, .next r' => P s r r'
  | .stop r, .stop r' => P s r r'
  | _, _ => False

/-- Steps of a walk that do the same with corresponding elements and results. -/
structure Steps (w : Comparison) (P : Store → β → β → Prop) (step step' : β → Value → Action (Walk β)) : Prop where
  later : ∀ {s s' : Store} {r r' : β}, w.Later s s' → P s r r' → P s' r r'
  alike : ∀ {s t : Store} {r r' : β} {v : Value}, P s r r' → v.Known (w.Known s) →
    w.Alike true (Walks P) s t (step r v) (step' r' (v.shift w.shifts))

/-- One step of a walk, and the rest of it. -/
theorem alike_step {r r' : β} {v : Value} {f f' : β → Action β} (h : w.Steps P step step') (hr : P s r r')
    (hv : v.Known (w.Known s)) (hf : ∀ s' t' q q', w.Follows s t s' t' → P s' q q' →
      w.Alike true (fun s _ => P s) s' t' (f q) (f' q')) :
    w.Alike true (fun s _ => P s) s t
      (do match ← step r v with
          | .next q => f q
          | .stop q => pure q)
      (do match ← step' r' (v.shift w.shifts) with
          | .next q => f' q
          | .stop q => pure q) := by
  refine (h.alike hr hv).bind (fun s' t' x x' hfollows hx => ?_)
  cases x with
  | next q =>
    cases x' with
    | next q' => exact hf s' t' q q' hfollows hx
    | stop q' => exact hx.elim
  | stop q =>
    cases x' with
    | next q' => exact hx.elim
    | stop q' => exact alike_pure hx

theorem alike_walkItems (h : w.Steps P step step') {xs : List Value} (hxs : ∀ v ∈ xs, v.Known (w.Known s)) {r r' : β}
    (hr : P s r r') :
    w.Alike true (fun s _ => P s) s t (walkItems step xs r) (walkItems step' (xs.map (Value.shift w.shifts)) r') := by
  induction xs generalizing s t r r' with
  | nil => exact alike_pure hr
  | cons v rest ih =>
    refine alike_step h hr (hxs v List.mem_cons_self) (fun s' t' q q' hf hq => ?_)
    exact ih (fun u hu => (hxs u (List.mem_cons_of_mem v hu)).mono hf.first.known) hq

theorem alike_walkList (h : w.Steps P step step') (a : Address) {rounds rounds' : Nat} (hrounds : w.Rounds rounds rounds')
    (place : Nat) {r r' : β} (hr : P s r r') :
    w.Alike true (fun s _ => P s) s t (walkList step a rounds place r)
      (walkList step' (w.shifts.list.apply a) rounds' place r') := by
  induction rounds generalizing s t rounds' place r r' with
  | zero => exact hrounds.alike_zero (f := fun n => walkList step' _ n place r') rfl
  | succ rounds ih =>
    obtain ⟨rounds', rfl, hfewer⟩ := hrounds.succ
    refine .of_parallel (fun hst => alike_get ?_)
    have hlist := hst.list a
    rw [hlist.toArray, Array.getElem?_map]
    cases hv : (s.list a)[place]? with
    | none => exact alike_pure hr
    | some v =>
      have hknown : v.Known (w.Known s) := hlist.known v (Array.mem_toList_iff.mpr (Array.mem_of_getElem? hv))
      exact alike_step h hr hknown (fun s' t' q q' _ hq => ih hfewer (place + 1) hq)

theorem alike_walk (h : w.Steps P step step') {rounds rounds' : Nat} (hrounds : w.Rounds rounds rounds')
    (source : Value) {r r' : β} (hr : P s r r') :
    w.Alike true (fun s _ => P s) s t (walk rounds step source r)
      (walk rounds' step' (source.shift w.shifts) r') := by
  have hitems (v : Value) : w.Alike true (fun s _ => P s) s t (itemsOf v >>= fun items => walkItems step items r)
      (itemsOf (v.shift w.shifts) >>= fun items => walkItems step' items r') := by
    refine (reads_itemsOf v).bind (fun xs ys hxy => ?_)
    rw [hxy.same]
    exact alike_walkItems h hxy.known hr
  cases source with
  | list a => exact alike_walkList h a hrounds 0 hr
  | _ => exact hitems _

end Walk

/-! ### What lists, sets and iterables share -/

theorem alike_sequenceGetter (source : Value) (g : SequenceGetter) :
    w.Alike true w.Val s t (g.read source) (g.read (source.shift w.shifts)) := by
  refine (reads_itemsOf source).bind (fun xs ys hxy => ?_)
  obtain ⟨rfl, hknown⟩ := hxy
  cases g with
  | first =>
    dsimp only
    rw [List.head?_map]
    cases hx : xs.head? with
    | none => exact alike_escape (.inl rfl)
    | some v => exact alike_value (hknown v (List.mem_of_head? hx))
  | last =>
    dsimp only
    rw [List.getLast?_map]
    cases hx : xs.getLast? with
    | none => exact alike_escape (.inl rfl)
    | some v => exact alike_value (hknown v (List.mem_of_getLast? hx))
  | length =>
    dsimp only
    rw [List.length_map]
    exact alike_plain rfl
  | isEmpty =>
    dsimp only
    rw [List.isEmpty_map]
    exact alike_plain rfl
  | isNotEmpty =>
    dsimp only
    rw [List.isEmpty_map]
    exact alike_plain rfl

theorem alike_callEach (hc : w.Callers c c') {f : Value} (hf : f.Known (w.Known s)) {xs : List Value}
    (hxs : ∀ v ∈ xs, v.Known (w.Known s)) :
    w.Alike false (fun _ _ _ _ => True) s t (SequenceMethod.callEach c.call f xs)
      (SequenceMethod.callEach c'.call (f.shift w.shifts) (xs.map (Value.shift w.shifts))) := by
  induction xs generalizing s t with
  | nil => exact alike_pure trivial
  | cons v rest ih =>
    refine (hc.call hf (by simpa using hxs v List.mem_cons_self)).bind (fun s' t' _ _ hfollows _ => ?_)
    have hknown := hfollows.first.known
    exact ih (hf.mono hknown) (fun u hu => (hxs u (List.mem_cons_of_mem v hu)).mono hknown)

theorem alike_combine (hc : w.Callers c c') {f r : Value} (hf : f.Known (w.Known s)) (hr : r.Known (w.Known s))
    {xs : List Value} (hxs : ∀ v ∈ xs, v.Known (w.Known s)) :
    w.Alike false w.Val s t (SequenceMethod.combine c.call f r xs)
      (SequenceMethod.combine c'.call (f.shift w.shifts) (r.shift w.shifts) (xs.map (Value.shift w.shifts))) := by
  induction xs generalizing s t r with
  | nil => exact alike_value hr
  | cons v rest ih =>
    have hv := hxs v List.mem_cons_self
    refine (hc.call hf (by simp [hr, hv])).bind (fun s' t' u _ hfollows hu => ?_)
    obtain ⟨rfl, huknown⟩ := hu
    have hknown := hfollows.first.known
    exact ih (hf.mono hknown) huknown (fun u hu => (hxs u (List.mem_cons_of_mem v hu)).mono hknown)

end Dartlet.Comparison
