import Dartlet.Members.Dispatch
import Dartlet.Proofs.Effects.Stable

/-!
# Built-in members keep stable properties

A member works on data, and calls functions of the program. So it keeps every stable property that
those calls keep.
-/

set_option linter.unusedSectionVars false

namespace Dartlet

open Dartlet.Action

variable [Host]

/-- Every call that a member may make keeps the property. -/
def Caller.Keeps (I : Store → Prop) (c : Caller) : Prop :=
  ∀ function arguments, Action.Keeps I (c.call function arguments)

variable {I : Store → Prop} {c : Caller}

theorem Stable.setList (hI : Stable I) (a : Address) (items : Array Value) {s : Store} (hs : I s) :
    I (s.setList a items) :=
  hI.data (s := s) ⟨rfl, rfl, rfl, .of_same rfl rfl⟩ hs

namespace TextMethod

theorem padding_keeps (hI : Stable I) (method text : String) (arguments : List Value) :
    Keeps I (padding method text arguments) := by
  refine (hI.intArgument _ _).bind (fun width => ?_)
  have hfill : ∀ fill, Keeps I (Action.ofExcept (repeatText fill (max (width - text.length) 0))) :=
    fun fill => hI.ofExcept (ordinarily_repeatText _ _)
  split
  · exact (hI.stringArgument _ _).bind hfill
  · exact (keeps_pure _).bind hfill

theorem run_keeps (hI : Stable I) (text : String) (arguments : List Value) (m : TextMethod) :
    Keeps I (m.run text arguments) := by
  cases m with
  | substring =>
    refine (hI.intArgument _ _).bind (fun start => (hI.stopArgument _ _ _).bind (fun stop => ?_))
    exact (keeps_checkRange _ _ _).bind (fun _ => keeps_pure _)
  | toUpperCase => exact keeps_pure _
  | toLowerCase => exact keeps_pure _
  | trim => exact keeps_pure _
  | trimLeft => exact keeps_pure _
  | trimRight => exact keeps_pure _
  | contains => exact (hI.stringArgument _ _).bind (fun _ => keeps_pure _)
  | startsWith => exact (hI.stringArgument _ _).bind (fun _ => keeps_pure _)
  | endsWith => exact (hI.stringArgument _ _).bind (fun _ => keeps_pure _)
  | indexOf => exact (hI.stringArgument _ _).bind (fun _ => keeps_pure _)
  | lastIndexOf => exact (hI.stringArgument _ _).bind (fun _ => keeps_pure _)
  | split => exact (hI.stringArgument _ _).bind (fun _ => hI.newList _)
  | replaceAll =>
    exact (hI.stringArgument _ _).bind (fun _ => (hI.stringArgument _ _).bind (fun _ => keeps_pure _))
  | padLeft => exact (padding_keeps hI _ _ _).bind (fun _ => keeps_pure _)
  | padRight => exact (padding_keeps hI _ _ _).bind (fun _ => keeps_pure _)
  | codeUnitAt => exact (hI.intArgument _ _).bind (fun _ => (keeps_checkIndex _ _).bind (fun _ => keeps_pure _))
  | charAt => exact (hI.intArgument _ _).bind (fun _ => (keeps_checkIndex _ _).bind (fun _ => keeps_pure _))
  | compareTo => exact (hI.stringArgument _ _).bind (fun _ => keeps_pure _)

end TextMethod

theorem TextGetter.read_keeps (hI : Stable I) (text : String) (g : TextGetter) : Keeps I (g.read text) := by
  cases g with
  | codeUnits => exact hI.newList _
  | _ => exact keeps_pure _

namespace NumberMethod

theorem toWhole_keeps (round : Float → Option Int) (x : Float) : Keeps I (toWhole round x) := by
  unfold toWhole
  split
  · exact keeps_pure _
  · exact ensures_escape _

theorem fixed_keeps (hI : Stable I) (n : Numeral) (places : Nat) : Keeps I (fixed n places) := by
  refine (hI.ofExcept n.ordinarily_toDouble).bind (fun x => ?_)
  split
  · split
    · exact keeps_pure _
    · exact ensures_escape _
  · exact keeps_pure _

/-- A conversion to a whole number, which changes doubles only. -/
theorem whole_keeps (round : Float → Option Int) (n : Numeral) :
    Keeps I (match n with
      | .int k => pure (.int k)
      | .double x => toWhole round x : Action Value) := by
  cases n with
  | int k => exact keeps_pure _
  | double x => exact toWhole_keeps round x

theorem run_keeps (hI : Stable I) (n : Numeral) (arguments : List Value) (m : NumberMethod) :
    Keeps I (m.run n arguments) := by
  cases m with
  | abs => exact keeps_pure _
  | toInt => exact whole_keeps Number.truncate? n
  | truncate => exact whole_keeps Number.truncate? n
  | toDouble => exact (hI.ofExcept n.ordinarily_toDouble).bind (fun _ => keeps_pure _)
  | round => exact whole_keeps Number.roundAway? n
  | floor => exact whole_keeps Number.floor? n
  | ceil => exact whole_keeps Number.ceil? n
  | toStringAsFixed =>
    refine (hI.intArgument _ _).bind (fun places => ?_)
    exact ensures_ite (fun _ => fixed_keeps hI n _) (fun _ => ensures_escape _)
  | compareTo => exact (hI.numArgument _ _).bind (fun _ => keeps_pure _)
  | clamp =>
    refine (hI.numArgument _ _).bind (fun _ => (hI.numArgument _ _).bind (fun _ => ?_))
    exact ensures_ite (fun _ => ensures_escape _) (fun _ => keeps_pure _)
  | remainder =>
    refine (hI.numArgument _ _).bind (fun _ => ?_)
    exact fun s hs => hI.ofExcept (ordinarily_binaryResult s _ _ _) s hs

end NumberMethod

theorem NumberGetter.read_keeps (n : Numeral) (g : NumberGetter) : Keeps I (g.read n) := by
  cases g <;> exact keeps_pure _

theorem SetMethod.run_keeps (hI : Stable I) (a : Address) (arguments : List Value) (m : SetMethod) :
    Keeps I (m.run a arguments) := by
  cases m with
  | add =>
    refine ensures_get_bind (fun s hs => ?_)
    by_cases hhas : Members.has (s.set a) (argument arguments 0) = true
    · simp only [if_pos hhas]
      exact ⟨trivial, hs⟩
    · have hadded (h : s.DistinctKeys) := h.setSet a ((h.set a).append (Bool.eq_false_iff.mpr hhas))
      simp only [if_neg hhas]
      exact ⟨trivial, hI.data (s := s) ⟨rfl, rfl, rfl, hadded⟩ hs⟩
  | remove =>
    refine ensures_get_bind (fun s hs => ?_)
    by_cases hhas : Members.has (s.set a) (argument arguments 0) = true
    · have hremoved (h : s.DistinctKeys) := h.setSet a ((h.set a).remove (argument arguments 0))
      simp only [if_pos hhas]
      exact ⟨trivial, hI.data (s := s) ⟨rfl, rfl, rfl, hremoved⟩ hs⟩
    · simp only [if_neg hhas]
      exact ⟨trivial, hs⟩
  | clear =>
    have hclear : Keeps I (modify (fun s => s.setSet a [])) :=
      hI.modify (fun _ => ⟨rfl, rfl, rfl, fun h => h.setSet a Members.distinct_nil⟩)
    exact hclear.bind (fun _ => keeps_pure _)

theorem MapGetter.read_keeps (hI : Stable I) (a : Address) (g : MapGetter) : Keeps I (g.read a) := by
  refine keeps_get.bind (fun store => ?_)
  cases g with
  | keys => exact hI.newIterable _
  | values => exact hI.newIterable _
  | _ => exact keeps_pure _

namespace MapMethod

theorem callEach_keeps (hc : c.Keeps I) (function : Value) (entries : List (Value × Value)) :
    Keeps I (callEach c.call function entries) := by
  induction entries with
  | nil => exact keeps_pure ()
  | cons e rest ih => exact (hc _ _).bind (fun _ => ih)

theorem run_keeps (hI : Stable I) (hc : c.Keeps I) (a : Address) (arguments : List Value) (m : MapMethod) :
    Keeps I (m.run c a arguments) := by
  have hset {f : Store → List (Value × Value)} (hf : ∀ s : Store, s.DistinctKeys → Entries.Distinct (f s)) :
      Keeps I (modify (fun s => s.setMap a (f s))) :=
    hI.modify (fun s => ⟨rfl, rfl, rfl, fun h => h.setMap a (hf s h)⟩)
  have hput (key value : Value) : Keeps I (modify (fun s => s.setMap a (Entries.put key value (s.map a)))) :=
    hset (fun _ h => (h.map a).put key value)
  cases m with
  | getAt => exact keeps_get.bind (fun _ => keeps_pure _)
  | setAt => exact (hput _ _).bind (fun _ => keeps_pure _)
  | containsKey => exact keeps_get.bind (fun _ => keeps_pure _)
  | containsValue => exact keeps_get.bind (fun _ => keeps_pure _)
  | remove =>
    refine ensures_get_bind (fun s hs => ?_)
    have hremoved (h : s.DistinctKeys) := h.setMap a ((h.map a).remove (argument arguments 0))
    exact ⟨trivial, hI.data (s := s) ⟨rfl, rfl, rfl, hremoved⟩ hs⟩
  | putIfAbsent =>
    refine keeps_get.bind (fun store => ?_)
    dsimp only
    split
    · exact keeps_pure _
    · refine (hI.functionArgument _ _).bind (fun _ => (hc _ _).bind (fun value => ?_))
      exact (hput _ _).bind (fun _ => keeps_pure _)
  | addAll =>
    simp only [run]
    cases argument arguments 0 with
    | map b => exact (hset (fun s h => (h.map a).putAll (s.map b))).bind (fun _ => keeps_pure _)
    | _ => exact hI.complaint (fun _ => rfl)
  | forEach =>
    refine (hI.functionArgument _ _).bind (fun _ => keeps_get.bind (fun store => ?_))
    exact (callEach_keeps hc _ _).bind (fun _ => keeps_pure _)
  | clear => exact (hset (fun _ _ => Entries.distinct_nil)).bind (fun _ => keeps_pure _)

end MapMethod

section Walk

variable {β : Type} {step : β → Value → Action (Walk β)}

theorem walkItems_keeps (hstep : ∀ result item, Keeps I (step result item)) (items : List Value)
    (result : β) : Keeps I (walkItems step items result) := by
  induction items generalizing result with
  | nil => exact keeps_pure result
  | cons item rest ih =>
    refine (hstep result item).bind (fun w => ?_)
    cases w with
    | next r => exact ih r
    | stop r => exact keeps_pure r

theorem walkList_keeps (hstep : ∀ result item, Keeps I (step result item)) (a : Address)
    (rounds place : Nat) (result : β) : Keeps I (walkList step a rounds place result) := by
  induction rounds generalizing place result with
  | zero => exact ensures_exhaust
  | succ rounds ih =>
    refine keeps_get.bind (fun store => ?_)
    split
    · exact keeps_pure result
    · refine (hstep result _).bind (fun w => ?_)
      cases w with
      | next r => exact ih (place + 1) r
      | stop r => exact keeps_pure r

theorem walk_keeps (hI : Stable I) (hstep : ∀ result item, Keeps I (step result item)) (rounds : Nat)
    (source : Value) (init : β) : Keeps I (walk rounds step source init) := by
  unfold walk
  split
  · exact walkList_keeps hstep _ rounds 0 init
  · exact (hI.itemsOf _).bind (fun items => walkItems_keeps hstep items init)

end Walk

theorem SequenceGetter.read_keeps (hI : Stable I) (source : Value) (g : SequenceGetter) :
    Keeps I (g.read source) := by
  refine (hI.itemsOf _).bind (fun items => ?_)
  cases g with
  | first =>
    cases h : items.head? with
    | some item => simpa [h] using keeps_pure item
    | none => simpa [h] using ensures_escape _
  | last =>
    cases h : items.getLast? with
    | some item => simpa [h] using keeps_pure item
    | none => simpa [h] using ensures_escape _
  | _ => exact keeps_pure _

namespace SequenceMethod

theorem callEach_keeps (hc : c.Keeps I) (function : Value) (items : List Value) :
    Keeps I (callEach c.call function items) := by
  induction items with
  | nil => exact keeps_pure ()
  | cons item rest ih => exact (hc _ _).bind (fun _ => ih)

theorem combine_keeps (hc : c.Keeps I) (function result : Value) (items : List Value) :
    Keeps I (combine c.call function result items) := by
  induction items generalizing result with
  | nil => exact keeps_pure result
  | cons item rest ih => exact (hc _ _).bind (fun next => ih next)

theorem run_keeps (hI : Stable I) (hc : c.Keeps I) (source : Value) (arguments : List Value)
    (m : SequenceMethod) : Keeps I (m.run c source arguments) := by
  cases m with
  | contains => exact (hI.itemsOf _).bind (fun _ => keeps_pure _)
  | elementAt =>
    refine (hI.itemsOf _).bind (fun items => (hI.intArgument _ _).bind (fun index => ?_))
    exact (keeps_checkIndex _ _).bind (fun _ => keeps_pure _)
  | join =>
    have hjoin : ∀ separator : String, Keeps I (do
        let items ← itemsOf source
        let texts ← textsOf items
        pure (Value.string (separator.intercalate texts))) :=
      fun separator => (hI.itemsOf _).bind (fun _ => (keeps_textsOf _).bind (fun _ => keeps_pure _))
    simp only [run]
    split
    · exact (hI.stringArgument _ _).bind hjoin
    · exact (keeps_pure _).bind hjoin
  | map =>
    refine (hI.functionArgument _ _).bind (fun _ => Keeps.bind ?_ (fun _ => hI.newIterable _))
    exact walk_keeps hI (fun _ _ => (hc _ _).bind (fun _ => keeps_pure _)) _ _ _
  | where_ =>
    refine (hI.functionArgument _ _).bind (fun _ => Keeps.bind ?_ (fun _ => hI.newIterable _))
    exact walk_keeps hI
      (fun _ _ => (hc _ _).bind (fun _ => (hI.boolResult _ _).bind (fun _ => keeps_pure _))) _ _ _
  | forEach =>
    refine (hI.functionArgument _ _).bind (fun _ => (hI.itemsOf _).bind (fun items => ?_))
    exact (callEach_keeps hc _ items).bind (fun _ => keeps_pure _)
  | any =>
    refine (hI.functionArgument _ _).bind (fun _ => Keeps.bind ?_ (fun _ => keeps_pure _))
    exact walk_keeps hI
      (fun _ _ => (hc _ _).bind (fun _ => (hI.boolResult _ _).bind (fun _ => keeps_pure _))) _ _ _
  | every =>
    refine (hI.functionArgument _ _).bind (fun _ => Keeps.bind ?_ (fun _ => keeps_pure _))
    exact walk_keeps hI
      (fun _ _ => (hc _ _).bind (fun _ => (hI.boolResult _ _).bind (fun _ => keeps_pure _))) _ _ _
  | fold =>
    refine (hI.functionArgument _ _).bind (fun _ => ?_)
    exact walk_keeps hI (fun _ _ => (hc _ _).bind (fun _ => keeps_pure _)) _ _ _
  | reduce =>
    refine (hI.itemsOf _).bind (fun items => ?_)
    cases items with
    | nil => exact ensures_escape _
    | cons item rest => exact (hI.functionArgument _ _).bind (fun _ => combine_keeps hc _ item rest)
  | skip => exact (hI.itemsOf _).bind (fun _ => (hI.intArgument _ _).bind (fun _ => hI.newIterable _))
  | take => exact (hI.itemsOf _).bind (fun _ => (hI.intArgument _ _).bind (fun _ => hI.newIterable _))
  | toList => exact (hI.itemsOf _).bind (fun _ => hI.newList _)
  | toSet => exact (hI.itemsOf _).bind (fun items => hI.newSet (Members.distinct_ofList items))

end SequenceMethod

end Dartlet

namespace Dartlet.Sort

open Dartlet.Action

variable [Host] {I : Store → Prop} {c : Caller} {less : Value → Value → Action Bool}

theorem keeping_keeps {α : Type} {x : Action α} (hI : Stable I) (a : Address) (items : Array Value)
    (hx : Keeps I x) : Keeps I (keeping a items x) := by
  intro s hs
  have h := hx s hs
  unfold keeping
  cases hxs : x s with
  | done result s' => rwa [hxs] at h
  | raised e s' =>
    rw [hxs] at h
    exact hI.setList a items h
  | escaped f s' =>
    rw [hxs] at h
    exact hI.setList a items h
  | exhausted s' =>
    rw [hxs] at h
    exact hI.setList a items h

theorem runLength_keeps (hl : ∀ l r, Keeps I (less l r)) (descending : Bool) (previous : Value)
    (items : List Value) : Keeps I (runLength less descending previous items) := by
  induction items generalizing previous with
  | nil => exact keeps_pure 0
  | cons item rest ih =>
    refine (hl item previous).bind (fun below => ?_)
    exact ensures_ite (fun _ => (ih item).bind (fun _ => keeps_pure _)) (fun _ => keeps_pure _)

theorem frontRun_keeps (hl : ∀ l r, Keeps I (less l r)) (items : List Value) :
    Keeps I (frontRun less items) := by
  unfold frontRun
  split
  · exact (hl _ _).bind (fun _ => (runLength_keeps hl _ _ _).bind (fun _ => keeps_pure _))
  · exact keeps_pure _

theorem insertionPoint_keeps (hl : ∀ l r, Keeps I (less l r)) (pivot : Value) (run : Array Value)
    (limit low high : Nat) : Keeps I (insertionPoint less pivot run limit low high) := by
  induction limit generalizing low high with
  | zero => exact keeps_pure low
  | succ limit ih =>
    refine ensures_ite (fun _ => ?_) (fun _ => keeps_pure low)
    exact (hl _ _).bind (fun _ => ensures_ite (fun _ => ih _ _) (fun _ => ih _ _))

theorem insertAll_keeps (hI : Stable I) (hl : ∀ l r, Keeps I (less l r)) (a : Address) (run : Array Value)
    (items : List Value) : Keeps I (insertAll less a run items) := by
  induction items generalizing run with
  | nil => exact keeps_pure run
  | cons pivot rest ih =>
    exact (keeping_keeps hI _ _ (insertionPoint_keeps hl _ _ _ _ _)).bind (fun place => ih _)

theorem finish_keeps (hI : Stable I) (a : Address) (items : Array Value) : Keeps I (finish a items) := by
  intro s hs
  unfold finish
  split
  · exact ⟨trivial, hI.setList a items hs⟩
  · exact hI.setList a items hs

theorem sortList_keeps (hI : Stable I) (hl : ∀ l r, Keeps I (less l r)) (a : Address) :
    Keeps I (sortList less a) := by
  refine keeps_get.bind (fun store => Keeps.bind ?_ (fun _ => ?_))
  · exact hI.modify (fun _ => ⟨rfl, rfl, rfl, .of_same rfl rfl⟩)
  · refine (keeping_keeps hI _ _ (frontRun_keeps hl _)).bind (fun run => ?_)
    exact (insertAll_keeps hI hl a _ _).bind (fun _ => finish_keeps hI a _)

theorem naturalLess_keeps (hI : Stable I) (left right : Value) : Keeps I (naturalLess left right) := by
  unfold naturalLess
  split
  · exact keeps_pure _
  · exact ensures_ite (fun _ => keeps_pure _) (fun _ => hI.complaint (fun _ => rfl))

theorem functionLess_keeps (hI : Stable I) (hc : c.Keeps I) (function left right : Value) :
    Keeps I (functionLess c function left right) :=
  (hc _ _).bind (fun _ => (hI.intArgument _ _).bind (fun _ => keeps_pure _))

end Dartlet.Sort

namespace Dartlet

open Dartlet.Action

variable [Host] {I : Store → Prop} {c : Caller}

theorem ListMethod.run_keeps (hI : Stable I) (hc : c.Keeps I) (a : Address) (arguments : List Value)
    (m : ListMethod) : Keeps I (m.run c a arguments) := by
  have hmodify : ∀ f, Keeps I (modify (fun s => s.modifyList a f)) :=
    fun f => hI.modify (fun _ => ⟨rfl, rfl, rfl, .of_same rfl rfl⟩)
  have hset : ∀ items, Keeps I (modify (fun s => s.setList a items)) :=
    fun items => hI.modify (fun _ => ⟨rfl, rfl, rfl, .of_same rfl rfl⟩)
  cases m with
  | getAt =>
    refine (hI.intArgument _ _).bind (fun index => keeps_get.bind (fun store => ?_))
    exact (keeps_checkIndex _ _).bind (fun _ => keeps_pure _)
  | setAt =>
    refine (hI.intArgument _ _).bind (fun index => keeps_get.bind (fun store => ?_))
    exact (keeps_checkIndex _ _).bind (fun _ => (hmodify _).bind (fun _ => keeps_pure _))
  | add => exact (hmodify _).bind (fun _ => keeps_pure _)
  | addAll => exact (hI.itemsOf _).bind (fun _ => (hmodify _).bind (fun _ => keeps_pure _))
  | insert =>
    refine (hI.intArgument _ _).bind (fun index => keeps_get.bind (fun store => ?_))
    exact (keeps_checkRange _ _ _).bind (fun _ => (hmodify _).bind (fun _ => keeps_pure _))
  | remove =>
    refine keeps_get.bind (fun store => ?_)
    dsimp only
    split
    · exact (hset _).bind (fun _ => keeps_pure _)
    · exact keeps_pure _
  | removeAt =>
    refine (hI.intArgument _ _).bind (fun index => keeps_get.bind (fun store => ?_))
    exact (keeps_checkIndex _ _).bind (fun _ => (hset _).bind (fun _ => keeps_pure _))
  | removeLast =>
    refine keeps_get.bind (fun store => ?_)
    dsimp only
    split
    · exact (hmodify _).bind (fun _ => keeps_pure _)
    · exact ensures_escape _
  | clear => exact (hset _).bind (fun _ => keeps_pure _)
  | indexOf => exact keeps_get.bind (fun _ => keeps_pure _)
  | sublist =>
    refine keeps_get.bind (fun store => (hI.intArgument _ _).bind (fun start => ?_))
    exact (hI.stopArgument _ _ _).bind (fun stop => (keeps_checkRange _ _ _).bind (fun _ => hI.newList _))
  | sort =>
    simp only [run]
    split
    · exact (Sort.sortList_keeps hI (Sort.naturalLess_keeps hI) a).bind (fun _ => keeps_pure _)
    · refine (hI.functionArgument _ _).bind (fun _ => Keeps.bind ?_ (fun _ => keeps_pure _))
      exact Sort.sortList_keeps hI (Sort.functionLess_keeps hI hc _) a

theorem reversedList_keeps (hI : Stable I) (a : Address) : Keeps I (reversedList a) :=
  keeps_get.bind (fun _ => hI.newIterable _)

namespace TypeMethod

theorem generated_keeps (hc : c.Keeps I) (function : Value) (count i : Nat) (results : Array Value) :
    Keeps I (generated c.call function count i results) := by
  induction count generalizing i results with
  | zero => exact keeps_pure results
  | succ count ih => exact (hc _ _).bind (fun _ => ih _ _)

theorem charText_keeps (code : Int) : Keeps I (charText code) :=
  ensures_ite (fun _ => ensures_escape _)
    (fun _ => ensures_ite (fun _ => ensures_escape _) (fun _ => keeps_pure _))

theorem repeated_keeps (hI : Stable I) (count : Int) (v : Value) : Keeps I (repeated count v) := by
  refine ensures_ite (fun _ => ensures_escape _) (fun _ => ?_)
  refine ensures_ite (fun _ => ensures_escape _) (fun _ => ?_)
  exact ensures_ite (fun _ => ensures_escape _) (fun _ => hI.newList _)

theorem read_keeps (t : BuiltinType) (text : String) : Keeps I (read t text) := by
  unfold read
  split
  · exact ensures_escape _
  · exact keeps_pure _

theorem run_keeps (hI : Stable I) (hc : c.Keeps I) (t : BuiltinType) (arguments : List Value)
    (m : TypeMethod) : Keeps I (m.run c t arguments) := by
  cases m with
  | parse =>
    refine (hI.stringArgument _ _).bind (fun text => (read_keeps t text).bind (fun number => ?_))
    cases number with
    | some v => exact keeps_pure v
    | none => exact ensures_escape _
  | tryParse => exact (hI.stringArgument _ _).bind (fun _ => (read_keeps _ _).bind (fun _ => keeps_pure _))
  | fromCharCode => exact (hI.intArgument _ _).bind (fun _ => charText_keeps _)
  | filled => exact (hI.intArgument _ _).bind (fun _ => repeated_keeps hI _ _)
  | generate =>
    refine (hI.intArgument _ _).bind (fun count => (hI.functionArgument _ _).bind (fun _ => ?_))
    exact (generated_keeps hc _ _ _ _).bind (fun _ => hI.newList _)
  | from_ =>
    refine (hI.itemsOf _).bind (fun items => ?_)
    split
    · exact hI.newSet (Members.distinct_ofList items)
    · exact hI.newList _

end TypeMethod

theorem Getter.read_keeps (hI : Stable I) (receiver : Value) (g : Getter) : Keeps I (g.read receiver) := by
  unfold Getter.read
  split
  · exact TextGetter.read_keeps hI _ _
  · exact NumberGetter.read_keeps _ _
  · exact NumberGetter.read_keeps _ _
  · exact SequenceGetter.read_keeps hI _ _
  · exact reversedList_keeps hI _
  · exact MapGetter.read_keeps hI _ _
  · rename_i g _
    cases g <;> exact keeps_pure _
  · exact keeps_pure _

theorem Method.run_keeps (hI : Stable I) (hc : c.Keeps I) (receiver : Value) (arguments : List Value)
    (m : Method) : Keeps I (m.run c receiver arguments) := by
  unfold Method.run
  split
  · exact TextMethod.run_keeps hI _ _ _
  · exact NumberMethod.run_keeps hI _ _ _
  · exact NumberMethod.run_keeps hI _ _ _
  · exact SequenceMethod.run_keeps hI hc _ _ _
  · exact ListMethod.run_keeps hI hc _ _ _
  · exact SetMethod.run_keeps hI _ _ _
  · exact MapMethod.run_keeps hI hc _ _ _
  · exact TypeMethod.run_keeps hI hc _ _ _
  · exact keeps_pure _

end Dartlet
