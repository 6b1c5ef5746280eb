import Dartlet.Host.Reflection
import Dartlet.Members.Sort
import Dartlet.Proofs.Parallel.Shift

/-!
# Shifted values

Equality, the operators on collections and the data of the host see addresses only to tell things
apart, so they do the same with shifted values.
-/

namespace Dartlet

variable (σ : Shifts)

namespace Value

@[simp] theorem isNumber_shift (v : Value) : (v.shift σ).isNumber = v.isNumber := by
  cases v <;> rfl

@[simp] theorem isFunction_shift (v : Value) : (v.shift σ).isFunction = v.isFunction := by
  cases v <;> rfl

@[simp] theorem compareNumbers?_shift (a b : Value) :
    (a.shift σ).compareNumbers? (b.shift σ) = a.compareNumbers? b := by
  cases a <;> cases b <;> rfl

@[simp] theorem equals_shift (a b : Value) : (a.shift σ).equals (b.shift σ) = a.equals b := by
  cases a <;> cases b <;> first | rfl | simp [equals, shift]

@[simp] theorem sameKey_shift (a b : Value) : (a.shift σ).sameKey (b.shift σ) = a.sameKey b := by
  cases a <;> cases b <;> first | rfl | simp [sameKey, shift]

@[simp] theorem identical_shift (a b : Value) : (a.shift σ).identical (b.shift σ) = a.identical b := by
  cases a <;> cases b <;> first | rfl | simp [identical, shift, equals]

/-- A value without an address. -/
def isPlain : Value → Bool
  | .null | .bool _ | .int _ | .double _ | .string _ | .type _ => true
  | _ => false

theorem shift_of_isPlain {v : Value} (h : v.isPlain = true) : v.shift σ = v := by
  cases v <;> first | rfl | cases h

theorem known_of_isPlain {K : Value → Prop} {v : Value} (h : v.isPlain = true) : v.Known K := by
  cases v <;> trivial

theorem known_of_forall {K : Value → Prop} (hK : ∀ a, K a) (v : Value) : v.Known K := by
  cases v with
  | error a => exact hK _
  | native a => exact hK _
  | list a => exact hK _
  | _ => trivial

end Value

namespace Numeral

theorem ofValue?_shift (v : Value) : ofValue? (v.shift σ) = ofValue? v := by
  cases v <;> rfl

theorem isPlain_toValue (n : Numeral) : n.toValue.isPlain = true := by
  cases n <;> rfl

end Numeral

/-! ### Members of values -/

@[simp] theorem Getter.find?_shift (v : Value) (name : String) : Getter.find? (v.shift σ) name = Getter.find? v name := by
  cases v <;> rfl

@[simp] theorem Method.find?_shift (v : Value) (name : String) : Method.find? (v.shift σ) name = Method.find? v name := by
  cases v <;> rfl

theorem argument_shift (arguments : List Value) (i : Nat) :
    Action.argument (arguments.map (Value.shift σ)) i = (Action.argument arguments i).shift σ := by
  simp only [Action.argument, List.getElem?_map]
  cases arguments[i]? <;> rfl

/-! ### Sets and maps -/

namespace Members

theorem has_shift (members : List Value) (v : Value) :
    has (members.map (Value.shift σ)) (v.shift σ) = has members v := by
  simp [has, List.any_map, Function.comp_def]

theorem add_shift (members : List Value) (v : Value) :
    add (members.map (Value.shift σ)) (v.shift σ) = (add members v).map (Value.shift σ) := by
  unfold add
  rw [has_shift]
  split <;> simp

theorem remove_shift (members : List Value) (v : Value) :
    remove (members.map (Value.shift σ)) (v.shift σ) = (remove members v).map (Value.shift σ) := by
  simp [remove, List.eraseP_map, Function.comp_def]

theorem mem_add {members : List Value} {v u : Value} (h : u ∈ add members v) : u ∈ members ∨ u = v := by
  unfold add at h
  split at h
  · exact .inl h
  · simpa using h

theorem foldl_add_shift (values members : List Value) :
    (values.map (Value.shift σ)).foldl add (members.map (Value.shift σ)) =
      (values.foldl add members).map (Value.shift σ) := by
  induction values generalizing members with
  | nil => rfl
  | cons v rest ih => simp only [List.map_cons, List.foldl_cons, add_shift, ih]

theorem mem_foldl_add {values members : List Value} {u : Value} (h : u ∈ values.foldl add members) :
    u ∈ members ∨ u ∈ values := by
  induction values generalizing members with
  | nil => exact .inl h
  | cons v rest ih =>
    rcases ih h with h | h
    · rcases mem_add h with h | rfl
      · exact .inl h
      · exact .inr List.mem_cons_self
    · exact .inr (List.mem_cons_of_mem v h)

end Members

namespace Entries

theorem find?_shift (entries : List (Value × Value)) (key : Value) :
    find? (entries.map (shiftPair σ)) (key.shift σ) = (find? entries key).map (Value.shift σ) := by
  simp only [find?, List.find?_map, Function.comp_def, shiftPair, Value.sameKey_shift]
  cases entries.find? (fun e => e.1.sameKey key) <;> rfl

theorem hasKey_shift (entries : List (Value × Value)) (key : Value) :
    hasKey (entries.map (shiftPair σ)) (key.shift σ) = hasKey entries key := by
  simp [hasKey, List.any_map, Function.comp_def, shiftPair]

theorem put_shift (key value : Value) (entries : List (Value × Value)) :
    put (key.shift σ) (value.shift σ) (entries.map (shiftPair σ)) = (put key value entries).map (shiftPair σ) := by
  induction entries with
  | nil => rfl
  | cons e rest ih =>
    simp only [put, List.map_cons, shiftPair, Value.sameKey_shift] at ih ⊢
    split
    · simp [shiftPair]
    · simp [ih, shiftPair]

theorem remove_shift (entries : List (Value × Value)) (key : Value) :
    remove (entries.map (shiftPair σ)) (key.shift σ) = (remove entries key).map (shiftPair σ) := by
  simp [remove, List.eraseP_map, Function.comp_def, shiftPair]

theorem putAll_shift (more entries : List (Value × Value)) :
    putAll (entries.map (shiftPair σ)) (more.map (shiftPair σ)) = (putAll entries more).map (shiftPair σ) := by
  unfold putAll
  induction more generalizing entries with
  | nil => rfl
  | cons e rest ih =>
    simp only [List.map_cons, List.foldl_cons]
    rw [← ih, ← put_shift]
    rfl

theorem find?_mem {entries : List (Value × Value)} {key v : Value} (h : find? entries key = some v) :
    ∃ e ∈ entries, e.2 = v := by
  unfold find? at h
  split at h
  · exact ⟨_, List.mem_of_find?_eq_some ‹_›, Option.some.inj h⟩
  · cases h

/-- What holds of the keys and values that are stored holds of all that are then there. -/
theorem forall_put {P : Value → Prop} {key value : Value} {entries : List (Value × Value)} (hkey : P key)
    (hvalue : P value) (h : ∀ e ∈ entries, P e.1 ∧ P e.2) : ∀ e ∈ put key value entries, P e.1 ∧ P e.2 := by
  induction entries with
  | nil => simpa [put] using ⟨hkey, hvalue⟩
  | cons e rest ih =>
    have hrest : ∀ e' ∈ rest, P e'.1 ∧ P e'.2 := fun e' he' => h e' (List.mem_cons_of_mem e he')
    simp only [put]
    split
    · exact List.forall_mem_cons.mpr ⟨⟨(h e List.mem_cons_self).1, hvalue⟩, hrest⟩
    · exact List.forall_mem_cons.mpr ⟨h e List.mem_cons_self, ih hrest⟩

theorem forall_putAll {P : Value → Prop} {entries more : List (Value × Value)} (h : ∀ e ∈ entries, P e.1 ∧ P e.2)
    (hmore : ∀ e ∈ more, P e.1 ∧ P e.2) : ∀ e ∈ putAll entries more, P e.1 ∧ P e.2 := by
  unfold putAll
  induction more generalizing entries with
  | nil => exact h
  | cons e rest ih =>
    have he := hmore e List.mem_cons_self
    exact ih (forall_put he.1 he.2 h) (fun e' he' => hmore e' (List.mem_cons_of_mem e he'))

end Entries

/-! ### Data of the host -/

theorem tableFind?_map {α β : Type} (f : α → β) (table : List (String × α)) (name : String) :
    tableFind? (table.map (fun e => (e.1, f e.2))) name = (tableFind? table name).map f := by
  simp only [tableFind?, List.find?_map, Function.comp_def]
  cases table.find? (fun e => e.1 == name) <;> rfl

theorem tableFind?_mem {α : Type} {table : List (String × α)} {name : String} {x : α}
    (h : tableFind? table name = some x) : ∃ e ∈ table, e.2 = x := by
  unfold tableFind? at h
  split at h
  · exact ⟨_, List.mem_of_find?_eq_some ‹_›, Option.some.inj h⟩
  · cases h

namespace HostValue

mutual

/-- Data are written the same if the values in them are. -/
theorem write_shift {f g : Value → String} (hfg : ∀ v, f (v.shift σ) = g v) (quoting : Bool) :
    ∀ h : HostValue, (h.shift σ).write f quoting = h.write g quoting
  | .none | .bool _ | .int _ | .float _ | .text _ | .callback _ => by simp [shift, write]
  | .value v => by simp [shift, write, hfg]
  | .list items => by simp [shift, write, writeAll_shift hfg items]
  | .set items => by
    cases items with
    | nil => rfl
    | cons h rest => simp [shift, shiftAll, write, writeAll, write_shift hfg true h, writeAll_shift hfg rest]
  | .dict entries => by simp [shift, write, writeEntries_shift hfg entries]

theorem writeAll_shift {f g : Value → String} (hfg : ∀ v, f (v.shift σ) = g v) :
    ∀ items : List HostValue, writeAll f (shiftAll σ items) = writeAll g items
  | [] => rfl
  | h :: rest => by simp [shiftAll, writeAll, write_shift hfg true h, writeAll_shift hfg rest]

theorem writeEntries_shift {f g : Value → String} (hfg : ∀ v, f (v.shift σ) = g v) :
    ∀ entries : List (HostValue × HostValue), writeEntries f (shiftEntries σ entries) = writeEntries g entries
  | [] => rfl
  | (k, v) :: rest => by
    simp [shiftEntries, writeEntries, write_shift hfg true k, write_shift hfg true v, writeEntries_shift hfg rest]

end

mutual

/-- Data are refused the same if the values in them are. -/
theorem isRefused_shift [Host] {f g : Value → Bool} (hfg : ∀ v, f (v.shift σ) = g v) :
    ∀ h : HostValue, (h.shift σ).isRefused f = h.isRefused g
  | .none | .bool _ | .int _ | .float _ | .text _ | .callback _ => by simp [shift, isRefused]
  | .value v => by simp [shift, isRefused, hfg]
  | .list items => by simp [shift, isRefused, anyRefused_shift hfg items]
  | .set items => by simp [shift, isRefused, anyRefused_shift hfg items]
  | .dict entries => by simp [shift, isRefused, anyEntryRefused_shift hfg entries]

theorem anyRefused_shift [Host] {f g : Value → Bool} (hfg : ∀ v, f (v.shift σ) = g v) :
    ∀ items : List HostValue, anyRefused f (shiftAll σ items) = anyRefused g items
  | [] => rfl
  | h :: rest => by simp [shiftAll, anyRefused, isRefused_shift hfg h, anyRefused_shift hfg rest]

theorem anyEntryRefused_shift [Host] {f g : Value → Bool} (hfg : ∀ v, f (v.shift σ) = g v) :
    ∀ entries : List (HostValue × HostValue), anyEntryRefused f (shiftEntries σ entries) = anyEntryRefused g entries
  | [] => rfl
  | (k, v) :: rest => by
    simp [shiftEntries, anyEntryRefused, isRefused_shift hfg k, isRefused_shift hfg v, anyEntryRefused_shift hfg rest]

end

@[simp] theorem number?_shift (h : HostValue) : (h.shift σ).number? = h.number? := by
  cases h <;> rfl

@[simp] theorem same_shift (a b : HostValue) : (a.shift σ).same (b.shift σ) = a.same b := by
  cases a <;> cases b <;> first | rfl | simp [same, shift]

theorem asKey_shift (h : HostValue) : (h.shift σ).asKey = h.asKey.map (shift σ) := by
  cases h <;> rfl

theorem addMember_shift (members : List HostValue) (h : HostValue) :
    addMember (members.map (shift σ)) (h.shift σ) = (addMember members h).map (shift σ) := by
  unfold addMember
  simp only [List.any_map, Function.comp_def, same_shift]
  split <;> simp

theorem putEntry_shift (key value : HostValue) (entries : List (HostValue × HostValue)) :
    putEntry (key.shift σ) (value.shift σ) (entries.map (shiftEntry σ)) =
      (putEntry key value entries).map (shiftEntry σ) := by
  induction entries with
  | nil => rfl
  | cons e rest ih =>
    simp only [putEntry, List.map_cons, shiftEntry, same_shift] at ih ⊢
    split
    · simp [shiftEntry]
    · simp [ih, shiftEntry]

mutual

theorem known_of_forall {K : Value → Prop} (hK : ∀ a, K a) : ∀ h : HostValue, h.Known K
  | .none | .bool _ | .int _ | .float _ | .text _ => trivial
  | .list items => knownAll_of_forall hK items
  | .set items => knownAll_of_forall hK items
  | .dict entries => knownEntries_of_forall hK entries
  | .callback f => Value.known_of_forall hK f
  | .value v => Value.known_of_forall hK v

theorem knownAll_of_forall {K : Value → Prop} (hK : ∀ a, K a) : ∀ items : List HostValue, KnownAll K items
  | [] => trivial
  | h :: rest => ⟨known_of_forall hK h, knownAll_of_forall hK rest⟩

theorem knownEntries_of_forall {K : Value → Prop} (hK : ∀ a, K a) :
    ∀ entries : List (HostValue × HostValue), KnownEntries K entries
  | [] => trivial
  | (k, v) :: rest => ⟨⟨known_of_forall hK k, known_of_forall hK v⟩, knownEntries_of_forall hK rest⟩

end

end HostValue

/-! ### Attributes -/

namespace Attribute

theorem put_shift (name : String) (h : HostValue) (entries : List (String × HostValue)) :
    put name (h.shift σ) (entries.map (shiftAttribute σ)) = (put name h entries).map (shiftAttribute σ) := by
  induction entries with
  | nil => rfl
  | cons e rest ih =>
    simp only [put, List.map_cons, shiftAttribute] at ih ⊢
    split
    · simp [shiftAttribute]
    · simp [ih, shiftAttribute]

theorem mem_put {name : String} {h : HostValue} {entries : List (String × HostValue)} {e : String × HostValue}
    (he : e ∈ put name h entries) : e = (name, h) ∨ e ∈ entries := by
  induction entries with
  | nil => exact .inl (by simpa [put] using he)
  | cons c rest ih =>
    simp only [put] at he
    split at he
    · rcases List.mem_cons.mp he with rfl | he
      · exact .inl rfl
      · exact .inr (List.mem_cons_of_mem c he)
    · rcases List.mem_cons.mp he with rfl | he
      · exact .inr List.mem_cons_self
      · exact (ih he).imp id (List.mem_cons_of_mem c)

/-- An attribute with all addresses changed. -/
def shift : Attribute → Attribute
  | data h => data (h.shift σ)
  | function f => function (f.shift σ)

/-- An attribute in which all errors are known. -/
def Known (K : Value → Prop) : Attribute → Prop
  | data h => h.Known K
  | function f => f.Known K

theorem ofData_shift (h : HostValue) : ofData (h.shift σ) = (ofData h).shift σ := by
  cases h <;> rfl

theorem known_ofData {K : Value → Prop} {h : HostValue} (hh : h.Known K) : (ofData h).Known K := by
  cases h <;> exact hh

end Attribute

end Dartlet
