import Dartlet.Store

/-!
# Moving addresses

Two runs of one program that begin with different stores keep in step, but the second may have more
in its tables from the beginning, so that what it makes later gets higher addresses. A shift says how
far; shifting a value, data of the host, a function or an error replaces all addresses in it. Beside
it stands what it means that all values in such a thing have a property.
-/

namespace Dartlet

/-- A change of the addresses of one table: those from `start` on go up by `gap`. -/
structure Shift where
  start : Nat
  gap : Nat

namespace Shift

/-- The new address for an old one. -/
def apply (σ : Shift) (a : Nat) : Nat := if a < σ.start then a else a + σ.gap

theorem apply_inj (σ : Shift) {a b : Nat} : σ.apply a = σ.apply b ↔ a = b := by
  constructor
  · intro h
    unfold apply at h
    split at h <;> split at h <;> omega
  · rintro rfl
    rfl

theorem apply_of_le (σ : Shift) {a : Nat} (h : σ.start ≤ a) : σ.apply a = a + σ.gap :=
  if_neg (Nat.not_lt.mpr h)

theorem apply_of_lt (σ : Shift) {a : Nat} (h : a < σ.start) : σ.apply a = a := if_pos h

theorem apply_of_gap {σ : Shift} (h : σ.gap = 0) (a : Nat) : σ.apply a = a := by
  unfold apply
  split <;> omega

@[simp] theorem apply_beq (σ : Shift) (a b : Nat) : (σ.apply a == σ.apply b) = (a == b) := by
  rw [Bool.eq_iff_iff, beq_iff_eq, beq_iff_eq, apply_inj]

/-- No change. -/
def stay : Shift := ⟨0, 0⟩

@[simp] theorem apply_stay (a : Nat) : stay.apply a = a := apply_of_gap rfl a

end Shift

/-- A change of the addresses of every table. -/
structure Shifts where
  scope : Shift
  list : Shift
  iterable : Shift
  set : Shift
  map : Shift
  closure : Shift
  native : Shift
  error : Shift
  object : Shift

/-- No change of any address. -/
def Shifts.stay : Shifts := ⟨.stay, .stay, .stay, .stay, .stay, .stay, .stay, .stay, .stay⟩

namespace Value

/-- A value with its address changed. -/
def shift (σ : Shifts) : Value → Value
  | .null => .null
  | .bool b => .bool b
  | .int n => .int n
  | .double x => .double x
  | .string t => .string t
  | .list a => .list (σ.list.apply a)
  | .iterable a => .iterable (σ.iterable.apply a)
  | .set a => .set (σ.set.apply a)
  | .map a => .map (σ.map.apply a)
  | .closure a => .closure (σ.closure.apply a)
  | .native a => .native (σ.native.apply a)
  | .type t => .type t
  | .error a => .error (σ.error.apply a)
  | .object a => .object (σ.object.apply a)

/-- A value that, if it is an error or a native function, is a known one. -/
def Known (K : Value → Prop) : Value → Prop
  | .error a => K (.error a)
  | .native a => K (.native a)
  | .list a => K (.list a)
  | _ => True

@[simp] theorem shift_stay (v : Value) : v.shift .stay = v := by
  cases v <;> simp [shift, Shifts.stay]

theorem Known.mono {K L : Value → Prop} (h : ∀ a, K a → L a) {v : Value} (hv : v.Known K) : v.Known L := by
  cases v with
  | error a => exact h _ hv
  | native a => exact h _ hv
  | list a => exact h _ hv
  | _ => trivial

end Value

mutual

/-- Data of the host with all addresses changed. -/
def HostValue.shift (σ : Shifts) : HostValue → HostValue
  | .none => .none
  | .bool b => .bool b
  | .int n => .int n
  | .float x => .float x
  | .text t => .text t
  | .list items => .list (shiftAll σ items)
  | .set items => .set (shiftAll σ items)
  | .dict entries => .dict (shiftEntries σ entries)
  | .callback f => .callback (f.shift σ)
  | .value v => .value (v.shift σ)

def shiftAll (σ : Shifts) : List HostValue → List HostValue
  | [] => []
  | h :: rest => h.shift σ :: shiftAll σ rest

def shiftEntries (σ : Shifts) : List (HostValue × HostValue) → List (HostValue × HostValue)
  | [] => []
  | (key, value) :: rest => (key.shift σ, value.shift σ) :: shiftEntries σ rest

end

mutual

/-- Data of the host in which all errors and native functions are known. -/
def HostValue.Known (K : Value → Prop) : HostValue → Prop
  | .list items => KnownAll K items
  | .set items => KnownAll K items
  | .dict entries => KnownEntries K entries
  | .callback f => f.Known K
  | .value v => v.Known K
  | _ => True

def KnownAll (K : Value → Prop) : List HostValue → Prop
  | [] => True
  | h :: rest => h.Known K ∧ KnownAll K rest

def KnownEntries (K : Value → Prop) : List (HostValue × HostValue) → Prop
  | [] => True
  | (key, value) :: rest => (key.Known K ∧ value.Known K) ∧ KnownEntries K rest

end

/-- A pair of data of the host with all addresses changed. -/
def shiftEntry (σ : Shifts) (e : HostValue × HostValue) : HostValue × HostValue := (e.1.shift σ, e.2.shift σ)

theorem shiftAll_eq_map (σ : Shifts) (items : List HostValue) : shiftAll σ items = items.map (HostValue.shift σ) := by
  induction items with
  | nil => rfl
  | cons h rest ih => simp [shiftAll, ih]

theorem shiftEntries_eq_map (σ : Shifts) (entries : List (HostValue × HostValue)) :
    shiftEntries σ entries = entries.map (shiftEntry σ) := by
  induction entries with
  | nil => rfl
  | cons e rest ih => simp [shiftEntries, shiftEntry, ih]

theorem knownAll_iff {K : Value → Prop} {items : List HostValue} : KnownAll K items ↔ ∀ h ∈ items, h.Known K := by
  induction items with
  | nil => simp [KnownAll]
  | cons h rest ih => simp [KnownAll, ih]

theorem knownEntries_iff {K : Value → Prop} {entries : List (HostValue × HostValue)} :
    KnownEntries K entries ↔ ∀ e ∈ entries, e.1.Known K ∧ e.2.Known K := by
  induction entries with
  | nil => simp [KnownEntries]
  | cons e rest ih => simp [KnownEntries, ih]

namespace HostValue

mutual

theorem shift_stay : ∀ h : HostValue, h.shift .stay = h
  | .none | .bool _ | .int _ | .float _ | .text _ => rfl
  | .list items => by simp [shift, shiftAll_stay items]
  | .set items => by simp [shift, shiftAll_stay items]
  | .dict entries => by simp [shift, shiftEntries_stay entries]
  | .callback f => by simp [shift]
  | .value v => by simp [shift]

theorem shiftAll_stay : ∀ items : List HostValue, shiftAll .stay items = items
  | [] => rfl
  | h :: rest => by simp [shiftAll, shift_stay h, shiftAll_stay rest]

theorem shiftEntries_stay : ∀ entries : List (HostValue × HostValue), shiftEntries .stay entries = entries
  | [] => rfl
  | (k, v) :: rest => by simp [shiftEntries, shift_stay k, shift_stay v, shiftEntries_stay rest]

end

mutual

theorem Known.mono {K L : Value → Prop} (hKL : ∀ a, K a → L a) : ∀ h : HostValue, h.Known K → h.Known L
  | .none, _ | .bool _, _ | .int _, _ | .float _, _ | .text _, _ => trivial
  | .list items, h => KnownAll.mono hKL items h
  | .set items, h => KnownAll.mono hKL items h
  | .dict entries, h => KnownEntries.mono hKL entries h
  | .callback _, h => Value.Known.mono hKL h
  | .value _, h => Value.Known.mono hKL h

theorem KnownAll.mono {K L : Value → Prop} (hKL : ∀ a, K a → L a) :
    ∀ items : List HostValue, KnownAll K items → KnownAll L items
  | [], _ => trivial
  | h :: rest, hh => ⟨Known.mono hKL h hh.1, KnownAll.mono hKL rest hh.2⟩

theorem KnownEntries.mono {K L : Value → Prop} (hKL : ∀ a, K a → L a) :
    ∀ entries : List (HostValue × HostValue), KnownEntries K entries → KnownEntries L entries
  | [], _ => trivial
  | (k, v) :: rest, hh =>
    ⟨⟨Known.mono hKL k hh.1.1, Known.mono hKL v hh.1.2⟩, KnownEntries.mono hKL rest hh.2⟩

end

end HostValue

namespace HostFunction

def shift (σ : Shifts) : HostFunction → HostFunction
  | callback f => callback (f.shift σ)
  | makePoint => makePoint
  | makeRandom => makeRandom
  | applyTwice => applyTwice
  | echo => echo
  | method a m => method (σ.object.apply a) m
  | errorMethod a m => errorMethod (σ.error.apply a) m

def Known (K : Value → Prop) : HostFunction → Prop
  | callback f => f.Known K
  | errorMethod a _ => K (.error a)
  | _ => True

/-- Whether a function makes or uses objects of the host. -/
def usesObjects : HostFunction → Bool
  | makePoint | makeRandom | method _ _ => true
  | _ => false

@[simp] theorem shift_stay (f : HostFunction) : f.shift .stay = f := by
  cases f <;> simp [shift] <;> simp [Shifts.stay]

theorem Known.mono {K L : Value → Prop} (h : ∀ a, K a → L a) {f : HostFunction} (hf : f.Known K) :
    f.Known L := by
  cases f with
  | callback g => exact Value.Known.mono h hf
  | errorMethod a m => exact h _ hf
  | _ => trivial

end HostFunction

namespace NativeCode

def shift (σ : Shifts) : NativeCode → NativeCode
  | print => print
  | identical => identical
  | bound receiver m => bound (receiver.shift σ) m
  | host f => host (f.shift σ)

def Known (K : Value → Prop) : NativeCode → Prop
  | bound receiver _ => receiver.Known K
  | host f => f.Known K
  | _ => True

/-- Whether native code makes or uses objects of the host. -/
def usesObjects : NativeCode → Bool
  | host f => f.usesObjects
  | _ => false

@[simp] theorem shift_stay (code : NativeCode) : code.shift .stay = code := by
  cases code <;> simp [shift]

theorem Known.mono {K L : Value → Prop} (h : ∀ a, K a → L a) {code : NativeCode} (hc : code.Known K) :
    code.Known L := by
  cases code with
  | bound receiver m => exact Value.Known.mono h hc
  | host f => exact HostFunction.Known.mono h hc
  | _ => trivial

end NativeCode

namespace Fault

def shift (σ : Shifts) : Fault → Fault
  | noMember receiver typeName name => noMember (receiver.shift σ) typeName name
  | thrown value shown => thrown (value.shift σ) shown
  | f => f

def Known (K : Value → Prop) : Fault → Prop
  | noMember receiver _ _ => receiver.Known K
  | thrown value _ => value.Known K
  | _ => True

@[simp] theorem shift_stay (f : Fault) : f.shift .stay = f := by
  cases f <;> simp [shift]

theorem Known.mono {K L : Value → Prop} (h : ∀ a, K a → L a) {f : Fault} (hf : f.Known K) : f.Known L := by
  cases f with
  | noMember receiver typeName name => exact Value.Known.mono h hf
  | thrown value shown => exact Value.Known.mono h hf
  | _ => trivial

@[simp] theorem kind_shift (σ : Shifts) (f : Fault) : (f.shift σ).kind = f.kind := by
  cases f <;> rfl

@[simp] theorem text_shift (σ : Shifts) (f : Fault) : (f.shift σ).text = f.text := by
  cases f <;> rfl

end Fault

/-- A named value with its address changed. -/
def shiftBinding (σ : Shifts) (b : String × Value) : String × Value := (b.1, b.2.shift σ)

/-- A key and a value with their addresses changed. -/
def shiftPair (σ : Shifts) (e : Value × Value) : Value × Value := (e.1.shift σ, e.2.shift σ)

/-- A named attribute with its addresses changed. -/
def shiftAttribute (σ : Shifts) (e : String × HostValue) : String × HostValue := (e.1, e.2.shift σ)

end Dartlet
