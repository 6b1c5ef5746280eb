import Dartlet.Host.Conversion
import Dartlet.Proofs.Effects.Keys

/-!
# The content of values

What a value consists of once its collections are followed to their ends. Only a value whose collections
are all in the store and never hold themselves has a content.
-/

namespace Dartlet

/-- Data without parts that programs and the host have in common. -/
inductive Atom where
  | null
  | bool (b : Bool)
  | int (n : Int)
  | double (x : Float)
  | string (s : String)

namespace Atom

/-- An atom as a value. -/
def value : Atom → Value
  | null => .null
  | bool b => .bool b
  | int n => .int n
  | double x => .double x
  | string s => .string s

/-- An atom as data of the host. -/
def data : Atom → HostValue
  | null => .none
  | bool b => .bool b
  | int n => .int n
  | double x => .float x
  | string s => .text s

/-- An atom that equals a truth value for the host, which regards these as the numbers one and zero. -/
def CountsAs (a : Atom) (b : Bool) : Prop :=
  a.value.isNumber = true ∧ a.value.equals (.int (if b then 1 else 0)) = true

/-- Atoms that are different keys for the host. -/
def Apart (a b : Atom) : Prop := a.data.same b.data = false

/-- What is equal for programs is equal for the host. -/
theorem Apart.equals {a b : Atom} (h : a.Apart b) : a.value.equals b.value = false := by
  cases a <;> cases b <;>
    first
      | exact h
      | rfl
      | (rename_i x y; cases x <;> cases y <;> first | rfl | exact h)

/-- What is different for programs is different for the host, except for truth values and numbers. -/
theorem apart_or_countsAs {a b : Atom} (h : a.value.equals b.value = false) :
    a.Apart b ∨ (∃ x, a = .bool x ∧ b.CountsAs x) ∨ ∃ x, b = .bool x ∧ a.CountsAs x := by
  by_cases hapart : a.Apart b
  · exact .inl hapart
  · refine .inr ?_
    have hsame : a.data.same b.data = true := by simpa [Apart] using hapart
    cases a with
    | bool x =>
      cases b with
      | bool y => cases x <;> cases y <;> first | exact absurd h (by decide) | exact absurd hsame (by decide)
      | int n =>
        refine .inl ⟨x, rfl, rfl, ?_⟩
        rw [Value.equals_comm]
        exact hsame
      | double y =>
        refine .inl ⟨x, rfl, rfl, ?_⟩
        rw [Value.equals_comm]
        exact hsame
      | _ => cases hsame
    | int n =>
      cases b with
      | bool x => exact .inr ⟨x, rfl, rfl, hsame⟩
      | int m => exact absurd (h.symm.trans hsame) (by decide)
      | double y => exact absurd (h.symm.trans hsame) (by decide)
      | _ => cases hsame
    | double y =>
      cases b with
      | bool x => exact .inr ⟨x, rfl, rfl, hsame⟩
      | int m => exact absurd (h.symm.trans hsame) (by decide)
      | double z => exact absurd (h.symm.trans hsame) (by decide)
      | _ => cases hsame
    | null => cases b <;> first | exact absurd h (by decide) | cases hsame
    | string s =>
      cases b with
      | string t => exact absurd (h.symm.trans hsame) (by decide)
      | _ => cases hsame

end Atom

/-- What a value consists of. -/
inductive Content where
  | atom (a : Atom)
  | list (items : List Content)
  | iterable (items : List Content)
  | set (members : List Content)
  | map (entries : List (Content × Content))

namespace Content

/-- The members of a set, or the keys of a map. -/
def keys : Content → List Content
  | set members => members
  | map entries => entries.map Prod.fst
  | _ => []

/-- What the host calls a collection. -/
def hostKind? : Content → Option String
  | atom _ => none
  | list _ | iterable _ => some "list"
  | set _ => some "set"
  | map _ => some "dict"

mutual

/-- Everything inside a content, and the content itself. -/
def parts : Content → List Content
  | atom a => [atom a]
  | list items => list items :: partsAll items
  | iterable items => iterable items :: partsAll items
  | set members => set members :: partsAll members
  | map entries => map entries :: partsEntries entries

def partsAll : List Content → List Content
  | [] => []
  | c :: rest => parts c ++ partsAll rest

def partsEntries : List (Content × Content) → List Content
  | [] => []
  | (key, value) :: rest => parts key ++ parts value ++ partsEntries rest

end

/-- A set or a map inside has a collection among its members or keys, of a kind that the host calls so. -/
def HasCollectionKey (c : Content) (kind : String) : Prop := ∃ p ∈ c.parts, ∃ k ∈ p.keys, k.hostKind? = some kind

/-- A set or a map inside has a truth value and a number that counts as it among its members or keys. -/
def MixesTruthAndNumber (c : Content) : Prop :=
  ∃ p ∈ c.parts, ∃ b a, .atom (.bool b) ∈ p.keys ∧ .atom a ∈ p.keys ∧ a.CountsAs b

mutual

/-- A content with lists for iterables. -/
def listed : Content → Content
  | atom a => atom a
  | list items | iterable items => list (listedAll items)
  | set members => set (listedAll members)
  | map entries => map (listedEntries entries)

def listedAll : List Content → List Content
  | [] => []
  | c :: rest => listed c :: listedAll rest

def listedEntries : List (Content × Content) → List (Content × Content)
  | [] => []
  | (key, value) :: rest => (listed key, listed value) :: listedEntries rest

end

mutual

/-- Structural equality. The order of lists and maps counts, that of sets does not. -/
def Same : Content → Content → Prop
  | atom a, atom b => a = b
  | list items, list items' => SameAll items items'
  | iterable items, iterable items' => SameAll items items'
  | set members, set members' => ∃ order, order.Perm members' ∧ SameAll members order
  | map entries, map entries' => SameEntries entries entries'
  | _, _ => False

def SameAll : List Content → List Content → Prop
  | [], [] => True
  | c :: rest, c' :: rest' => Same c c' ∧ SameAll rest rest'
  | _, _ => False

def SameEntries : List (Content × Content) → List (Content × Content) → Prop
  | [], [] => True
  | (key, value) :: rest, (key', value') :: rest' => Same key key' ∧ Same value value' ∧ SameEntries rest rest'
  | _, _ => False

end

mutual

theorem Same.refl : ∀ c : Content, c.Same c
  | atom _ => rfl
  | list items => SameAll.refl items
  | iterable items => SameAll.refl items
  | set members => ⟨members, .refl _, SameAll.refl members⟩
  | map entries => SameEntries.refl entries

theorem SameAll.refl : ∀ cs : List Content, SameAll cs cs
  | [] => trivial
  | c :: rest => ⟨Same.refl c, SameAll.refl rest⟩

theorem SameEntries.refl : ∀ es : List (Content × Content), SameEntries es es
  | [] => trivial
  | (key, value) :: rest => ⟨Same.refl key, Same.refl value, SameEntries.refl rest⟩

end

end Content

/-! ### Content of values -/

mutual

/-- A value has a content in a store. -/
def Value.HasContent (s : Store) (v : Value) : Content → Prop
  | .atom a => v = a.value
  | .list items => ∃ a elements, v = .list a ∧ s.lists[a]? = some elements ∧ Store.HaveContents s elements.toList items
  | .iterable items => ∃ a elements, v = .iterable a ∧ s.iterables[a]? = some elements ∧ Store.HaveContents s elements items
  | .set items => ∃ a members, v = .set a ∧ s.sets[a]? = some members ∧ Store.HaveContents s members items
  | .map entries => ∃ a pairs, v = .map a ∧ s.maps[a]? = some pairs ∧ Store.EntriesHaveContents s pairs entries

/-- Values have their contents in a store, in order. -/
def Store.HaveContents (s : Store) : List Value → List Content → Prop
  | [], [] => True
  | v :: vs, c :: cs => v.HasContent s c ∧ Store.HaveContents s vs cs
  | _, _ => False

/-- Entries have their contents in a store, in order. -/
def Store.EntriesHaveContents (s : Store) : List (Value × Value) → List (Content × Content) → Prop
  | [], [] => True
  | e :: es, (key, value) :: cs => e.1.HasContent s key ∧ e.2.HasContent s value ∧ Store.EntriesHaveContents s es cs
  | _, _ => False

end

end Dartlet
