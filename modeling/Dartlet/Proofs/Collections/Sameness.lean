import Dartlet.Host.Standard
import Dartlet.Proofs.Collections.Sets
import Dartlet.Proofs.Evaluation.Operands

/-!
# Equality, sameness and keys

Equality relates the values that are no NaN as an equivalence does, and so does sameness, which tells whole numbers from
doubles. The members of sets and maps go by a test for their keys, and this test is equality, although every kind of
value has its own: what finds a key, replaces its value or removes it cannot tell equal keys apart, and tells unequal
ones apart.
-/

namespace Dartlet

open Dartlet.Action
open Dartlet.Syntax (Expr)

set_option linter.unusedSectionVars false

section

variable [Host]

namespace Value

variable {a b : Value}

/-- Whether a value is a whole number, as opposed to a double with a whole value. -/
def isWhole : Value → Bool
  | .int _ => true
  | _ => false

/-- Sameness is equality that tells whole numbers from doubles. -/
theorem identical_iff (a b : Value) : a.identical b = true ↔ a.equals b = true ∧ a.isWhole = b.isWhole := by
  cases ha : a.isNumber with
  | false =>
    have hsame : a.identical b = a.equals b := by
      cases a with
      | int _ | double _ => cases ha
      | _ => rfl
    rw [hsame, equals_other ha]
    constructor
    · rintro rfl
      exact ⟨rfl, rfl⟩
    · exact And.left
  | true =>
    cases a with
    | int m => cases b <;> simp [identical, isWhole, equals, compareNumbers?]
    | double x => cases b <;> simp [identical, isWhole, equals, compareNumbers?]
    | _ => cases ha

/-- Values that are no NaN are equal in the way of an equivalence. -/
theorem equivalence_equals : Equivalence fun a b : { v : Value // v.isNaN = false } => a.val.equals b.val = true where
  refl a := (equals_self_iff a.val).mpr a.property
  symm h := (equals_comm _ _).trans h
  trans := equals_trans

theorem equivalence_identical :
    Equivalence fun a b : { v : Value // v.isNaN = false } => a.val.identical b.val = true where
  refl a := (identical_iff _ _).mpr ⟨(equals_self_iff a.val).mpr a.property, rfl⟩
  symm h := by
    obtain ⟨hequals, hwhole⟩ := (identical_iff _ _).mp h
    exact (identical_iff _ _).mpr ⟨(equals_comm _ _).trans hequals, hwhole.symm⟩
  trans h h' := by
    obtain ⟨hequals, hwhole⟩ := (identical_iff _ _).mp h
    obtain ⟨hequals', hwhole'⟩ := (identical_iff _ _).mp h'
    exact (identical_iff _ _).mpr ⟨equals_trans hequals hequals', hwhole.trans hwhole'⟩

/-- Numbers are equal if their exact values are, also if one is a whole number and the other one a double. -/
theorem equals_numbers_iff (ha : a.isNumber = true) (b : Value) :
    a.equals b = true ↔ ∃ q, a.amount? = some q ∧ b.amount? = some q := by
  rw [equals_number ha, beq_iff_eq, compareNumbers?_eq_iff]

end Value

/-! ### Keys -/

/-- Whether a test decides which keys count as the same. The member of a set that passes the test together with the given
value is found, keeps it from being added, and is the one that is removed. The key of a map that passes it is found, keeps
its form and its place when a value is stored for the given key, and is the one that is removed. -/
structure KeysGoBy (same : Value → Value → Bool) : Prop where
  sets {e : Engine} {depth : ℕ} {s : Store} {b : Address} {members : List Value} {k : Value} (hdepth : depth < Host.callLimit)
    (hset : s.sets[b]? = some members) (hdistinct : Members.Distinct members) (hk : k.isNaN = false) :
    let held := members.any fun m => same m k
    invokeMember e depth (.set b) "contains" [k] s = .done (.bool held) s ∧
      invokeMember e depth (.set b) "add" [k] s =
        .done (.bool !held) (s.setSet b (if held then members else members ++ [k])) ∧
      invokeMember e depth (.set b) "remove" [k] s =
        .done (.bool held) (if held then s.setSet b (members.filter fun m => !same m k) else s)
  maps {e : Engine} {depth : ℕ} {s : Store} {a : Address} {entries : List (Value × Value)} {k : Value}
    (hdepth : depth < Host.callLimit) (hmap : s.maps[a]? = some entries) (hdistinct : Entries.Distinct entries)
    (hk : k.isNaN = false) :
    let held := entries.any fun x => same x.1 k
    let value := ((entries.find? fun x => same x.1 k).map Prod.snd).getD .null
    invokeMember e depth (.map a) "containsKey" [k] s = .done (.bool held) s ∧
      invokeMember e depth (.map a) "[]" [k] s = .done value s ∧
      (∀ v, invokeMember e depth (.map a) "[]=" [k, v] s = .done v (s.setMap a
        (if held then entries.map fun x => (x.1, if same x.1 k then v else x.2) else entries ++ [(k, v)]))) ∧
      invokeMember e depth (.map a) "remove" [k] s = .done value (s.setMap a (entries.filter fun x => !same x.1 k))

namespace Entries

theorem find?_eq_map (entries : List (Value × Value)) (k : Value) :
    find? entries k = (entries.find? fun x => x.1.equals k).map Prod.snd := by
  simp only [find?, Value.sameKey_eq_equals]
  cases entries.find? fun x => x.1.equals k <;> rfl

theorem hasKey_eq_any (entries : List (Value × Value)) (k : Value) :
    hasKey entries k = entries.any fun x => x.1.equals k := by
  simp only [hasKey, Value.sameKey_eq_equals]

/-- What is stored for a key replaces the value of an equal one, or else comes last. -/
theorem put_eq {entries : List (Value × Value)} (h : Distinct entries) (k v : Value) :
    put k v entries = if hasKey entries k then entries.map fun x => (x.1, if x.1.equals k then v else x.2)
      else entries ++ [(k, v)] := by
  rw [← has_keys]
  split
  · rename_i hhas
    exact put_eq_map h hhas v
  · rename_i hhas
    exact put_of_not_hasKey (Bool.eq_false_iff.mpr hhas)

end Entries

/-- Keys go by equality. -/
theorem keysGoBy_equals : KeysGoBy Value.equals where
  sets {e depth s b members k} hdepth hset hdistinct _ := by
    simp only [← Members.has_eq_any]
    refine ⟨?contains, invokeMember_add hdepth hset, ?remove⟩
    case contains =>
      obtain rfl := Store.set_of_getElem? hset
      rw [Members.has_eq_any]
      exact invokeMember_of_done (m := .sequence .contains) rfl rfl rfl hdepth rfl
    case remove => exact invokeMember_of_done (m := .set .remove) rfl rfl rfl hdepth (SetMethod.run_remove hset hdistinct)
  maps {e depth s a entries k} hdepth hmap hdistinct _ := by
    obtain rfl := Store.map_of_getElem? hmap
    simp only [← Entries.find?_eq_map, ← Entries.hasKey_eq_any, ← Entries.remove_eq_filter hdistinct]
    refine ⟨?containsKey, ?lookUp, fun v => ?store, ?remove⟩
    case containsKey => exact invokeMember_map_of_done (m := .containsKey) rfl rfl hdepth rfl
    case lookUp => exact invokeMember_map_of_done (m := .getAt) rfl rfl hdepth rfl
    case store =>
      rw [← Entries.put_eq hdistinct k v]
      exact invokeMember_map_of_done (m := .setAt) rfl rfl hdepth rfl
    case remove => exact invokeMember_map_of_done (m := .remove) rfl rfl hdepth rfl

/-- Only equality decides which keys count as the same. -/
theorem KeysGoBy.eq_equals {same : Value → Value → Bool} (h : KeysGoBy same) (a : Value) {b : Value}
    (hb : b.isNaN = false) : same a b = a.equals b := by
  have hdepth : 0 < Host.callLimit := Host.callLimit_pos
  have hmap : ({ maps := #[[(a, .null)]] } : Store).maps[0]? = some [(a, .null)] := rfl
  have hdistinct : Entries.Distinct [(a, .null)] := List.pairwise_singleton _ _
  have hsame := (h.maps (e := engine) hdepth hmap hdistinct hb).1
  have hequals := (keysGoBy_equals.maps (e := engine) hdepth hmap hdistinct hb).1
  simpa using hsame.symm.trans hequals

/-! ### The operators and the function -/

/-- The function `identical` yields whether its arguments are the same. -/
theorem calls_identical_iff {depth : ℕ} {k : Address} {name : String} {s : Store} {v w : Value}
    (hdepth : depth < Host.callLimit) (hnative : s.natives[k]? = some ⟨name, .identical⟩) {o : Outcome Value} :
    Calls depth (.native k) [v, w] s o ↔ o = .done (.bool (v.identical w)) s := by
  have hcall (e : Engine) : callValue e depth (.native k) [v, w] s = (pure (.bool (v.identical w)) : Action Value) s := by
    have hcode : callNative e depth .identical [v, w] s = callHost e depth (NativeCode.run · [v, w] .identical) s := rfl
    rw [callValue_code hnative, hcode, callHost, if_neg (Nat.not_le.mpr hdepth)]
    rfl
  rw [calls_iff, EndsWith.congr (G := fun _ => pure (.bool (v.identical w))) hcall, EndsWith.const_iff]
  constructor
  · rintro ⟨hdone, -⟩
    exact hdone.symm
  · rintro rfl
    exact ⟨rfl, Outcome.ended_done _ s⟩

/-- What `==` tells of values that are no NaN is an equivalence. It compares numbers, whole ones and doubles alike, by their
exact values, and everything else by what it is. The test for keys comes out as `==` does, and so the members of sets and
maps go by `==`, and by nothing else. What `identical` tells is an equivalence, too, and relates only what is equal: it
tells whole numbers from doubles, and nothing else that is equal. -/
theorem equality_is_an_equivalence_of_keys :
    (∀ {c l x y s v t w u}, Evaluates c x s (.done v t) → Evaluates c y t (.done w u) → ∀ {o},
      (Evaluates c (.binary l .eq x y) s o ↔ o = .done (.bool (v.equals w)) u) ∧
        (Evaluates c (.binary l .ne x y) s o ↔ o = .done (.bool !v.equals w) u)) ∧
      (∀ {depth k name s}, depth < Host.callLimit → s.natives[k]? = some ⟨name, .identical⟩ → ∀ {v w o},
        Calls depth (.native k) [v, w] s o ↔ o = .done (.bool (v.identical w)) s) ∧
      Equivalence (fun a b : { v : Value // v.isNaN = false } => a.val.equals b.val = true) ∧
      Equivalence (fun a b : { v : Value // v.isNaN = false } => a.val.identical b.val = true) ∧
      (∀ a b : Value, a.identical b = true ↔ a.equals b = true ∧ a.isWhole = b.isWhole) ∧
      (∀ a b : Value, a.isNumber = true → (a.equals b = true ↔ ∃ q, a.amount? = some q ∧ b.amount? = some q)) ∧
      (∀ a b : Value, a.isNumber = false → (a.equals b = true ↔ a = b)) ∧
      (∀ a b : Value, a.sameKey b = a.equals b) ∧ KeysGoBy Value.equals ∧
      ∀ same, KeysGoBy same → ∀ a b : Value, b.isNaN = false → same a b = a.equals b :=
  ⟨fun hx hy => ⟨evaluates_binary_iff (by rfl) hx hy, evaluates_binary_iff (by rfl) hx hy⟩,
    fun hdepth hnative => calls_identical_iff hdepth hnative, Value.equivalence_equals, Value.equivalence_identical,
    Value.identical_iff, fun _ b ha => Value.equals_numbers_iff ha b,
    fun _ b ha => Value.equals_other ha b, Value.sameKey_eq_equals, keysGoBy_equals, fun _ h a _ hb => h.eq_equals a hb⟩

end

/-- A double equals a whole number of its size, and the map that has the one as a key has the other. The next whole number
is nearest to the same double, but equals neither. -/
theorem equality_is_an_equivalence_of_keys_large :
    let c : Context := ⟨0, 0⟩
    let whole : Value := .int 9007199254740992
    let double : Value := .double 9007199254740992.0
    let next : Value := .int 9007199254740993
    let s : Store := { maps := #[[(whole, .null)]], natives := #[⟨"identical", .identical⟩] }
    let x : Expr := .intLiteral none 9007199254740992
    let y : Expr := .doubleLiteral none 9007199254740992.0
    let z : Expr := .intLiteral none 9007199254740993
    Evaluates c x s (.done whole s) ∧ Evaluates c y s (.done double s) ∧ Evaluates c z s (.done next s) ∧
      Evaluates c (.binary none .eq x y) s (.done (.bool true) s) ∧
      Evaluates c (.binary none .eq y z) s (.done (.bool false) s) ∧
      Calls 0 (.native 0) [whole, double] s (.done (.bool false) s) ∧
      invokeMember engine 0 (.map 0) "containsKey" [double] s = .done (.bool true) s ∧
      invokeMember engine 0 (.map 0) "containsKey" [next] s = .done (.bool false) s := by
  intro c whole double next s x y z
  have hx : Evaluates c x s (.done whole s) := ⟨nofun, 1, rfl⟩
  have hy : Evaluates c y s (.done double s) := ⟨nofun, 1, rfl⟩
  have hz : Evaluates c z s (.done next s) := ⟨nofun, 1, rfl⟩
  have hdepth : 0 < Host.callLimit := by decide
  have hmap : s.maps[0]? = some [(whole, .null)] := rfl
  have hdistinct : Entries.Distinct [(whole, .null)] := List.pairwise_singleton _ _
  have hnumber : double.isNaN = false := by decide
  have hequal : whole.equals double = true := by decide
  have hnext : double.equals next = false := by decide
  have hheld : [(whole, Value.null)].any (fun x => x.1.equals double) = true := by decide
  have hmissing : [(whole, Value.null)].any (fun x => x.1.equals next) = false := by decide
  obtain ⟨hoperators, hcalls, -, -, -, -, -, -, hkeys, -⟩ := equality_is_an_equivalence_of_keys
  have hdouble := (hkeys.maps (e := engine) hdepth hmap hdistinct hnumber).1
  have hother := (hkeys.maps (e := engine) (k := next) hdepth hmap hdistinct rfl).1
  rw [hheld] at hdouble
  rw [hmissing] at hother
  exact ⟨hx, hy, hz, (hoperators hx hy).1.mpr (by rw [hequal]), (hoperators hy hz).1.mpr (by rw [hnext]),
    (hcalls hdepth rfl).mpr rfl, hdouble, hother⟩

end Dartlet
