import Dartlet.Host.Standard
import Dartlet.Proofs.Collections.Literals

/-!
# Sets that are made of lists

A set is made of a list by a member of the list, by a member of the type of sets, by a literal in which the list is
spread, and by adding its elements one after the other to an empty set. However it is made, it has the elements that
equal none before them, in their order.
-/

namespace Dartlet

open Dartlet.Action

set_option linter.unusedSectionVars false

section

variable [Host]

namespace Members

variable {members : List Value} {v : Value}

theorem ofList_eq (values : List Value) : ofList values = firstOccurrences [] values :=
  foldl_add [] [] (fun _ => rfl) values

/-- Where no two members are equal, all members remain but the one that equals the value that is removed. -/
theorem remove_eq_filter (h : Distinct members) (v : Value) : remove members v = members.filter (fun m => !m.equals v) := by
  simp only [remove, Value.sameKey_eq_equals]
  refine eraseP_eq_filter (h.imp fun {m m'} hne hm => ?_)
  rwa [Value.equals_congr hm, Value.equals_comm] at hne

/-- Of the members of a set, not more than one equals a value. -/
theorem Distinct.eq_of_equals (h : Distinct members) {m m' : Value} (hm : m ∈ members) (hm' : m' ∈ members)
    (hv : m.equals v = true) (hv' : m'.equals v = true) : m = m' := by
  by_contra hne
  have hsymmetric : Std.Symm fun a b : Value => a.equals b = false := ⟨fun a b hab => (Value.equals_comm b a).trans hab⟩
  have hother : m.equals m' = false := List.Pairwise.forall h hm hm' hne
  rw [Value.equals_trans hv (Value.equals_comm m' v ▸ hv')] at hother
  cases hother

end Members

/-- The first occurrences have a value if the values have it. -/
theorem has_firstOccurrences (earlier values : List Value) (v : Value) :
    (Members.has earlier v || Members.has (firstOccurrences earlier values) v) =
      (Members.has earlier v || Members.has values v) := by
  induction values generalizing earlier with
  | nil => rfl
  | cons w rest ih =>
    have hrest := ih (w :: earlier)
    rw [firstOccurrences]
    split
    · rename_i hold
      rw [Members.has_again hold] at hrest
      rw [hrest, Members.has_cons]
      cases hwv : w.equals v with
      | false => rfl
      | true => rw [Members.has_of_equals hold hwv, Bool.true_or, Bool.true_or]
    · simp only [Members.has_cons] at hrest ⊢
      rw [Bool.or_left_comm, ← Bool.or_assoc, hrest, Bool.or_assoc, Bool.or_left_comm]

/-- Every value equals exactly one of the first occurrences. -/
theorem existsUnique_firstOccurrence {values : List Value} {v : Value} (hv : v ∈ values) (hnumber : v.isNaN = false) :
    ∃! m, m ∈ firstOccurrences [] values ∧ m.equals v = true := by
  have hhas : Members.has (firstOccurrences [] values) v = true :=
    (has_firstOccurrences [] values v).trans (Members.has_iff.mpr ⟨v, hv, (Value.equals_self_iff v).mpr hnumber⟩)
  have hdistinct : Members.Distinct (firstOccurrences [] values) := Members.ofList_eq values ▸ Members.distinct_ofList values
  obtain ⟨m, hm, hmv⟩ := Members.has_iff.mp hhas
  exact ⟨m, ⟨hm, hmv⟩, fun m' hm' => hdistinct.eq_of_equals hm'.1 hm hm'.2 hmv⟩

/-! ### Members that change a set -/

/-- Values are added to a set, one after the other. Before each of them and after the last one anything may happen that
leaves the set as it is. -/
inductive Adds (b : Address) : List Value → Store → Store → Prop where
  | nil {s t} (same : t.sets[b]? = s.sets[b]?) : Adds b [] s t
  | cons {v values s t u w depth result} (same : t.sets[b]? = s.sets[b]?)
      (add : Invokes depth (.set b) "add" [v] t (.done result u)) (rest : Adds b values u w) : Adds b (v :: values) s w

/-- Add values to a set, one after the other. -/
def addEach (e : Engine) (depth : Nat) (b : Address) : List Value → Action Unit
  | [] => pure ()
  | v :: values => do
    let _ ← invokeMember e depth (.set b) "add" [v]
    addEach e depth b values

section Members

variable {e : Engine} {depth : Nat} {b : Address} {s t : Store} {members : List Value} {v : Value}

theorem Store.set_of_getElem? (h : s.sets[b]? = some members) : s.set b = members := by
  rw [Store.set, h, Option.getD_some]

theorem Store.getElem?_setSet {members' : List Value} (h : s.sets[b]? = some members) :
    (s.setSet b members').sets[b]? = some members' := by
  obtain ⟨hb, -⟩ := Array.getElem?_eq_some_iff.mp h
  simp [Store.setSet, hb]

theorem Store.setSet_self (h : s.sets[b]? = some members) : s.setSet b members = s := by
  obtain ⟨hb, hmembers⟩ := Array.getElem?_eq_some_iff.mp h
  refine congrArg (fun sets => { s with sets := sets }) ?_
  simp [Array.setIfInBounds, hb, ← hmembers]

theorem SetMethod.run_add (hs : s.sets[b]? = some members) :
    SetMethod.run b [v] .add s = .done (.bool !Members.has members v) (s.setSet b (Members.add members v)) := by
  rw [SetMethod.run, bind_of_done (show get s = .done s s from rfl), Store.set_of_getElem? hs, argument_zero, Members.add]
  cases Members.has members v with
  | true => exact congrArg (Outcome.done _) (Store.setSet_self hs).symm
  | false => rfl

theorem SetMethod.run_remove (hs : s.sets[b]? = some members) (hdistinct : Members.Distinct members) :
    SetMethod.run b [v] .remove s = .done (.bool (Members.has members v))
      (if Members.has members v then s.setSet b (members.filter fun m => !m.equals v) else s) := by
  rw [SetMethod.run, bind_of_done (show get s = .done s s from rfl), Store.set_of_getElem? hs, argument_zero,
    ← Members.remove_eq_filter hdistinct]
  cases Members.has members v <;> rfl

/-- Adding a value adds it to the members, unless one of them equals it. -/
theorem invokeMember_add (hdepth : depth < Host.callLimit) (hs : s.sets[b]? = some members) :
    invokeMember e depth (.set b) "add" [v] s =
      .done (.bool !Members.has members v) (s.setSet b (Members.add members v)) :=
  invokeMember_of_done (m := .set .add) rfl rfl rfl hdepth (SetMethod.run_add hs)

theorem Invokes.sets_of_add {result : Value} (hs : s.sets[b]? = some members)
    (hadd : Invokes depth (.set b) "add" [v] s (.done result t)) : t.sets[b]? = some (Members.add members v) := by
  obtain ⟨-, -, level, hlevel⟩ := (invokes_done_iff (m := .set .add) rfl rfl rfl).mp hadd
  have hrun : SetMethod.run b [v] .add s = .done result t := hlevel
  rw [SetMethod.run_add hs] at hrun
  cases hrun
  exact Store.getElem?_setSet hs

/-- Values that are added one after the other are all added, whatever happens elsewhere. -/
theorem Adds.sets {values : List Value} (hadds : Adds b values s t) (hs : s.sets[b]? = some members) :
    t.sets[b]? = some (values.foldl Members.add members) := by
  induction hadds generalizing members with
  | nil same => exact same.trans hs
  | cons same add _ ih => exact ih (add.sets_of_add (same.trans hs))

theorem addEach_eq (hdepth : depth < Host.callLimit) (hs : s.sets[b]? = some members) (values : List Value) :
    addEach e depth b values s = .done () (s.setSet b (values.foldl Members.add members)) := by
  induction values generalizing s members with
  | nil => exact congrArg (Outcome.done ()) (Store.setSet_self hs).symm
  | cons v values ih =>
    have htwice (first second : List Value) : (s.setSet b first).setSet b second = s.setSet b second := by
      simp [Store.setSet]
    rw [addEach, bind_of_done (invokeMember_add hdepth hs), ih (Store.getElem?_setSet hs), htwice]
    rfl

end Members

/-! ### Sets of the elements of a list -/

section Lists

variable {a : Address} {s : Store}

/-- All ways to make a set of a list make the same set: a member of the list, a member of the type of sets, a literal, and
adding the elements one after the other to an empty set, in one go or with other things in between. Its members are the
elements that equal none before them, in their order, and every element equals exactly one of them. Members of a set agree
on what is in it: a value is added only if it is not found, and taken away, while the others stay as they are, only if it
is found. -/
theorem sets_of_lists_agree {items : List Value} (hitems : (s.list a).toList = items)
    (hnumbers : ∀ v ∈ items, v.isNaN = false) :
    (∀ {e depth}, depth < Host.callLimit →
      invokeMember e depth (.list a) "toSet" [] s = newSet (firstOccurrences [] items) s ∧
        invokeMember e depth (.type .set) "from" [.list a] s = newSet (firstOccurrences [] items) s) ∧
      (items ≠ [] → ∀ {c x s₀}, Evaluates c x s₀ (.done (.list a) s) → ∀ {l l' nullAware typeArguments},
        Evaluates c (.setOrMapLiteral l [.spread l' x nullAware] typeArguments) s₀ (newSet (firstOccurrences [] items) s)) ∧
      (∀ {b}, s.sets[b]? = some [] →
        (∀ {e depth}, depth < Host.callLimit → addEach e depth b items s = .done () (s.setSet b (firstOccurrences [] items))) ∧
          ∀ {t}, Adds b items s t → t.sets[b]? = some (firstOccurrences [] items)) ∧
      (∀ v ∈ items, ∃! m, m ∈ firstOccurrences [] items ∧ m.equals v = true) ∧
      ∀ {t : Store} {b members}, t.DistinctKeys → t.sets[b]? = some members → ∀ v : Value, v.isNaN = false →
        ∃ held : Bool, (held = true ↔ ∃ m ∈ members, m.equals v = true) ∧ ∀ {e depth}, depth < Host.callLimit →
          invokeMember e depth (.set b) "contains" [v] t = .done (.bool held) t ∧
            invokeMember e depth (.set b) "add" [v] t =
              .done (.bool !held) (if held then t else t.setSet b (members ++ [v])) ∧
            invokeMember e depth (.set b) "remove" [v] t =
              .done (.bool held) (if held then t.setSet b (members.filter fun m => !m.equals v) else t) := by
  subst hitems
  refine ⟨fun hdepth => ⟨?toSet, ?from_⟩, fun hsome {c x s₀} hsource {l l' nullAware typeArguments} => ?literal,
    fun {b} hempty => ⟨fun hdepth => ?addEach, fun hadds => ?adds⟩,
    fun v hv => existsUnique_firstOccurrence hv (hnumbers v hv),
    fun {t b members} hdistinct hb v _ => ⟨Members.has members v, Members.has_iff, fun hdepth => ⟨?contains, ?add, ?remove⟩⟩⟩
  case toSet =>
    rw [← Members.ofList_eq]
    exact invokeMember_of_done (m := .sequence .toSet) rfl rfl rfl hdepth rfl
  case from_ =>
    rw [← Members.ofList_eq]
    exact invokeMember_of_done (m := .type .from_) rfl rfl rfl hdepth rfl
  case literal =>
    have hrow : StagesAll c [.spread l' x nullAware] s₀ (itemRow (s.list a).toList ++ []) s :=
      .cons (.spread hsource (.list a)) .nil
    rw [List.append_nil] at hrow
    rw [evaluates_setOrMap_iff hrow, setOrMapOf_items hsome]
    rfl
  case addEach =>
    rw [addEach_eq hdepth hempty, ← Members.ofList_eq]
    rfl
  case adds =>
    rw [hadds.sets hempty, ← Members.ofList_eq]
    rfl
  case contains =>
    have hmembers : t.set b = members := Store.set_of_getElem? hb
    rw [← hmembers, Members.has_eq_any]
    exact invokeMember_of_done (m := .sequence .contains) rfl rfl rfl hdepth rfl
  case add =>
    rw [invokeMember_add hdepth hb, Members.add]
    cases Members.has members v with
    | true => exact congrArg (Outcome.done _) (Store.setSet_self hb)
    | false => rfl
  case remove =>
    have hmembers : Members.Distinct members := Store.set_of_getElem? hb ▸ hdistinct.set b
    exact invokeMember_of_done (m := .set .remove) rfl rfl rfl hdepth (SetMethod.run_remove hb hmembers)

end Lists

end

/-- Of two numbers and a text, the numbers being equal, the first number and the text make the set. -/
theorem sets_of_lists_agree_across_kinds :
    let one : Value := .int 1
    let items := [one, .string "1", .double 1.0]
    let s : Store := { lists := #[items.toArray], sets := #[[]] }
    (s.list 0).toList = items ∧ (∀ v ∈ items, v.isNaN = false) ∧
      invokeMember engine 0 (.list 0) "toSet" [] s = newSet [one, .string "1"] s ∧
      addEach engine 0 0 items s = .done () (s.setSet 0 [one, .string "1"]) := by
  intro one items s
  have hnumbers : ∀ v ∈ items, v.isNaN = false := by decide
  have hfirst : firstOccurrences [] items = [one, .string "1"] := rfl
  have hlist : (s.list 0).toList = items := rfl
  obtain ⟨hmembers, -, hadding, -, -⟩ := sets_of_lists_agree hlist hnumbers
  rw [hfirst] at hmembers hadding
  exact ⟨rfl, hnumbers, (hmembers (by decide)).1, (hadding rfl).1 (by decide)⟩

end Dartlet
