import Dartlet.Host.Standard
import Dartlet.Proofs.Collections.Equality
import Dartlet.Proofs.Evaluation.Invocations
import Dartlet.Proofs.Host.Takeover

/-!
# Maps and their histories

A map is told by its history: by what was stored in it and removed from it since it was empty. The value of a key is
the one that was last stored for an equal key, unless it was removed later; and the keys stand in the order in which
they came in, each in the form in which it did. What the members of a map read agrees with this, whatever else happens
between the changes.
-/

namespace Dartlet

open Dartlet.Action

set_option linter.unusedSectionVars false

section

/-- Where not more than one element satisfies a condition, removing the first that does keeps all others. -/
theorem eraseP_eq_filter {α : Type} {p : α → Bool} {xs : List α} (h : xs.Pairwise fun x y => p x = true → p y = false) :
    xs.eraseP p = xs.filter (fun x => !p x) := by
  induction xs with
  | nil => rfl
  | cons x rest ih =>
    obtain ⟨hothers, hrest⟩ := List.pairwise_cons.mp h
    by_cases hx : p x = true
    · have hkept : rest.filter (fun y => !p y) = rest :=
        List.filter_eq_self.mpr fun y hy => by rw [hothers y hy hx, Bool.not_false]
      simp [hx, hkept]
    · simp [hx, ih hrest]

/-! ### Entries -/

variable [Host]

namespace Entries

variable {entries : List (Value × Value)} {k : Value}

theorem find?_cons (e : Value × Value) (rest : List (Value × Value)) (k : Value) :
    find? (e :: rest) k = if e.1.equals k then some e.2 else find? rest k := by
  simp only [find?, List.find?_cons, Value.sameKey_eq_equals]
  cases e.1.equals k <;> rfl

theorem hasKey_eq_isSome (entries : List (Value × Value)) (k : Value) : hasKey entries k = (find? entries k).isSome := by
  induction entries with
  | nil => rfl
  | cons e rest ih =>
    rw [find?_cons, hasKey, List.any_cons, ← hasKey, ih, Value.sameKey_eq_equals]
    cases e.1.equals k <;> rfl

theorem has_keys (entries : List (Value × Value)) (k : Value) : Members.has (entries.map Prod.fst) k = hasKey entries k := by
  simp [Members.has, hasKey, Function.comp_def]

/-- The entry of a key that was stored is found under every equal key. -/
theorem find?_put (key value k : Value) (entries : List (Value × Value)) :
    find? (put key value entries) k = if key.equals k then some value else find? entries k := by
  induction entries with
  | nil => rw [put, find?_cons]
  | cons e rest ih =>
    by_cases he : e.1.equals key = true
    · rw [put_cons, if_pos he, find?_cons, find?_cons, Value.equals_congr he]
      split <;> rfl
    · rw [put_cons, if_neg he, find?_cons, ih, find?_cons]
      by_cases hk : key.equals k = true
      · have hother : ¬ e.1.equals k = true := fun heq => he (Value.equals_trans heq (Value.equals_comm key k ▸ hk))
        rw [if_neg hother, if_pos hk, if_pos hk]
      · rw [if_neg hk, if_neg hk]

/-- Where no two keys are equal, all entries remain but those of the key that is removed. -/
theorem remove_eq_filter (h : Distinct entries) (key : Value) :
    remove entries key = entries.filter (fun e => !e.1.equals key) := by
  simp only [remove, Value.sameKey_eq_equals]
  refine eraseP_eq_filter ((List.pairwise_map.mp h).imp fun {e e'} hne he => ?_)
  rwa [Value.equals_congr he, Value.equals_comm] at hne

theorem find?_remove (h : Distinct entries) (key k : Value) :
    find? (remove entries key) k = if key.equals k then none else find? entries k := by
  rw [remove_eq_filter h]
  clear h
  induction entries with
  | nil => simp [find?]
  | cons e rest ih =>
    by_cases he : e.1.equals key = true
    · simp only [List.filter_cons, he, Bool.not_true, Bool.false_eq_true, ↓reduceIte, ih, find?_cons,
        Value.equals_congr he]
      split <;> rfl
    · simp only [List.filter_cons, he, Bool.not_false, ↓reduceIte, ih, find?_cons]
      by_cases hk : key.equals k = true
      · have hother : ¬ e.1.equals k = true := fun heq => he (Value.equals_trans heq (Value.equals_comm key k ▸ hk))
        simp [hother, hk]
      · simp [hk]

theorem find?_of_mem (h : Distinct entries) {e : Value × Value} (he : e ∈ entries) (hself : e.1.equals e.1 = true) :
    find? entries e.1 = some e.2 := by
  induction entries with
  | nil => cases he
  | cons e' rest ih =>
    obtain ⟨hothers, hrest⟩ := List.pairwise_cons.mp h
    rw [find?_cons]
    rcases List.mem_cons.mp he with rfl | he
    · rw [if_pos hself]
    · have hother : e'.1.equals e.1 = false := hothers e.1 (List.mem_map_of_mem he)
      rw [hother, if_neg Bool.false_ne_true, ih hrest he]

end Entries

/-! ### What was stored and removed -/

/-- A change of a map. -/
inductive Change where
  | store (key value : Value)
  | remove (key : Value)
  | clear

namespace Change

/-- The key that a change is made for. -/
def key? : Change → Option Value
  | store key _ | remove key => some key
  | clear => none

/-- Whether a change is about a key: it is made for an equal one, or for all. -/
def concerns (k : Value) : Change → Bool
  | store key _ | remove key => key.equals k
  | clear => true

/-- Whether a change removes a key. -/
def removes (k : Value) : Change → Bool
  | store _ _ => false
  | remove key => key.equals k
  | clear => true

/-- The value that a change stores. -/
def value? : Change → Option Value
  | store _ value => some value
  | remove _ | clear => none

/-- What a change makes of the entries of a map. -/
def apply (entries : List (Value × Value)) : Change → List (Value × Value)
  | store key value => Entries.put key value entries
  | remove key => Entries.remove entries key
  | clear => []

end Change

/-- The value that was last stored for a key that equals the given one, since it was last removed. -/
def lastStored (history : List Change) (k : Value) : Option Value :=
  (history.reverse.find? (Change.concerns k)).bind Change.value?

/-- The key that a change puts in and that is not removed later. A key is put in where it is not there before. -/
def insertedAt? (history : List Change) (i : Nat) : Option Value :=
  match history[i]? with
  | some (.store key _) =>
    if (lastStored (history.take i) key).isNone && (history.drop (i + 1)).all (fun change => !change.removes key) then
      some key
    else none
  | _ => none

/-- The keys of a map, in the order and in the form in which they came in. -/
def keysInOrder (history : List Change) : List Value := (List.range history.length).filterMap (insertedAt? history)

/-- The entries of a map after its history. -/
def contents (history : List Change) : List (Value × Value) := history.foldl Change.apply []

section Histories

variable {history : List Change} {k : Value}

theorem contents_append (history more : List Change) :
    contents (history ++ more) = more.foldl Change.apply (contents history) :=
  List.foldl_append

theorem contents_concat (history : List Change) (change : Change) :
    contents (history ++ [change]) = change.apply (contents history) :=
  contents_append history [change]

theorem distinct_contents (history : List Change) : Entries.Distinct (contents history) := by
  induction history using List.reverseRecOn with
  | nil => exact Entries.distinct_nil
  | append_singleton history change ih =>
    rw [contents_concat]
    cases change with
    | store key value => exact ih.put key value
    | remove key => exact ih.remove key
    | clear => exact Entries.distinct_nil

theorem lastStored_concat (history : List Change) (change : Change) (k : Value) :
    lastStored (history ++ [change]) k = if change.concerns k then change.value? else lastStored history k := by
  simp only [lastStored, List.reverse_concat, List.find?_cons]
  cases change.concerns k <;> rfl

/-- The entries have the values that were last stored. -/
theorem find?_contents (history : List Change) (k : Value) : Entries.find? (contents history) k = lastStored history k := by
  induction history using List.reverseRecOn with
  | nil => rfl
  | append_singleton history change ih =>
    rw [contents_concat, lastStored_concat, ← ih]
    cases change with
    | store key value => exact Entries.find?_put key value k _
    | remove key => exact Entries.find?_remove (distinct_contents history) key k
    | clear => rfl

/-- A later change takes the keys away that it removes. -/
theorem insertedAt?_concat {i : Nat} (hi : i < history.length) (change : Change) :
    insertedAt? (history ++ [change]) i = (insertedAt? history i).filter (fun key => !change.removes key) := by
  unfold insertedAt?
  rw [List.getElem?_append_left hi, List.take_append_of_le_length (Nat.le_of_lt hi),
    List.drop_append_of_le_length (Nat.succ_le_of_lt hi)]
  split
  · rename_i key value _
    simp only [List.all_append, List.all_cons, List.all_nil, Bool.and_true, Bool.and_eq_true]
    by_cases hfresh : (lastStored (history.take i) key).isNone = true ∧
        (history.drop (i + 1)).all (fun change => !change.removes key) = true
    · cases hremoves : Change.removes key change <;> simp [hfresh, Option.filter, hremoves]
    · rw [if_neg hfresh, if_neg fun h => hfresh ⟨h.1, h.2.1⟩, Option.filter_none]
  · rfl

/-- The key that the last change of a history puts in. -/
theorem insertedAt?_last (history : List Change) (change : Change) :
    insertedAt? (history ++ [change]) history.length =
      match change with
      | .store key _ => if (lastStored history key).isNone then some key else none
      | _ => none := by
  unfold insertedAt?
  rw [List.getElem?_concat_length, List.take_left, List.drop_eq_nil_of_le (by simp)]
  cases change <;> simp

theorem keysInOrder_concat (history : List Change) (change : Change) :
    keysInOrder (history ++ [change]) =
      (keysInOrder history).filter (fun key => !change.removes key) ++
        (insertedAt? (history ++ [change]) history.length).toList := by
  have hearlier : (List.range history.length).filterMap (insertedAt? (history ++ [change])) =
      (keysInOrder history).filter (fun key => !change.removes key) := by
    rw [keysInOrder, List.filter_filterMap]
    exact List.filterMap_congr fun i hi => insertedAt?_concat (List.mem_range.mp hi) change
  rw [keysInOrder, List.length_append, List.length_singleton, List.range_succ, List.filterMap_append, hearlier]
  cases hlast : insertedAt? (history ++ [change]) history.length <;> simp [hlast]

/-- The keys of the entries are the ones in the order in which they came in. -/
theorem keys_contents (history : List Change) : (contents history).map Prod.fst = keysInOrder history := by
  induction history using List.reverseRecOn with
  | nil => rfl
  | append_singleton history change ih =>
    rw [contents_concat, keysInOrder_concat, insertedAt?_last, ← ih]
    cases change with
    | store key value =>
      rw [Change.apply, Entries.keys_put, Members.add, Entries.has_keys, Entries.hasKey_eq_isSome, find?_contents]
      cases hstored : lastStored history key <;> simp [Change.removes, hstored]
    | remove key =>
      rw [Change.apply, Entries.remove_eq_filter (distinct_contents history)]
      simp [Change.removes, List.filter_map, Function.comp_def, Value.equals_comm key]
    | clear => simp [Change.apply, Change.removes]

/-- A key is stored if it equals one of the keys. -/
theorem isSome_lastStored_iff (history : List Change) (k : Value) :
    (lastStored history k).isSome = true ↔ ∃ key ∈ keysInOrder history, key.equals k = true := by
  rw [← find?_contents, ← Entries.hasKey_eq_isSome, ← Entries.has_keys, keys_contents, Members.has_iff]

theorem mem_of_insertedAt? {i : Nat} (h : insertedAt? history i = some k) :
    ∃ change ∈ history, change.key? = some k := by
  unfold insertedAt? at h
  split at h
  · rename_i key value hchange
    split at h
    · cases h
      exact ⟨_, List.mem_of_getElem? hchange, rfl⟩
    · cases h
  · cases h

/-- The values of the entries are those that were last stored for the keys. -/
theorem values_contents (hkeys : ∀ change ∈ history, ∀ key, change.key? = some key → key.isNaN = false) :
    ((contents history).map Prod.snd).map some = (keysInOrder history).map (lastStored history) := by
  rw [← keys_contents, List.map_map, List.map_map]
  refine List.map_congr_left fun e he => ?_
  have hkey : e.1 ∈ keysInOrder history := keys_contents history ▸ List.mem_map_of_mem he
  obtain ⟨i, -, hi⟩ := List.mem_filterMap.mp hkey
  obtain ⟨change, hchange, hkey⟩ := mem_of_insertedAt? hi
  rw [Function.comp_apply, Function.comp_apply, ← find?_contents]
  exact (Entries.find?_of_mem (distinct_contents history) he
    ((Value.equals_self_iff e.1).mpr (hkeys change hchange e.1 hkey))).symm

end Histories

/-! ### Calls of members that change a map -/

/-- A call of a member that changes a map, with its arguments. -/
inductive MapCall where
  | assign (key value : Value)
  | remove (key : Value)
  | putIfAbsent (key function : Value)
  | addAll (other : Address)
  | clear

namespace MapCall

def method : MapCall → MapMethod
  | assign _ _ => .setAt
  | remove _ => .remove
  | putIfAbsent _ _ => .putIfAbsent
  | addAll _ => .addAll
  | clear => .clear

def name : MapCall → String
  | assign _ _ => "[]="
  | remove _ => "remove"
  | putIfAbsent _ _ => "putIfAbsent"
  | addAll _ => "addAll"
  | clear => "clear"

def arguments : MapCall → List Value
  | assign key value => [key, value]
  | remove key => [key]
  | putIfAbsent key function => [key, function]
  | addAll other => [.map other]
  | clear => []

/-- What a call changes, given the history before it, the store in which it is made and the value that it yields. -/
def changes (history : List Change) (s : Store) (result : Value) : MapCall → List Change
  | assign key value => [.store key value]
  | remove key => [.remove key]
  | putIfAbsent key _ => if (lastStored history key).isSome then [] else [.store key result]
  | addAll other => (s.map other).map fun e => .store e.1 e.2
  | clear => [.clear]

/-- Whether the function that is given to a call, if there is one, leaves the map as it is. -/
def LeavesAlone (depth : Nat) (a : Address) (s : Store) : MapCall → Prop
  | putIfAbsent _ function => ∀ v t, Calls depth function [] s (.done v t) → t.maps[a]? = s.maps[a]?
  | _ => True

end MapCall

/-- What has happened to a map since it was empty, and a store that this leads to. Between the calls that change the map,
anything may happen that leaves it as it is. -/
inductive History (a : Address) : List Change → Store → Prop where
  | empty {s} (none : s.maps[a]? = some []) : History a [] s
  | call {history s t depth result} (call : MapCall) (before : History a history s)
      (run : Invokes depth (.map a) call.name call.arguments s (.done result t))
      (alone : call.LeavesAlone (depth + 1) a s)
      (keys : ∀ change ∈ call.changes history s result, ∀ key, change.key? = some key → key.isNaN = false) :
      History a (history ++ call.changes history s result) t
  | elsewhere {history s t} (before : History a history s) (same : t.maps[a]? = s.maps[a]?) : History a history t

/-- Store entries under their keys, one after the other. -/
def assignAll (e : Engine) (depth : Nat) (a : Address) : List (Value × Value) → Action Unit
  | [] => pure ()
  | (key, value) :: rest => do
    let _ ← invokeMember e depth (.map a) "[]=" [key, value]
    assignAll e depth a rest

section Members

variable {e : Engine} {depth : Nat} {a b : Address} {history : List Change} {s t : Store}

theorem Store.map_of_getElem? {entries : List (Value × Value)} (h : s.maps[a]? = some entries) : s.map a = entries := by
  rw [Store.map, h, Option.getD_some]

theorem Store.getElem?_setMap {entries entries' : List (Value × Value)} (h : s.maps[a]? = some entries) :
    (s.setMap a entries').maps[a]? = some entries' := by
  obtain ⟨ha, -⟩ := Array.getElem?_eq_some_iff.mp h
  simp [Store.setMap, ha]

theorem MapCall.find?_name (call : MapCall) (a : Address) : Method.find? (.map a) call.name = some (.map call.method) := by
  cases call <;> rfl

theorem MapCall.accepts_arguments (call : MapCall) :
    (Method.map call.method).arity.accepts call.arguments.length = true := by
  cases call <;> rfl

/-- What is done in a map at once, without calls of functions, is done by its member. -/
theorem invokeMember_map_of_done {name : String} {m : MapMethod} {arguments : List Value}
    (hm : Method.find? (.map a) name = some (.map m)) (harity : (Method.map m).arity.accepts arguments.length = true)
    (hdepth : depth < Host.callLimit) {v : Value} (hrun : m.run (e.caller (depth + 1)) a arguments s = .done v t) :
    invokeMember e depth (.map a) name arguments s = .done v t :=
  invokeMember_of_done rfl hm harity hdepth hrun

theorem putIfAbsent_present {c : Caller} {k f v : Value} (h : Entries.find? (s.map a) k = some v) :
    MapMethod.run c a [k, f] .putIfAbsent s = .done v s := by
  rw [MapMethod.run, bind_of_done (show get s = .done s s from rfl)]
  simp only [argument_zero, h]
  rfl

/-- The function that `putIfAbsent` calls for a key that is not there yields the value that is stored. -/
theorem putIfAbsent_absent {c : Caller} {k f : Value} (h : Entries.find? (s.map a) k = none) :
    MapMethod.run c a [k, f] .putIfAbsent s = (do
      functionArgument "putIfAbsent" f
      let value ← c.call f []
      modify (fun s => s.setMap a (Entries.put k value (s.map a)))
      pure value) s := by
  rw [MapMethod.run, bind_of_done (show get s = .done s s from rfl)]
  simp only [argument_zero, h]
  rfl

/-- Storing for an absent key leads on in the history if the function that it calls leaves the map alone. -/
theorem MapCall.maps_of_putIfAbsent {key function result : Value} (hs : s.maps[a]? = some (contents history))
    (hends : EndsWith (fun e => MapMethod.putIfAbsent.run (e.caller (depth + 1)) a [key, function]) s (.done result t))
    (halone : ∀ v u, Calls (depth + 1) function [] s (.done v u) → u.maps[a]? = s.maps[a]?) :
    t.maps[a]? = some (contents (history ++ (putIfAbsent key function).changes history s result)) := by
  obtain ⟨-, level, hlevel⟩ := hends
  have hstored : (lastStored history key).isSome = (Entries.find? (s.map a) key).isSome := by
    rw [Store.map_of_getElem? hs, find?_contents]
  cases hfound : Entries.find? (s.map a) key with
  | some v =>
    obtain ⟨rfl, rfl⟩ := Outcome.done.inj (hlevel.symm.trans (putIfAbsent_present hfound))
    rw [changes, if_pos (by rw [hstored, hfound, Option.isSome_some]), List.append_nil]
    exact hs
  | none =>
    obtain ⟨_, u, hfunction, hcalls⟩ := bind_eq_done_iff.mp ((putIfAbsent_absent hfound).symm.trans hlevel)
    obtain ⟨-, rfl⟩ := functionArgument_eq_done_iff.mp hfunction
    obtain ⟨v, w, hcall, hstores⟩ := bind_eq_done_iff.mp hcalls
    have hw : w.maps[a]? = some (contents history) := (halone v w ⟨nofun, level, hcall⟩).trans hs
    cases hstores
    rw [Store.getElem?_setMap hw, Store.map_of_getElem? hw, changes, if_neg (by simp [hstored, hfound]), contents_concat]
    rfl

/-- A call leads from the entries of a history to those of the history that it makes. -/
theorem MapCall.maps_of_run {call : MapCall} {result : Value} (hs : s.maps[a]? = some (contents history))
    (hrun : Invokes depth (.map a) call.name call.arguments s (.done result t)) (halone : call.LeavesAlone (depth + 1) a s) :
    t.maps[a]? = some (contents (history ++ call.changes history s result)) := by
  have hentries := Store.map_of_getElem? hs
  obtain ⟨-, hends⟩ := (invokes_done_iff rfl (call.find?_name a) call.accepts_arguments).mp hrun
  cases call with
  | assign key value =>
    obtain ⟨-, level, hlevel⟩ := hends
    cases hlevel
    rw [Store.getElem?_setMap hs, hentries, changes, contents_concat]
    rfl
  | remove key =>
    obtain ⟨-, level, hlevel⟩ := hends
    cases hlevel
    rw [Store.getElem?_setMap hs, hentries, changes, contents_concat]
    rfl
  | putIfAbsent key function => exact maps_of_putIfAbsent hs hends halone
  | addAll other =>
    obtain ⟨-, level, hlevel⟩ := hends
    cases hlevel
    rw [Store.getElem?_setMap hs, hentries, changes, contents_append, List.foldl_map]
    rfl
  | clear =>
    obtain ⟨-, level, hlevel⟩ := hends
    cases hlevel
    rw [Store.getElem?_setMap hs, changes, contents_concat]
    rfl

/-- A map holds what its history makes of it. -/
theorem History.maps (h : History a history s) : s.maps[a]? = some (contents history) := by
  induction h with
  | empty none => exact none
  | call call _ run alone _ ih => exact call.maps_of_run ih run alone
  | elsewhere _ same ih => exact same.trans ih

theorem History.keys (h : History a history s) : ∀ change ∈ history, ∀ key, change.key? = some key → key.isNaN = false := by
  induction h with
  | empty => exact fun change hchange => absurd hchange List.not_mem_nil
  | call call _ _ _ keys ih => exact fun change hchange => (List.mem_append.mp hchange).elim (ih change) (keys change)
  | elsewhere _ _ ih => exact ih

/-- Storing entries one after the other is storing them all. -/
theorem assignAll_eq (hdepth : depth < Host.callLimit) {entries : List (Value × Value)} (hs : s.maps[a]? = some entries)
    (more : List (Value × Value)) : assignAll e depth a more s = .done () (s.setMap a (Entries.putAll entries more)) := by
  induction more generalizing s entries with
  | nil =>
    obtain ⟨ha, hentries⟩ := Array.getElem?_eq_some_iff.mp hs
    have hsame : s.setMap a entries = s :=
      congrArg (fun maps => { s with maps := maps }) (by simp [Array.setIfInBounds, ha, ← hentries])
    exact congrArg (Outcome.done ()) hsame.symm
  | cons entry rest ih =>
    obtain ⟨key, value⟩ := entry
    have hassign : invokeMember e depth (.map a) "[]=" [key, value] s =
        .done value (s.setMap a (Entries.put key value (s.map a))) :=
      invokeMember_map_of_done (m := .setAt) rfl rfl hdepth rfl
    have htwice (first second : List (Value × Value)) : (s.setMap a first).setMap a second = s.setMap a second := by
      simp [Store.setMap]
    rw [assignAll, bind_of_done hassign, ih (Store.getElem?_setMap hs), htwice, Store.map_of_getElem? hs]
    rfl

/-- What the members of a map read is what its history says: the value of a key is the one that was last stored for an
equal key since it was removed, and the keys stand in the order in which they came in, each in its first form, with the
values beside them. A function given to `putIfAbsent` is called only for a key that is not there, and `addAll` stores the
entries of the other map one after the other. -/
theorem maps_keep_what_was_last_stored (h : History a history s) :
    (∀ {e depth}, depth < Host.callLimit → ∀ k : Value, k.isNaN = false →
      invokeMember e depth (.map a) "[]" [k] s = .done ((lastStored history k).getD .null) s ∧
        invokeMember e depth (.map a) "containsKey" [k] s = .done (.bool (lastStored history k).isSome) s ∧
        (∀ v, lastStored history k = some v → ∀ f, invokeMember e depth (.map a) "putIfAbsent" [k, f] s = .done v s)) ∧
      (∀ {depth}, depth < Host.callLimit → ∀ k f : Value, k.isNaN = false → lastStored history k = none → f.isFunction = true →
        ∀ v t, Calls (depth + 1) f [] s (.done v t) → Invokes depth (.map a) "putIfAbsent" [k, f] s
          (.done v (t.setMap a (Entries.put k v (t.map a))))) ∧
      (keysInOrder history).Pairwise (fun k k' => k.equals k' = false) ∧
      (∀ k : Value, k.isNaN = false → ((lastStored history k).isSome = true ↔ ∃ k' ∈ keysInOrder history, k'.equals k = true)) ∧
      getMember (.map a) "length" s = .done (.int (keysInOrder history).length) s ∧
      getMember (.map a) "keys" s = newIterable (keysInOrder history) s ∧
      (∃ values, values.map some = (keysInOrder history).map (lastStored history) ∧
        getMember (.map a) "values" s = newIterable values s) ∧
      ∀ {e depth}, depth < Host.callLimit → ∀ b, invokeMember e depth (.map a) "addAll" [.map b] s =
        (do
          assignAll e depth a (s.map b)
          pure Value.null) s := by
  have hmaps := h.maps
  have hentries := Store.map_of_getElem? hmaps
  have hfind (k : Value) : Entries.find? (s.map a) k = lastStored history k := by rw [hentries, find?_contents]
  refine ⟨fun hdepth k _ => ⟨?getAt, ?containsKey, fun v hv f => ?present⟩, fun hdepth k f _ hnone hf v t hcall => ?absent,
    ?distinct, fun k _ => isSome_lastStored_iff history k, ?length, ?keys, ⟨_, values_contents h.keys, ?values⟩,
    fun hdepth b => ?addAll⟩
  case getAt =>
    rw [← hfind]
    exact invokeMember_map_of_done (m := .getAt) rfl rfl hdepth rfl
  case containsKey =>
    rw [← hfind, ← Entries.hasKey_eq_isSome]
    exact invokeMember_map_of_done (m := .containsKey) rfl rfl hdepth rfl
  case present =>
    exact invokeMember_map_of_done (m := .putIfAbsent) rfl rfl hdepth (putIfAbsent_present ((hfind k).trans hv))
  case absent =>
    obtain ⟨-, level, hlevel⟩ := hcall
    refine ⟨nofun, level, invokeMember_map_of_done (m := .putIfAbsent) rfl rfl hdepth ?_⟩
    have hlevel : ((interpreter level).caller (_ + 1)).call f [] s = .done v t := hlevel
    rw [putIfAbsent_absent ((hfind k).trans hnone), bind_of_done (functionArgument_eq_done_iff.mpr ⟨hf, rfl⟩),
      bind_of_done hlevel]
    rfl
  case distinct => exact keys_contents history ▸ distinct_contents history
  case length =>
    rw [← keys_contents, List.length_map, ← hentries]
    rfl
  case keys =>
    rw [← keys_contents, ← hentries]
    rfl
  case values =>
    rw [← hentries]
    rfl
  case addAll =>
    rw [bind_of_done (assignAll_eq hdepth hmaps (s.map b)), ← hentries]
    exact invokeMember_map_of_done (m := .addAll) rfl rfl hdepth rfl

end Members

end

/-- A key that was removed and is stored again comes in last. -/
theorem maps_keep_what_was_last_stored_again :
    let one : Value := .int 1
    let two : Value := .int 2
    let history := [Change.store one (.string "one"), .store two (.string "two"), .remove one, .store one (.string "uno")]
    let s : Store := { maps := #[[(two, .string "two"), (one, .string "uno")]] }
    History 0 history s ∧ getMember (.map 0) "keys" s = newIterable [two, one] s ∧
      invokeMember engine 0 (.map 0) "[]" [one] s = .done (.string "uno") s := by
  intro one two history s
  have hkeys {change : Change} {key : Value} (hchange : change.key? = some key) (hkey : key.isNaN = false) :
      ∀ change' ∈ [change], ∀ key', change'.key? = some key' → key'.isNaN = false := by
    intro change' hmem key' hkey'
    obtain rfl := List.mem_singleton.mp hmem
    exact Option.some.inj (hchange.symm.trans hkey') ▸ hkey
  have hempty : History 0 [] { maps := #[[]] } := .empty rfl
  have hone : History 0 [.store one (.string "one")] { maps := #[[(one, .string "one")]] } :=
    .call (.assign one (.string "one")) hempty (show Invokes 0 _ _ _ _ _ from ⟨nofun, 0, rfl⟩) trivial (hkeys rfl rfl)
  have htwo : History 0 [.store one (.string "one"), .store two (.string "two")]
      { maps := #[[(one, .string "one"), (two, .string "two")]] } :=
    .call (.assign two (.string "two")) hone (show Invokes 0 _ _ _ _ _ from ⟨nofun, 0, rfl⟩) trivial (hkeys rfl rfl)
  have hremoved : History 0 [.store one (.string "one"), .store two (.string "two"), .remove one]
      { maps := #[[(two, .string "two")]] } :=
    .call (.remove one) htwo (show Invokes 0 _ _ _ _ _ from ⟨nofun, 0, rfl⟩) trivial (hkeys rfl rfl)
  have hs : History 0 history s :=
    .call (.assign one (.string "uno")) hremoved (show Invokes 0 _ _ _ _ _ from ⟨nofun, 0, rfl⟩) trivial (hkeys rfl rfl)
  obtain ⟨hget, -, -, -, -, hkeys, -⟩ := maps_keep_what_was_last_stored hs
  exact ⟨hs, hkeys, (hget (show 0 < Host.callLimit by decide) one rfl).1⟩

end Dartlet
