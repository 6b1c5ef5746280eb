import Dartlet.Eval.Interpreter
import Dartlet.Host.Standard
import Dartlet.Proofs.Effects.Stable
import Dartlet.Proofs.Host.Takeover
import Dartlet.Proofs.Parallel.Limits

/-!
# What comes back from the host

A value that goes through the host and back loses only the keys that the host merges, and going through a second
time loses nothing.
-/

set_option linter.unusedSectionVars false

namespace Dartlet

open Dartlet.Action

section

variable [Host]

variable {s : Store}

/-! ### What the host leaves as it is -/

mutual

/-- What data of the host have as content has neither iterables nor keys that the host merges or refuses. -/
theorem HostValue.HasContent.settled : ∀ (c : Content) {h : HostValue}, h.HasContent c →
    (∀ p ∈ c.parts, p.KeysApart ∧ ∀ k ∈ p.keys, k.hostKind? = Option.none) ∧ c.listed = c
  | .atom a, _, _ => by simp [Content.parts, Content.KeysApart, Content.keys, Content.listed]
  | .list items, _, ⟨hs, _, hitems⟩ => by
    obtain ⟨hparts, hlisted⟩ := HostValue.HaveContents.settled items hitems
    refine ⟨List.forall_mem_cons.mpr ⟨by simp [Content.KeysApart, Content.keys], hparts⟩, ?_⟩
    rw [Content.listed, hlisted]
  | .set members, _, ⟨as, hmembers, _, has⟩ => by
    subst hmembers
    refine ⟨?_, by rw [Content.listed, Content.listedAll_atoms]⟩
    have hkeys : (Content.set (as.map .atom)).KeysApart :=
      List.pairwise_map.mpr (has.imp (fun h a b ha hb => by cases ha; cases hb; exact h))
    refine List.forall_mem_cons.mpr ⟨⟨hkeys, by simp [Content.keys, Content.hostKind?]⟩, ?_⟩
    simp [Content.partsAll_atoms, Content.KeysApart, Content.keys]
  | .map entries, _, ⟨hs, _, hentries⟩ => by
    obtain ⟨hparts, hlisted⟩ := HostValue.EntriesHaveContents.settled entries hentries
    obtain ⟨as, hatoms, has⟩ := hentries.keys
    refine ⟨List.forall_mem_cons.mpr ⟨⟨?_, ?_⟩, hparts⟩, by rw [Content.listed, hlisted]⟩
    · rw [Content.KeysApart, Content.keys, hatoms]
      exact List.pairwise_map.mpr (has.imp (fun h a b ha hb => by cases ha; cases hb; exact h))
    · rw [Content.keys, hatoms]
      simp [Content.hostKind?]

theorem HostValue.HaveContents.settled : ∀ (cs : List Content) {hs : List HostValue}, HostValue.HaveContents hs cs →
    (∀ p ∈ Content.partsAll cs, p.KeysApart ∧ ∀ k ∈ p.keys, k.hostKind? = Option.none) ∧ Content.listedAll cs = cs
  | [], [], _ => ⟨nofun, rfl⟩
  | c :: cs, h :: hs, hhs => by
    obtain ⟨hparts, hlisted⟩ := HostValue.HasContent.settled c hhs.1
    obtain ⟨hparts', hlisted'⟩ := HostValue.HaveContents.settled cs hhs.2
    exact ⟨List.forall_mem_append.mpr ⟨hparts, hparts'⟩, by rw [Content.listedAll, hlisted, hlisted']⟩

theorem HostValue.EntriesHaveContents.settled : ∀ (cs : List (Content × Content)) {hs : List (HostValue × HostValue)},
    HostValue.EntriesHaveContents hs cs →
    (∀ p ∈ Content.partsEntries cs, p.KeysApart ∧ ∀ k ∈ p.keys, k.hostKind? = Option.none) ∧ Content.listedEntries cs = cs
  | [], [], _ => ⟨nofun, rfl⟩
  | (k, c) :: cs, h :: hs, ⟨⟨a, hk, _, _⟩, hc, hrest⟩ => by
    subst hk
    obtain ⟨hparts, hlisted⟩ := HostValue.HasContent.settled c hc
    obtain ⟨hparts', hlisted'⟩ := HostValue.EntriesHaveContents.settled cs hrest
    refine ⟨?_, by rw [Content.listedEntries, Content.listed, hlisted, hlisted']⟩
    rw [Content.partsEntries, List.forall_mem_append, List.forall_mem_append]
    exact ⟨⟨by simp [Content.parts, Content.KeysApart, Content.keys], hparts⟩, hparts'⟩

end

mutual

/-- Every part of a content is the content of a value. -/
theorem Value.HasContent.part : ∀ (c : Content) {v : Value}, v.HasContent s c → ∀ p ∈ c.parts, ∃ w : Value, w.HasContent s p
  | .atom a, v, hv => by simpa [Content.parts] using ⟨v, hv⟩
  | .list items, v, hv => List.forall_mem_cons.mpr ⟨⟨v, hv⟩, by
    obtain ⟨a, elements, -, -, hitems⟩ := hv
    exact Store.HaveContents.part items hitems⟩
  | .iterable items, v, hv => List.forall_mem_cons.mpr ⟨⟨v, hv⟩, by
    obtain ⟨a, elements, -, -, hitems⟩ := hv
    exact Store.HaveContents.part items hitems⟩
  | .set members, v, hv => List.forall_mem_cons.mpr ⟨⟨v, hv⟩, by
    obtain ⟨a, elements, -, -, hmembers⟩ := hv
    exact Store.HaveContents.part members hmembers⟩
  | .map entries, v, hv => List.forall_mem_cons.mpr ⟨⟨v, hv⟩, by
    obtain ⟨a, pairs, -, -, hentries⟩ := hv
    exact Store.EntriesHaveContents.part entries hentries⟩

theorem Store.HaveContents.part : ∀ (cs : List Content) {vs : List Value}, s.HaveContents vs cs →
    ∀ p ∈ Content.partsAll cs, ∃ w : Value, w.HasContent s p
  | [], _, _ => nofun
  | c :: cs, _ :: _, hvs => List.forall_mem_append.mpr ⟨Value.HasContent.part c hvs.1, Store.HaveContents.part cs hvs.2⟩

theorem Store.EntriesHaveContents.part : ∀ (cs : List (Content × Content)) {vs : List (Value × Value)},
    s.EntriesHaveContents vs cs → ∀ p ∈ Content.partsEntries cs, ∃ w : Value, w.HasContent s p
  | [], _, _ => nofun
  | (k, c) :: cs, _ :: _, hvs => by
    rw [Content.partsEntries, List.forall_mem_append, List.forall_mem_append]
    exact ⟨⟨Value.HasContent.part k hvs.1, Value.HasContent.part c hvs.2.1⟩, Store.EntriesHaveContents.part cs hvs.2.2⟩

end

theorem Store.HaveContents.exists_value {vs : List Value} {cs : List Content} (h : s.HaveContents vs cs) {c : Content}
    (hc : c ∈ cs) : ∃ v ∈ vs, v.HasContent s c := by
  induction cs generalizing vs with
  | nil => cases hc
  | cons d cs ih =>
    cases vs with
    | nil => cases h
    | cons v vs =>
      rcases List.mem_cons.mp hc with rfl | hc
      · exact ⟨v, List.mem_cons_self, h.1⟩
      · obtain ⟨w, hw, hcontent⟩ := ih h.2 hc
        exact ⟨w, List.mem_cons_of_mem _ hw, hcontent⟩

/-- Values without equal ones have contents that the host tells apart, if truth values and numbers do not meet. -/
theorem Store.HaveContents.pairwise {vs : List Value} {cs : List Content} (h : s.HaveContents vs cs)
    (hvs : Members.Distinct vs) (hcs : ∀ b a, .atom (.bool b) ∈ cs → .atom a ∈ cs → ¬a.CountsAs b) :
    cs.Pairwise Content.ApartKeys := by
  induction cs generalizing vs with
  | nil => exact .nil
  | cons c cs ih =>
    cases vs with
    | nil => cases h
    | cons v vs =>
      obtain ⟨hv, hrest⟩ := List.pairwise_cons.mp hvs
      refine List.pairwise_cons.mpr ⟨fun d hd a b hc hb => ?_, ih h.2 hrest (fun b a hb ha =>
        hcs b a (List.mem_cons_of_mem _ hb) (List.mem_cons_of_mem _ ha))⟩
      subst hc hb
      obtain ⟨w, hw, hcontent⟩ := h.2.exists_value hd
      obtain rfl : w = b.value := hcontent
      have hva : v = a.value := h.1
      rw [hva] at hv
      rcases Atom.apart_or_countsAs (hv _ hw) with hapart | ⟨x, rfl, hcounts⟩ | ⟨x, rfl, hcounts⟩
      · exact hapart
      · exact absurd hcounts (hcs x b List.mem_cons_self (List.mem_cons_of_mem _ hd))
      · exact absurd hcounts (hcs x a (List.mem_cons_of_mem _ hd) List.mem_cons_self)

/-- The host tells the keys of a value apart, if truth values and numbers do not meet among them. -/
theorem Value.HasContent.keysApart {v : Value} {c : Content} (hs : s.DistinctKeys) (hv : v.HasContent s c)
    (hc : ¬c.MixesTruthAndNumber) : ∀ p ∈ c.parts, p.KeysApart := by
  intro p hp
  have hkeys : ∀ b a, .atom (.bool b) ∈ p.keys → .atom a ∈ p.keys → ¬a.CountsAs b :=
    fun b a hb ha hcounts => hc ⟨p, hp, b, a, hb, ha, hcounts⟩
  obtain ⟨w, hw⟩ := Value.HasContent.part c hv p hp
  cases p with
  | set members =>
    obtain ⟨a, elements, rfl, ha, hmembers⟩ := hw
    exact hmembers.pairwise (hs.sets elements (Array.mem_of_getElem? ha)) hkeys
  | map entries =>
    obtain ⟨a, pairs, rfl, ha, hentries⟩ := hw
    exact hentries.keys.pairwise (hs.maps pairs (Array.mem_of_getElem? ha)) hkeys
  | _ => exact .nil

/-- With all levels that a store needs, a value with a content is handed over. -/
theorem Value.HasContent.toHost {v : Value} {c : Content} (hv : v.HasContent s c) :
    Handed c.parts HostValue.HasContent c.listed (v.toHost s) := by
  obtain ⟨r, ⟨least, hleast⟩, hhanded⟩ := Value.HasContent.handed c hv
  rw [← Value.toHostWithin_of_le (Nat.le_max_right least (Value.nestingLimit s)) v, hleast _ (Nat.le_max_left _ _)]
  exact hhanded

/-! ### Going through the host -/

section

theorem Action.bind_of_escaped {α β : Type} {x : Action α} {f : α → Action β} {s t : Store} {failure : HostFailure}
    (h : x s = .escaped failure t) : (x >>= f) s = .escaped failure t := by
  change Action.bind x f s = _
  rw [Action.bind, h]

variable {e : Engine} {depth : Nat} {echo : Address} {name : String} {v : Value}

theorem callValue_native (hdepth : depth < Host.callLimit) (hecho : s.natives[echo]? = some ⟨name, .host .echo⟩) :
    callValue e depth (.native echo) [v] s = delegate (NativeCode.run (e.caller (depth + 1)) [v] (.host .echo)) s := by
  simp only [callValue, hecho, callNative, callHost, NativeCode.arity?, if_neg (Nat.not_le.mpr hdepth)]

/-- The echo of a value is what its data are taken over as. -/
theorem callValue_echo {h : HostValue} {w : Value} {t : Store} (hdepth : depth < Host.callLimit)
    (hecho : s.natives[echo]? = some ⟨name, .host .echo⟩) (hh : v.toHost s = .ok h) (hw : fromHost h s = .done w t) :
    callValue e depth (.native echo) [v] s = .done w t := by
  have hv : Action.toHost v s = .done h s := by simp only [Action.toHost, hh]
  have hdata : toHostAll [v] s = .done [h] s := by
    rw [toHostAll, bind_of_done hv]
    rfl
  have hresult : HostFunction.echo.run (e.caller (depth + 1)) [h] s = .done h s := rfl
  rw [callValue_native hdepth hecho, delegate, NativeCode.run, bind_of_done hdata, bind_of_done hresult, hw]

/-- The echo of a value that cannot be handed over is an error of the language. -/
theorem callValue_echo_error {kind : String} (hdepth : depth < Host.callLimit)
    (hecho : s.natives[echo]? = some ⟨name, .host .echo⟩) (hh : v.toHost s = .error (.unhashable kind)) :
    callValue e depth (.native echo) [v] s = fail (.host (.unhashable kind)) s := by
  have hv : Action.toHost v s = .escaped (.unhashable kind) s := by simp only [Action.toHost, hh]
  have hdata : toHostAll [v] s = .escaped (.unhashable kind) s := by rw [toHostAll, bind_of_escaped hv]
  rw [callValue_native hdepth hecho, delegate, NativeCode.run, bind_of_escaped hdata]

/-- A value that can be handed over comes back with a content for which the way is open again. -/
theorem Value.HasContent.echoed {c : Content} (hdepth : depth < Host.callLimit)
    (hecho : s.natives[echo]? = some ⟨name, .host .echo⟩) (hv : v.HasContent s c)
    (hkeys : ∀ p ∈ c.parts, ∀ k ∈ p.keys, k.hostKind? = Option.none) :
    ∃ w t, ∃ h : HostValue, ∃ d, callValue e depth (.native echo) [v] s = .done w t ∧ s.Preserves t ∧ w.HasContent t d ∧
      h.HasContent d ∧ ((∀ p ∈ c.parts, p.KeysApart) → d = c.listed) := by
  have hhanded := hv.toHost
  cases hh : v.toHost s with
  | error f =>
    rw [hh] at hhanded
    obtain ⟨kind, rfl, p, hp, k, hk, hkind⟩ := hhanded
    rw [hkeys p hp k hk] at hkind
    cases hkind
  | ok h =>
    rw [hh] at hhanded
    obtain ⟨-, d, hd, hlisted⟩ := hhanded
    obtain ⟨w, t, hw, hpreserves, hcontent⟩ := HostValue.HasContent.taken d s hd
    exact ⟨w, t, h, d, callValue_echo hdepth hecho hh hw, hpreserves, hcontent, hd, hlisted⟩

/-- A value with a collection that is a key is refused. -/
theorem Value.HasContent.refused {c : Content} (hdepth : depth < Host.callLimit)
    (hecho : s.natives[echo]? = some ⟨name, .host .echo⟩) (hv : v.HasContent s c) {kind : String}
    (hkey : c.HasCollectionKey kind) :
    ∃ kind error t, callValue e depth (.native echo) [v] s = .raised error t ∧ t.fault error = .host (.unhashable kind) ∧
      c.HasCollectionKey kind := by
  have hhanded := hv.toHost
  cases hh : v.toHost s with
  | ok h =>
    rw [hh] at hhanded
    obtain ⟨p, hp, k, hk, hkind⟩ := hkey
    rw [hhanded.1 p hp k hk] at hkind
    cases hkind
  | error f =>
    rw [hh] at hhanded
    obtain ⟨kind, rfl, hkey⟩ := hhanded
    exact ⟨kind, _, _, callValue_echo_error hdepth hecho hh, s.fault_addError _, hkey⟩

/-- Let a value go through the host and back, in a store whose sets and maps have no equal keys, as those of all
runs. This fails if and only if some set or map inside has a collection among its members or keys, and the failure
names the kind of one. If no set or map inside has a truth value and a number that counts as it, the value that
comes back has the same structure with lists for iterables; and what comes back has the same structure when it goes
through once more, in any case. -/
theorem echo_loses_only_keys_that_count_as_equal {c : Content} (hdepth : depth < Host.callLimit) (hs : s.DistinctKeys)
    (hecho : s.natives[echo]? = some ⟨name, .host .echo⟩) (hv : v.HasContent s c) :
    ((∃ error t, callValue e depth (.native echo) [v] s = .raised error t) ↔ ∃ kind, c.HasCollectionKey kind) ∧
    (∀ error t, callValue e depth (.native echo) [v] s = .raised error t →
      ∃ kind, t.fault error = .host (.unhashable kind) ∧ c.HasCollectionKey kind) ∧
    ((∀ kind, ¬c.HasCollectionKey kind) →
      ∃ w t d, callValue e depth (.native echo) [v] s = .done w t ∧ w.HasContent t d ∧
        (¬c.MixesTruthAndNumber → d.Same c.listed) ∧
        ∃ w' t' d', callValue e depth (.native echo) [w] t = .done w' t' ∧ w'.HasContent t' d' ∧ d'.Same d) := by
  have hkeys (hnone : ∀ kind, ¬c.HasCollectionKey kind) : ∀ p ∈ c.parts, ∀ k ∈ p.keys, k.hostKind? = Option.none := by
    intro p hp k hk
    cases hkind : k.hostKind? with
    | none => rfl
    | some kind => exact absurd ⟨p, hp, k, hk, hkind⟩ (hnone kind)
  have hfailing {error : Address} {t : Store} (hcall : callValue e depth (.native echo) [v] s = .raised error t) :
      ∃ kind, c.HasCollectionKey kind := by
    by_contra hnone
    obtain ⟨w, t', -, -, hdone, -⟩ := hv.echoed (e := e) hdepth hecho (hkeys (not_exists.mp hnone))
    rw [hcall] at hdone
    cases hdone
  refine ⟨⟨fun ⟨error, t, hcall⟩ => hfailing hcall, fun ⟨kind, hkey⟩ => ?_⟩, fun error t hcall => ?_, fun hnone => ?_⟩
  · obtain ⟨-, error, t, hcall, -⟩ := hv.refused (e := e) hdepth hecho hkey
    exact ⟨error, t, hcall⟩
  · obtain ⟨kind, hkey⟩ := hfailing hcall
    obtain ⟨kind, error', t', hcall', hfault, hkey⟩ := hv.refused (e := e) hdepth hecho hkey
    obtain ⟨rfl, rfl⟩ := Outcome.raised.inj (hcall.symm.trans hcall')
    exact ⟨kind, hfault, hkey⟩
  · obtain ⟨w, t, h, d, hcall, hpreserves, hw, hd, hlisted⟩ := hv.echoed (e := e) hdepth hecho (hkeys hnone)
    obtain ⟨hsettled, hsame⟩ := HostValue.HasContent.settled d hd
    have hecho' : t.natives[echo]? = some ⟨name, .host .echo⟩ := by rw [hpreserves.natives, hecho]
    obtain ⟨w', t', -, d', hcall', -, hw', -, hlisted'⟩ :=
      hw.echoed (e := e) hdepth hecho' (fun p hp => (hsettled p hp).2)
    refine ⟨w, t, d, hcall, hw, fun hmixes => ?_, w', t', d', hcall', hw', ?_⟩
    · rw [hlisted (hv.keysApart hs hmixes)]
      exact .refl _
    · rw [hlisted' (fun p hp => (hsettled p hp).1), hsame]
      exact .refl d

end

end

/-- A list of a set and an iterable. Neither is a key, and the truth value in the set does not count as its number. -/
theorem echo_loses_only_keys_that_count_as_equal_nested :
    let s : Store := {
      lists := #[#[.set 0, .iterable 0]]
      iterables := #[[.int 1]]
      sets := #[[.bool true, .int 2]]
      natives := #[⟨"echo", .host .echo⟩] }
    let members := Content.set [.atom (.bool true), .atom (.int 2)]
    ∃ w t d, callValue (interpreter 0) 0 (.native 0) [.list 0] s = .done w t ∧ w.HasContent t d ∧
      d.Same (.list [members, .list [.atom (.int 1)]]) := by
  intro s members
  let c := Content.list [members, .iterable [.atom (.int 1)]]
  have hs : s.DistinctKeys := by
    refine ⟨fun members hmembers => ?_, nofun⟩
    obtain rfl : members = [.bool true, .int 2] := by simpa [s] using hmembers
    exact List.pairwise_pair.mpr rfl
  have hv : (Value.list 0).HasContent s c :=
    ⟨0, #[.set 0, .iterable 0], rfl, rfl, ⟨0, [.bool true, .int 2], rfl, rfl, rfl, rfl, trivial⟩,
      ⟨0, [.int 1], rfl, rfl, rfl, trivial⟩, trivial⟩
  have hecho : s.natives[0]? = some ⟨"echo", .host .echo⟩ := rfl
  have hparts : ∀ p ∈ c.parts, p.keys = [] ∨ p = members := by
    simp [c, members, Content.parts, Content.partsAll, Content.keys]
  have hkeys : ∀ kind, ¬c.HasCollectionKey kind := by
    rintro kind ⟨p, hp, k, hk, hkind⟩
    rcases hparts p hp with hnone | rfl
    · simp [hnone] at hk
    · rcases List.mem_pair.mp hk with rfl | rfl <;> cases hkind
  have hmixes : ¬c.MixesTruthAndNumber := by
    rintro ⟨p, hp, b, a, hb, ha, hnumber, hcounts⟩
    rcases hparts p hp with hnone | rfl
    · simp [hnone] at hb
    · obtain rfl : b = true := by simpa [members, Content.keys] using hb
      obtain rfl | rfl : a = .bool true ∨ a = .int 2 := by simpa [members, Content.keys] using ha
      · cases hnumber
      · exact absurd hcounts (by decide)
  obtain ⟨w, t, d, hcall, hw, hsame, -⟩ :=
    (echo_loses_only_keys_that_count_as_equal (e := interpreter 0) (by decide : 0 < Host.callLimit) hs hecho hv).2.2 hkeys
  exact ⟨w, t, d, hcall, hw, hsame hmixes⟩

end Dartlet
