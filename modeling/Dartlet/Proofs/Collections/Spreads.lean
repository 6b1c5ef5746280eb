import Dartlet.Host.Standard
import Dartlet.Proofs.Collections.Literals
import Dartlet.Proofs.Evaluation.Listed

/-!
# Spreads of list literals

A literal that spreads a list literal ends as the one that has the elements of this literal in its place. The list that
is spread is one more in the store, so that later lists get other addresses; apart from this, and from the place of an
error that the elements themselves have, the two cannot be told apart.
-/

namespace Dartlet

open Dartlet.Action
open Dartlet.Syntax (CatchClause Element Expr Location)

set_option linter.unusedSectionVars false

section

variable [Host]

/-! ### Endings of actions that run alike -/

section Alike

variable {α β : Type} {w : Comparison} {inside : Bool} {Q : Store → Store → α → β → Prop} {s t : Store}
  {F : Engine → Action α} {G : Engine → Action β}

theorem Comparison.Matches.ended_iff {P : Store → Store → Address → Prop} {o : Outcome α} {o' : Outcome β}
    (hw : w.lenient = false) (h : w.Matches inside P Q s t o o') : o.Ended ↔ o'.Ended := by
  cases h with
  | done => exact ⟨fun _ => nofun, fun _ => nofun⟩
  | raised => exact ⟨fun _ => nofun, fun _ => nofun⟩
  | escaped => exact ⟨fun _ => nofun, fun _ => nofun⟩
  | exhausted => exact ⟨fun h => absurd rfl (h _), fun h => absurd rfl (h _)⟩
  | gaveUp hw' => exact absurd hw' (by simp [hw])

/-- Actions that run alike with any levels end alike. -/
theorem EndsWith.of_alike (hw : w.lenient = false) (hst : w.Parallel s t)
    (h : ∀ level, w.Alike inside Q s t (F (interpreter level)) (G (interpreter level))) :
    (∀ o, EndsWith F s o → ∃ o', EndsWith G t o' ∧ w.Matches inside (w.Pending s) Q s t o o') ∧
      ∀ o', EndsWith G t o' → ∃ o, EndsWith F s o ∧ w.Matches inside (w.Pending s) Q s t o o' := by
  refine ⟨?_, ?_⟩
  · rintro o ⟨hended, level, rfl⟩
    have hmatches := h level hst
    exact ⟨_, ⟨(hmatches.ended_iff hw).mp hended, level, rfl⟩, hmatches⟩
  · rintro o' ⟨hended, level, rfl⟩
    have hmatches := h level hst
    exact ⟨_, ⟨(hmatches.ended_iff hw).mpr hended, level, rfl⟩, hmatches⟩

end Alike

/-! ### Laying elements out in parts -/

/-- The store in which the error of a failure has got a place, unless it had one before. -/
def Failure.placed (l : Location) (t : Store) : Failure → Store
  | .raised a => t.locate a l
  | .escaped _ => t

theorem Failure.locate_outcome {α : Type} (f : Failure) (t : Store) (l : Location) :
    (f.outcome t : Outcome α).locate l = f.outcome (f.placed l t) := by
  cases f <;> rfl

/-- Elements that are laid out after a row, and what is made of the whole row. -/
def layOut (e : Engine) (c : Context) (make : List Staged → Action Value) (row : List Staged) (xs : List Element) :
    Action Value := do
  let more ← stageAll e c xs
  make (row ++ more)

section Parts

variable {c : Context} {make : List Staged → Action Value} {row : List Staged} {l : Location} {s t : Store}
  {o : Outcome Value}

theorem stageAll_append (e : Engine) (c : Context) (xs ys : List Element) : stageAll e c (xs ++ ys) =
    stageAll e c xs >>= fun first => stageAll e c ys >>= fun more => pure (first ++ more) := by
  induction xs with
  | nil => simp [stageAll]
  | cons x rest ih =>
    rw [List.cons_append, stageAll, ih, stageAll]
    simp only [bind_assoc, pure_bind, List.append_assoc]

theorem layOut_append (e : Engine) (xs ys : List Element) :
    layOut e c make row (xs ++ ys) = stageAll e c xs >>= fun first => layOut e c make (row ++ first) ys := by
  unfold layOut
  rw [stageAll_append]
  simp only [bind_assoc, pure_bind, List.append_assoc]

theorem layOut_cons (e : Engine) (x : Element) (ys : List Element) :
    layOut e c make row (x :: ys) = stage e c x >>= fun first => layOut e c make (row ++ first) ys := by
  unfold layOut
  rw [stageAll]
  simp only [bind_assoc, pure_bind, List.append_assoc]

theorem Persistent.layOut (make : List Staged → Action Value) (row : List Staged) (xs : List Element) :
    Persistent (fun e => layOut e c make row xs) :=
  (Persistent.stageAll c xs).bind fun _ => .const _

/-- A part, and then the rest: it is the rest that ends it all, or the part fails. -/
theorem endsWith_part_iff {F : Engine → Action (List Staged)} (hF : Persistent F) {depth : Nat} {xs : List Element} :
    EndsWith (fun e => within (e.caller depth) l (F e >>= fun first => layOut e c make (row ++ first) xs)) s o ↔
      (∃ first t, EndsWith F s (.done first t) ∧
        EndsWith (fun e => within (e.caller depth) l (layOut e c make (row ++ first) xs)) t o) ∨
        ∃ f t, EndsWith F s (Failure.outcome t f) ∧ (f.outcome t).Leaves depth l o := by
  have hrest (first : List Staged) : Persistent (fun e => layOut e c make (row ++ first) xs) := .layOut make (row ++ first) xs
  rw [EndsWith.within_iff (hF.bind hrest)]
  simp only [EndsWith.bind_iff hF hrest]
  constructor
  · rintro ⟨o', ⟨first, t, hfirst, hthen⟩ | ⟨f, t, hfails, rfl⟩, hleaves⟩
    · exact .inl ⟨first, t, hfirst, (EndsWith.within_iff (hrest first)).mpr ⟨o', hthen, hleaves⟩⟩
    · exact .inr ⟨f, t, hfails, hleaves⟩
  · rintro (⟨first, t, hfirst, hthen⟩ | ⟨f, t, hfails, hleaves⟩)
    · obtain ⟨o', hthen, hleaves⟩ := (EndsWith.within_iff (hrest first)).mp hthen
      exact ⟨o', .inl ⟨first, t, hfirst, hthen⟩, hleaves⟩
    · exact ⟨_, .inr ⟨f, t, hfails, rfl⟩, hleaves⟩

end Parts

/-! ### The spread of a list literal -/

/-- The store in which one more list has been made. -/
def Store.withList (t : Store) (items : List Value) : Store := { t with lists := t.lists.push items.toArray }

section Spread

variable {c : Context} {xs : List Element} {l l' : Location} {typeArguments : List String} {nullAware : Bool} {s : Store}

/-- A list literal whose elements stage no entry makes a list, or else one of its elements fails. -/
theorem evaluates_list_of_items (hitems : ∀ row t, StagesAll c xs s row t → ∃ items, row = itemRow items)
    (hunhooked : RaisesUnhooked (fun e => stageAll e c xs) s) {o : Outcome Value} : Evaluates c (.listLiteral l xs typeArguments) s o ↔
      (∃ items t, StagesAll c xs s (itemRow items) t ∧ o = .done (.list t.lists.size) (t.withList items)) ∨
        ∃ f t, EndsWith (fun e => stageAll e c xs) s (Failure.outcome t f) ∧ o = (f.outcome t).locate l := by
  have hform {o' : Outcome Value} : EndsWith (fun e => evalList e c xs) s o' ↔
      (∃ items t, StagesAll c xs s (itemRow items) t ∧ o' = .done (.list t.lists.size) (t.withList items)) ∨
        ∃ f t, EndsWith (fun e => stageAll e c xs) s (Failure.outcome t f) ∧ o' = f.outcome t := by
    refine (EndsWith.bind_iff (G := fun _ row => listOf row) (.stageAll c xs) fun _ => .const _).trans ?_
    refine or_congr_left ?_
    simp only [stageAll_iff, EndsWith.const_iff]
    constructor
    · rintro ⟨row, t, hrow, hlist, -⟩
      obtain ⟨items, rfl⟩ := hitems row t hrow
      exact ⟨items, t, hrow, hlist.symm.trans (MakesList.list items).apply⟩
    · rintro ⟨items, t, hrow, rfl⟩
      exact ⟨_, t, hrow, (MakesList.list items).apply, nofun⟩
  rw [Evaluates, EndsWith.eval_iff]
  refine (EndsWith.within_iff (.evalForm c _)).trans ?_
  simp only [evalForm, hform]
  have hplaced {f : Failure} {t : Store} (hfails : EndsWith (fun e => stageAll e c xs) s (f.outcome t)) :
      (f.outcome t : Outcome Value).Leaves c.depth l o ↔ o = (f.outcome t).locate l :=
    Outcome.leaves_iff_of_unhooked (f.ended_outcome t) (Failure.unhooked_outcome (hunhooked _ hfails))
  constructor
  · rintro ⟨o', ⟨items, t, hrow, rfl⟩ | ⟨f, t, hfails, rfl⟩, hleaves⟩
    · exact .inl ⟨items, t, hrow, Outcome.leaves_of_done_iff.mp hleaves⟩
    · exact .inr ⟨f, t, hfails, (hplaced hfails).mp hleaves⟩
  · rintro (⟨items, t, hrow, rfl⟩ | ⟨f, t, hfails, ho⟩)
    · exact ⟨_, .inl ⟨items, t, hrow, rfl⟩, .done _ _⟩
    · exact ⟨_, .inr ⟨f, t, hfails, rfl⟩, (hplaced hfails).mpr ho⟩

theorem spreadOut_withList (t : Store) (items : List Value) (nullAware : Bool) :
    spreadOut (.list t.lists.size) nullAware (t.withList items) = .done (itemRow items) (t.withList items) := by
  have helements : (t.withList items).HasElements (.list t.lists.size) items := by
    have hlist := Store.HasElements.list (s := t.withList items) t.lists.size
    rwa [show ((t.withList items).list t.lists.size).toList = items by simp [Store.withList, Store.list]] at hlist
  exact spreadOut_iff.mpr (.inr (.inr ⟨items, helements.elementsOf?, rfl⟩))

/-- Such a literal that is spread fills the places that its elements would fill. -/
theorem endsWith_spread_iff (hitems : ∀ row t, StagesAll c xs s row t → ∃ items, row = itemRow items)
    (hunhooked : RaisesUnhooked (fun e => stageAll e c xs) s) {o : Outcome (List Staged)} :
    EndsWith (fun e => stage e c (.spread l (.listLiteral l' xs typeArguments) nullAware)) s o ↔
      (∃ items t, StagesAll c xs s (itemRow items) t ∧ o = .done (itemRow items) (t.withList items)) ∨
        ∃ f t, EndsWith (fun e => stageAll e c xs) s (Failure.outcome t f) ∧ o = (f.outcome t).locate l' := by
  refine (EndsWith.bind_iff (G := fun _ v => spreadOut v nullAware) (.eval c _) fun _ => .const _).trans ?_
  have hsource {o : Outcome Value} : Evaluates c (.listLiteral l' xs typeArguments) s o ↔ _ :=
    evaluates_list_of_items hitems hunhooked
  constructor
  · rintro (⟨v, u, hvalue, hout⟩ | ⟨f, u, hfails, rfl⟩)
    · rcases hsource.mp hvalue with ⟨items, t, hrow, hdone⟩ | ⟨f, t, -, hlocated⟩
      · obtain ⟨rfl, rfl⟩ := Outcome.done.inj hdone
        rw [EndsWith.const_iff, spreadOut_withList] at hout
        exact .inl ⟨items, t, hrow, hout.1.symm⟩
      · rw [f.locate_outcome] at hlocated
        exact absurd hlocated.symm f.outcome_ne_done
    · rcases hsource.mp hfails with ⟨items, t, -, hdone⟩ | ⟨f', t, hstaging, hlocated⟩
      · exact absurd hdone f.outcome_ne_done
      · rw [f'.locate_outcome] at hlocated
        obtain ⟨rfl, rfl⟩ := Failure.outcome_inj hlocated
        exact .inr ⟨f, t, hstaging, (f.locate_outcome t l').symm⟩
  · rintro (⟨items, t, hrow, rfl⟩ | ⟨f, t, hfails, rfl⟩)
    · refine .inl ⟨_, _, hsource.mpr (.inl ⟨items, t, hrow, rfl⟩), ?_⟩
      rw [EndsWith.const_iff, spreadOut_withList]
      exact ⟨rfl, nofun⟩
    · refine .inr ⟨f, f.placed l' t, hsource.mpr (.inr ⟨f, t, hfails, ?_⟩), f.locate_outcome t l'⟩
      exact (f.locate_outcome t l').symm

end Spread

/-! ### One more list -/

/-- A store that is another one but for one more list, so that later lists have other addresses. -/
structure Store.OneMoreList (start : Nat) (t t' : Store) : Prop where
  size : t'.lists.size = t.lists.size + 1
  lists : ∀ a : Nat, t'.list ((Shifts.lists start 1).list.apply a) = (t.list a).map (Value.shift (.lists start 1))
  rest : t' = { t.shift (.lists start 1) with lists := t'.lists }
  text : ∀ v : Value, (v.shift (.lists start 1)).text t' = v.text t

/-- Two outcomes that differ at most in the place of an error, or else in that there is one more list in the second one,
which is none of the first `old` lists. -/
inductive Outcome.LikeWithList (old : Nat) : Outcome Value → Outcome Value → Prop where
  | unplaced {f t o} (same : (Failure.outcome t f).SameUpTo ErrorRecord.placeless o) : LikeWithList old (f.outcome t) o
  | done {start v t t'} (new : old ≤ start) (store : t.OneMoreList start t') :
      LikeWithList old (.done v t) (.done (v.shift (.lists start 1)) t')
  | fails {start f t t'} (new : old ≤ start) (store : t.OneMoreList start t') :
      LikeWithList old (Failure.outcome t f) (f.outcome t')

/-- Two actions, each from a store of its own, of which each ends whenever the other one does, with such outcomes. -/
structure EndAlikeWithList (old : Nat) (F : Engine → Action Value) (s : Store) (G : Engine → Action Value) (t : Store) :
    Prop where
  forth : ∀ o, EndsWith F s o → ∃ o', EndsWith G t o' ∧ o.LikeWithList old o'
  back : ∀ o', EndsWith G t o' → ∃ o, EndsWith F s o ∧ o.LikeWithList old o'

theorem Failure.unhooked_placed {α : Type} {f : Failure} {t : Store} (h : (f.outcome t : Outcome α).Unhooked) (l : Location) :
    (f.outcome (f.placed l t) : Outcome α).Unhooked := by
  rw [← f.locate_outcome]
  exact h.locate

/-- An error that has got a place before it got that of the literal. -/
theorem Failure.likeWithList (old : Nat) {f : Failure} {t : Store} (h : (f.outcome t : Outcome Value).Unhooked)
    (l l' : Location) :
    ((f.outcome t : Outcome Value).locate l).LikeWithList old ((f.outcome (f.placed l' t)).locate l) := by
  have hlocate {o : Outcome Value} (ho : o.Unhooked) (l : Location) : o.SameUpTo ErrorRecord.placeless (o.locate l) :=
    .locate ErrorRecord.placeless_placedAt ho l
  have hsame : ((f.outcome t : Outcome Value).locate l).SameUpTo ErrorRecord.placeless
      ((f.outcome (f.placed l' t)).locate l) := by
    rw [← f.locate_outcome]
    exact (hlocate h l).symm.trans ((hlocate h l').trans (hlocate h.locate l))
  rw [f.locate_outcome t l] at hsame ⊢
  exact .unplaced hsame

/-- A failure leaves two literals at the same place in the same way. -/
theorem Failure.leaves_likeWithList {old depth : Nat} {f : Failure} {t : Store} {l : Location} {o : Outcome Value}
    (h : (f.outcome t).Leaves depth l o) : o.LikeWithList old o := by
  obtain ⟨f', t', rfl⟩ := h.fails
  exact .unplaced (.same _)

namespace Comparison

variable {start : Nat} {s t t' : Store}

theorem Parallel.oneMoreList (h : (listing start 1).Parallel t t') : t.OneMoreList start t' where
  size := h.lists.size
  lists a := (h.list a).toArray
  rest := Tables.eq_shift_lists rfl (fun _ => rfl) rfl rfl h
  text := h.text

theorem Matches.likeWithList {inside : Bool} {P : Store → Store → Address → Prop} {o o' : Outcome Value} {old : Nat}
    (h : (listing start 1).Matches inside P (listing start 1).Val s t o o') (hended : o.Ended) (hnew : old ≤ start) :
    o.LikeWithList old o' := by
  cases h with
  | done hv hf =>
    obtain ⟨rfl, -⟩ := hv
    exact .done hnew hf.parallel.oneMoreList
  | @raised a s' t' _ hf =>
    rw [show (listing start 1).shifts.error.apply a = a from Shift.apply_stay a]
    exact .fails (f := .raised a) hnew hf.parallel.oneMoreList
  | escaped _ hf => exact .fails (f := .escaped _) hnew hf.parallel.oneMoreList
  | exhausted => exact absurd rfl (hended _)
  | gaveUp hw => cases hw

theorem move_listing (start gap : Nat) (c : Context) : (listing start gap).move c = c :=
  congrArg (Context.mk · c.depth) (Shift.apply_stay c.scope)

end Comparison

section Literals

variable {c : Context} {s t : Store} {row : List Staged} {xs : List Element}

/-- What elements stage holds only lists that exist. -/
theorem StagesAll.listed (h : StagesAll c xs s row t) (hs : s.Listed) :
    t.Listed ∧ s.lists.size ≤ t.lists.size ∧ ∀ x ∈ row, x.Known (Value.Listed t.lists.size) := by
  obtain ⟨-, level, hlevel⟩ := stageAll_iff.mpr h
  have hlevel : stageAll (interpreter level) c xs s = .done row t := hlevel
  have hmatches := Comparison.alike_stageAll (c := c) (Comparison.agrees_listing level) (fun _ (_ : _ ∈ xs) => trivial)
    trivial (Comparison.parallel_listed hs)
  rw [Comparison.move_listing, hlevel] at hmatches
  cases hmatches with
  | done hrow hf =>
    exact ⟨hf.parallel.listed, hf.first.lists, fun x hx => Comparison.known_listing t ▸ hrow.known x hx⟩

/-- What makes the same of corresponding rows. -/
def MakesAlike (make : List Staged → Action Value) : Prop :=
  ∀ {start gap : Nat} {s t : Store} {xs ys : List Staged}, (Comparison.listing start gap).Rows s t xs ys →
    (Comparison.listing start gap).Alike false (Comparison.listing start gap).Val s t (make xs) (make ys)

theorem makesAlike_listOf : MakesAlike listOf := Comparison.alike_listOf

theorem makesAlike_setOrMapOf (typeArguments : List String) : MakesAlike (setOrMapOf typeArguments) :=
  fun hrows => Comparison.alike_setOrMapOf hrows typeArguments

theorem Staged.shift_of_known {σ : Shifts} {K : Value → Prop} (hσ : σ.Keeps K) {x : Staged} (h : x.Known K) :
    x.shift σ = x := by
  cases x with
  | item v => exact congrArg Staged.item (hσ v h)
  | entry k v => exact congrArg₂ Staged.entry (hσ k h.1) (hσ v h.2)

theorem Staged.Known.mono {K L : Value → Prop} {x : Staged} (h : x.Known K) (hKL : ∀ v, K v → L v) : x.Known L := by
  cases x with
  | item v => exact Value.Known.mono hKL h
  | entry k v => exact ⟨Value.Known.mono hKL h.1, Value.Known.mono hKL h.2⟩

variable {make : List Staged → Action Value} {l l' l'' : Location} {typeArguments : List String} {nullAware : Bool}
  {pre post : List Element}

/-- With one more list in the store, the rest of a literal ends as without it. -/
theorem layOut_withList (hmake : MakesAlike make) (ht : t.Listed) (hrow : ∀ x ∈ row, x.Known (Value.Listed t.lists.size))
    {old : Nat} (hold : old ≤ t.lists.size) (items : List Value) :
    EndAlikeWithList old (fun e => within (e.caller c.depth) l (layOut e c make row post)) t
      (fun e => within (e.caller c.depth) l (layOut e c make row post)) (t.withList items) := by
  have hparallel : (Comparison.listing t.lists.size 1).Parallel t (t.withList items) := by
    rw [Store.withList, Array.push_eq_append]
    exact Comparison.parallel_listing ht #[items.toArray]
  have hrows : (Comparison.listing t.lists.size 1).Rows t (t.withList items) row row := by
    refine ⟨?_, fun x hx => Comparison.known_listing t ▸ hrow x hx⟩
    exact eq_map_of_forall fun x hx => Staged.shift_of_known (Comparison.keeps_lists _ 1) (hrow x hx)
  have halike (level : Nat) : (Comparison.listing t.lists.size 1).Alike false (Comparison.listing t.lists.size 1).Val t
      (t.withList items) (within ((interpreter level).caller c.depth) l (layOut (interpreter level) c make row post))
      (within ((interpreter level).caller c.depth) l (layOut (interpreter level) c make row post)) := by
    have hagrees : (Comparison.listing t.lists.size 1).Agrees _ (interpreter level) (interpreter level) :=
      Comparison.agrees_listing level
    have hstages := Comparison.alike_stageAll (s := t) (t := t.withList items) (c := c) hagrees
      (fun _ (_ : _ ∈ post) => trivial) trivial
    rw [Comparison.move_listing] at hstages
    have hrest : (Comparison.listing t.lists.size 1).Alike false (Comparison.listing t.lists.size 1).Val t
        (t.withList items) (layOut (interpreter level) c make row post) (layOut (interpreter level) c make row post) :=
      hstages.bind fun _ _ _ _ hf hmore => hmake ((hrows.later hf.first).append hmore)
    exact (hrest.within (hagrees.caller c.depth) rfl l).alike
  obtain ⟨hforth, hback⟩ := EndsWith.of_alike
    (F := fun e => within (e.caller c.depth) l (layOut e c make row post))
    (G := fun e => within (e.caller c.depth) l (layOut e c make row post)) rfl hparallel halike
  refine ⟨fun o ho => ?_, fun o' ho' => ?_⟩
  · obtain ⟨o', ho', hmatches⟩ := hforth o ho
    exact ⟨o', ho', hmatches.likeWithList ho.1 hold⟩
  · obtain ⟨o, ho, hmatches⟩ := hback o' ho'
    exact ⟨o, ho, hmatches.likeWithList ho.1 hold⟩

/-- A list literal that is spread after a row, and its elements there. -/
theorem layOut_spread (hmake : MakesAlike make) (hs : s.Listed) (hrow : ∀ x ∈ row, x.Known (Value.Listed s.lists.size))
    {old : Nat} (hold : old ≤ s.lists.size) (hitems : ∀ row t, StagesAll c xs s row t → ∃ items, row = itemRow items)
    (hunhooked : RaisesUnhooked (fun e => stageAll e c xs) s) :
    EndAlikeWithList old (fun e => within (e.caller c.depth) l (layOut e c make row (xs ++ post))) s
      (fun e => within (e.caller c.depth) l (layOut e c make row (.spread l' (.listLiteral l'' xs typeArguments) nullAware :: post))) s := by
  have hlater {items : List Value} {t : Store} (h : StagesAll c xs s (itemRow items) t) :
      EndAlikeWithList old (fun e => within (e.caller c.depth) l (layOut e c make (row ++ itemRow items) post)) t
        (fun e => within (e.caller c.depth) l (layOut e c make (row ++ itemRow items) post)) (t.withList items) := by
    obtain ⟨ht, hsize, hknown⟩ := h.listed hs
    refine layOut_withList hmake ht (fun x hx => ?_) (Nat.le_trans hold hsize) items
    rcases List.mem_append.mp hx with hx | hx
    · exact (hrow x hx).mono fun v hv => hv.mono hsize
    · exact hknown x hx
  have hspread {o : Outcome (List Staged)} : EndsWith (fun e => stage e c (.spread l' (.listLiteral l'' xs typeArguments)
      nullAware)) s o ↔ _ := endsWith_spread_iff hitems hunhooked
  have hplaced {f : Failure} {t : Store} {o : Outcome Value} (h : (f.outcome t : Outcome Value).Unhooked) :
      (f.outcome t).Leaves c.depth l o ↔ o = (f.outcome t).locate l := Outcome.leaves_iff_of_unhooked (f.ended_outcome t) h
  simp only [layOut_append, layOut_cons]
  refine ⟨fun o ho => ?_, fun o' ho' => ?_⟩
  · rcases (endsWith_part_iff (.stageAll c xs)).mp ho with ⟨first, t, hfirst, hrest⟩ | ⟨f, t, hfails, hleaves⟩
    · obtain ⟨items, rfl⟩ := hitems first t (stageAll_iff.mp hfirst)
      obtain ⟨o', ho', hlike⟩ := (hlater (stageAll_iff.mp hfirst)).forth o hrest
      have hdone := hspread.mpr (.inl ⟨items, t, stageAll_iff.mp hfirst, rfl⟩)
      exact ⟨o', (endsWith_part_iff (.stage c _)).mpr (.inl ⟨_, _, hdone, ho'⟩), hlike⟩
    · have hfails' := hspread.mpr (.inr ⟨f, t, hfails, (f.locate_outcome t l'').symm⟩)
      have hf : (f.outcome t : Outcome Value).Unhooked := Failure.unhooked_outcome (hunhooked _ hfails)
      obtain rfl := (hplaced hf).mp hleaves
      exact ⟨_, (endsWith_part_iff (.stage c _)).mpr (.inr ⟨f, _, hfails', (hplaced (Failure.unhooked_placed hf l'')).mpr rfl⟩),
        Failure.likeWithList old hf l l''⟩
  · rcases (endsWith_part_iff (.stage c _)).mp ho' with ⟨first, t, hfirst, hrest⟩ | ⟨f, t, hfails, hleaves⟩
    · rcases hspread.mp hfirst with ⟨items, u, hstages, hdone⟩ | ⟨f, u, -, hlocated⟩
      · obtain ⟨rfl, rfl⟩ := Outcome.done.inj hdone
        obtain ⟨o, ho, hlike⟩ := (hlater hstages).back o' hrest
        exact ⟨o, (endsWith_part_iff (.stageAll c xs)).mpr (.inl ⟨_, u, stageAll_iff.mpr hstages, ho⟩), hlike⟩
      · rw [f.locate_outcome] at hlocated
        exact absurd hlocated.symm f.outcome_ne_done
    · rcases hspread.mp hfails with ⟨items, u, -, hdone⟩ | ⟨f', u, hstaging, hlocated⟩
      · exact absurd hdone f.outcome_ne_done
      · rw [f'.locate_outcome] at hlocated
        obtain ⟨rfl, rfl⟩ := Failure.outcome_inj hlocated
        have hf : (f.outcome u : Outcome Value).Unhooked := Failure.unhooked_outcome (hunhooked _ hstaging)
        obtain rfl := (hplaced (Failure.unhooked_placed hf l'')).mp hleaves
        exact ⟨_, (endsWith_part_iff (.stageAll c xs)).mpr (.inr ⟨f, u, hstaging, (hplaced hf).mpr rfl⟩),
          Failure.likeWithList old hf l l''⟩

/-- A list literal that is spread in a literal, and its elements there. -/
theorem layOut_spread_after (hmake : MakesAlike make) (hs : s.Listed)
    (hnone : ∀ first t row u, StagesAll c pre s first t → StagesAll c xs t row u → ∀ k v, .entry k v ∉ row)
    (hunhooked : ∀ first t, StagesAll c pre s first t → RaisesUnhooked (fun e => stageAll e c xs) t) :
    EndAlikeWithList s.lists.size (fun e => within (e.caller c.depth) l (layOut e c make [] (pre ++ (xs ++ post)))) s
      (fun e => within (e.caller c.depth) l (layOut e c make []
        (pre ++ .spread l' (.listLiteral l'' xs typeArguments) nullAware :: post))) s := by
  have hlater {first : List Staged} {t : Store} (h : StagesAll c pre s first t) :
      EndAlikeWithList s.lists.size (fun e => within (e.caller c.depth) l (layOut e c make ([] ++ first) (xs ++ post))) t
        (fun e => within (e.caller c.depth) l (layOut e c make ([] ++ first)
          (.spread l' (.listLiteral l'' xs typeArguments) nullAware :: post))) t := by
    obtain ⟨ht, hsize, hknown⟩ := h.listed hs
    refine layOut_spread hmake ht hknown hsize (fun row u hrow => ?_) (hunhooked first t h)
    refine (row_cases_item row).resolve_right ?_
    rintro ⟨k, v, hmem⟩
    exact hnone first t row u h hrow k v hmem
  simp only [layOut_append _ pre]
  refine ⟨fun o ho => ?_, fun o' ho' => ?_⟩
  · rcases (endsWith_part_iff (.stageAll c pre)).mp ho with ⟨first, t, hfirst, hrest⟩ | ⟨f, t, hfails, hleaves⟩
    · obtain ⟨o', ho', hlike⟩ := (hlater (stageAll_iff.mp hfirst)).forth o hrest
      exact ⟨o', (endsWith_part_iff (.stageAll c pre)).mpr (.inl ⟨_, _, hfirst, ho'⟩), hlike⟩
    · exact ⟨o, (endsWith_part_iff (.stageAll c pre)).mpr (.inr ⟨f, t, hfails, hleaves⟩),
        Failure.leaves_likeWithList hleaves⟩
  · rcases (endsWith_part_iff (.stageAll c pre)).mp ho' with ⟨first, t, hfirst, hrest⟩ | ⟨f, t, hfails, hleaves⟩
    · obtain ⟨o, ho, hlike⟩ := (hlater (stageAll_iff.mp hfirst)).back o' hrest
      exact ⟨o, (endsWith_part_iff (.stageAll c pre)).mpr (.inl ⟨_, _, hfirst, ho⟩), hlike⟩
    · exact ⟨o', (endsWith_part_iff (.stageAll c pre)).mpr (.inr ⟨f, t, hfails, hleaves⟩),
        Failure.leaves_likeWithList hleaves⟩

/-- A list literal makes of its row a new list of it, unless there is an entry. -/
theorem evaluates_list (hrow : StagesAll c xs s row t) (l : Location) (typeArguments : List String) :
    ∃ o', MakesList t row o' ∧ ∀ o, Evaluates c (.listLiteral l xs typeArguments) s o ↔ o = o'.locate l := by
  obtain ⟨o', hmakes⟩ := exists_makesList t row
  exact ⟨o', hmakes, fun o => evaluates_list_iff hrow hmakes⟩

theorem evaluates_setOrMap (hrow : StagesAll c xs s row t) (l : Location) (typeArguments : List String) :
    ∃ o', MakesSetOrMap typeArguments t row o' ∧
      ∀ o, Evaluates c (.setOrMapLiteral l xs typeArguments) s o ↔ o = o'.locate l := by
  exact ⟨_, makesSetOrMap typeArguments t row, fun o => evaluates_setOrMap_iff hrow⟩

/-- The two literals end as the interpreter lays them out. -/
theorem evaluates_list_iff_layOut {o : Outcome Value} : Evaluates c (.listLiteral l xs typeArguments) s o ↔
    EndsWith (fun e => within (e.caller c.depth) l (layOut e c listOf [] xs)) s o := EndsWith.eval_iff

theorem evaluates_setOrMap_iff_layOut {o : Outcome Value} : Evaluates c (.setOrMapLiteral l xs typeArguments) s o ↔
    EndsWith (fun e => within (e.caller c.depth) l (layOut e c (setOrMapOf typeArguments) [] xs)) s o := EndsWith.eval_iff

theorem EndAlikeWithList.of_iff {old : Nat} {F G F' G' : Engine → Action Value}
    (h : EndAlikeWithList old F s G t) (hF : ∀ o, EndsWith F' s o ↔ EndsWith F s o)
    (hG : ∀ o, EndsWith G' t o ↔ EndsWith G t o) : EndAlikeWithList old F' s G' t where
  forth o ho := by simpa only [hG] using h.forth o ((hF o).mp ho)
  back o ho := by simpa only [hF] using h.back o ((hG o).mp ho)

end Literals

/-- The elements of a collection literal fill a row, from left to right, and what is skipped is not evaluated. The row
decides what the literal makes: a list literal makes a new list of it, unless there is an entry, which is an error; and a
literal in braces makes an empty set or map of an empty row, a map of entries with the first of equal keys and the last
of their values, a set of the first of equal values, and an error of a row that has both. What is not a number equals
nothing, and whether one that comes again counts as new is for the host to say. And a literal that spreads a list
literal whose elements stage no entry ends as the one with these elements in its place: with the same output, the same
elements and the same error, but for the place of one that the elements themselves have, if such an error has the method
of its own that is told places. -/
theorem collection_literals_make_their_rows :
    (∀ c xs s row t, EndsWith (fun e => stageAll e c xs) s (.done row t) ↔ StagesAll c xs s row t) ∧
    (∀ c xs s row t, StagesAll c xs s row t → ∀ l typeArguments,
      (∃ o', MakesList t row o' ∧ ∀ o, Evaluates c (.listLiteral l xs typeArguments) s o ↔ o = o'.locate l) ∧
      ∃ o', MakesSetOrMap typeArguments t row o' ∧
        ∀ o, Evaluates c (.setOrMapLiteral l xs typeArguments) s o ↔ o = o'.locate l) ∧
    (∀ items kept, KeepsFirst items kept → (∀ v ∈ items, v.isNaN = false) → kept = firstOccurrences [] items) ∧
    (∀ entries kept, KeepsFirstKeys entries kept → (∀ e ∈ entries, e.1.isNaN = false) →
      kept = entriesByKey [] entries) ∧
    ∀ c pre xs post s, s.Listed →
      (∀ first t row u, StagesAll c pre s first t → StagesAll c xs t row u → ∀ k v, .entry k v ∉ row) →
      (∀ first t, StagesAll c pre s first t → RaisesUnhooked (fun e => stageAll e c xs) t) →
      ∀ l l' l'' typeArguments typeArguments' nullAware,
        let spread : Element := .spread l' (.listLiteral l'' xs typeArguments') nullAware
        EndAlikeWithList s.lists.size (fun e => e.eval c (.listLiteral l (pre ++ (xs ++ post)) typeArguments)) s
          (fun e => e.eval c (.listLiteral l (pre ++ spread :: post) typeArguments)) s ∧
        EndAlikeWithList s.lists.size (fun e => e.eval c (.setOrMapLiteral l (pre ++ (xs ++ post)) typeArguments)) s
          (fun e => e.eval c (.setOrMapLiteral l (pre ++ spread :: post) typeArguments)) s := by
  refine ⟨fun c xs s row t => stageAll_iff,
    fun c xs s row t hrow l typeArguments => ⟨evaluates_list hrow l _, evaluates_setOrMap hrow l _⟩,
    fun _ _ h => h.eq, fun _ _ h => h.eq, ?_⟩
  intro c pre xs post s hs hnone hunhooked l l' l'' typeArguments typeArguments' nullAware
  refine ⟨?_, ?_⟩
  · exact (layOut_spread_after makesAlike_listOf hs hnone hunhooked).of_iff (fun _ => evaluates_list_iff_layOut)
      (fun _ => evaluates_list_iff_layOut)
  · exact (layOut_spread_after (makesAlike_setOrMapOf typeArguments) hs hnone hunhooked).of_iff
      (fun _ => evaluates_setOrMap_iff_layOut) (fun _ => evaluates_setOrMap_iff_layOut)

end

/-- `[...[true]]` makes a list as `[true]` does, at another address. -/
theorem collection_literals_make_their_rows_spread :
    let c : Context := ⟨rootScope, 0⟩
    let xs : List Element := [.plain (.boolLiteral none true)]
    Store.initial.Listed ∧
    (∀ row u, StagesAll c xs Store.initial row u → ∀ k v, .entry k v ∉ row) ∧
    RaisesUnhooked (fun e => stageAll e c xs) Store.initial ∧
    ∃ t t', Evaluates c (.listLiteral none xs []) Store.initial (.done (.list 0) t) ∧
      Evaluates c (.listLiteral none [.spread none (.listLiteral none xs []) false] []) Store.initial (.done (.list 1) t') ∧
      (Outcome.done (.list 0) t).LikeWithList 0 (.done (.list 1) t') := by
  intro c xs
  have hnone : ∀ row u, StagesAll c xs Store.initial row u → ∀ k v, .entry k v ∉ row := by
    intro row u hrow k v
    have hrow : StagesAll c [.plain (.boolLiteral none true)] Store.initial row u := hrow
    cases hrow with
    | cons hfirst hrest =>
      cases hfirst
      cases hrest
      simp
  have hnone' : ∀ first t row u, StagesAll c [] Store.initial first t → StagesAll c xs t row u → ∀ k v, .entry k v ∉ row := by
    intro first t row u hfirst
    cases hfirst
    exact hnone row u
  have hunhooked : RaisesUnhooked (fun e => stageAll e c xs) Store.initial :=
    .of_done (.stageAll c xs) (a := [.item (.bool true)]) ⟨nofun, 1, rfl⟩
  have hunhooked' : ∀ first t, StagesAll c [] Store.initial first t → RaisesUnhooked (fun e => stageAll e c xs) t := by
    intro first t hfirst
    cases hfirst
    exact hunhooked
  have hplain : ∃ t, Evaluates c (.listLiteral none xs []) Store.initial (.done (.list 0) t) := ⟨_, nofun, 2, rfl⟩
  have hspread : ∃ t, Evaluates c (.listLiteral none [.spread none (.listLiteral none xs []) false] []) Store.initial
      (.done (.list 1) t) := ⟨_, nofun, 3, rfl⟩
  obtain ⟨t, hplain⟩ := hplain
  obtain ⟨t', hspread⟩ := hspread
  obtain ⟨o', ho', hlike⟩ := (collection_literals_make_their_rows.2.2.2.2 c [] xs [] Store.initial Store.Listed.initial hnone'
    hunhooked' none none none [] [] false).1.forth _ hplain
  obtain rfl := ho'.unique (.eval c _) hspread
  exact ⟨Store.Listed.initial, hnone, hunhooked, t, t', hplain, hspread, hlike⟩

/-- With an error that writes a line when it is told a place, `[...[throw error]]` writes a line more than `[throw error]`:
the error leaves one construct more. -/
theorem assigned_methods_tell_spreads_apart :
    let c : Context := ⟨rootScope, 0⟩
    let keeping : Expr := .assignment none .plain (.identifier none "error") (.identifier none "e")
    let clause : CatchClause :=
      .mk none (.block none [.expression none (telling "e" (printing "told")), .expression none keeping]) none (some "e") none
    let s := ((interpreter 12).exec c (.trying none lookingUp [clause] none)
      (Store.initial.declare rootScope "error" .null)).store
    let xs : List Element := [.plain (.throwing none (.identifier none "error"))]
    ∃ a t t', Evaluates c (.listLiteral none xs []) s (.raised a t) ∧
      Evaluates c (.listLiteral none [.spread none (.listLiteral none xs []) false] []) s (.raised a t') ∧
      t.output ≠ t'.output := by
  intro c keeping clause s xs
  have hreports :
      ((interpreter 12).eval c (.listLiteral none xs []) s).report? = some (0, "told\ntold\n") ∧
      ((interpreter 12).eval c (.listLiteral none [.spread none (.listLiteral none xs []) false] []) s).report? =
        some (0, "told\ntold\ntold\n") := by
    decide +kernel
  obtain ⟨t, hraised, houtput⟩ := Outcome.of_report? hreports.1
  obtain ⟨t', hraised', houtput'⟩ := Outcome.of_report? hreports.2
  exact ⟨0, t, t', ⟨nofun, 12, hraised⟩, ⟨nofun, 12, hraised'⟩, by rw [houtput, houtput']; decide⟩

end Dartlet
