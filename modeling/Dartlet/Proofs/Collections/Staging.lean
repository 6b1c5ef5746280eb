import Dartlet.Proofs.Collections.Equality
import Dartlet.Proofs.Evaluation.ElementLoops
import Dartlet.Proofs.Evaluation.Invocations
import Dartlet.Proofs.Host.Takeover

/-!
# What collection literals stage

The elements of a literal are laid out in a row, from left to right. What an element fills is told here by a relation
without regard to levels, in which a part that is skipped does not occur. The row decides what the literal makes: a list
has all of it, a set the first occurrences of its values, and a map those of its keys, each with the value that comes
last.
-/

namespace Dartlet

open Dartlet.Action
open Dartlet.Syntax (Element Expr Location)

set_option linter.unusedSectionVars false

variable [Host]

/-! ### Rows -/

/-- The places that an element fills, and the store in which laying it out ends. -/
inductive Stages (c : Context) : Element → Store → List Staged → Store → Prop where
  | plain {x s v t} (value : Evaluates c x s (.done v t)) : Stages c (.plain x) s [.item v] t
  | entry {l x y p q s k t v u} (key : Evaluates c x s (.done k t)) (hasKey : k = .null → p = false)
      (value : Evaluates c y t (.done v u)) (hasValue : v = .null → q = false) :
      Stages c (.entry l x y p q) s [.entry k v] u
  | nullKey {l x y q s t} (key : Evaluates c x s (.done .null t)) : Stages c (.entry l x y true q) s [] t
  | nullValue {l x y p s k t u} (key : Evaluates c x s (.done k t)) (hasKey : k = .null → p = false)
      (value : Evaluates c y t (.done .null u)) : Stages c (.entry l x y p true) s [] u
  | spread {l x p s v t items} (source : Evaluates c x s (.done v t)) (elements : t.HasElements v items) :
      Stages c (.spread l x p) s (items.map .item) t
  | spreadMap {l x p s a t} (source : Evaluates c x s (.done (.map a) t)) :
      Stages c (.spread l x p) s ((t.map a).map fun e => .entry e.1 e.2) t
  | spreadObject {l x p s a t items u} (source : Evaluates c x s (.done (.object a) t))
      (elements : elementsOf? (.object a) t = .done (some items) u) : Stages c (.spread l x p) s (items.map .item) u
  | spreadNull {l x s t} (source : Evaluates c x s (.done .null t)) : Stages c (.spread l x true) s [] t
  | nullAware {l x s v t} (value : Evaluates c x s (.done v t)) (some : v ≠ .null) :
      Stages c (.nullAware l x) s [.item v] t
  | null {l x s t} (value : Evaluates c x s (.done .null t)) : Stages c (.nullAware l x) s [] t
  | holds {l x a b s t row u} (condition : Evaluates c x s (.done (.bool true) t)) (taken : Stages c a t row u) :
      Stages c (.conditional l x a b) s row u
  | otherwise {l x a b s t row u} (condition : Evaluates c x s (.done (.bool false) t)) (taken : Stages c b t row u) :
      Stages c (.conditional l x a (some b)) s row u
  | nothing {l x a s t} (condition : Evaluates c x s (.done (.bool false) t)) : Stages c (.conditional l x a none) s [] t

/-- The places that elements fill, one after the other. -/
inductive StagesAll (c : Context) : List Element → Store → List Staged → Store → Prop where
  | nil {s} : StagesAll c [] s [] s
  | cons {x xs s row t more u} (first : Stages c x s row t) (rest : StagesAll c xs t more u) :
      StagesAll c (x :: xs) s (row ++ more) u

section Staging

variable {c : Context} {s t : Store} {row : List Staged}

/-- What fills a place, unless it is a null that does not count. -/
def placed (p : Bool) (v : Value) (next : Value → Action (List Staged)) : Action (List Staged) :=
  match v, p with
  | .null, true => pure []
  | u, _ => next u

theorem placed_null (next : Value → Action (List Staged)) : placed true .null next = pure [] := rfl

theorem placed_of_counts {p : Bool} {v : Value} (h : v = .null → p = false) (next : Value → Action (List Staged)) :
    placed p v next = next v := by
  cases v with
  | null =>
    obtain rfl := h rfl
    rfl
  | _ => rfl

theorem counts_or (p : Bool) (v : Value) : (v = .null → p = false) ∨ p = true ∧ v = .null := by
  by_cases h : v = .null ∧ p = true
  · exact .inr h.symm
  · exact .inl fun hv => by simpa using fun hp => h ⟨hv, hp⟩

theorem stage_entry (e : Engine) (c : Context) (l : Location) (x y : Expr) (p q : Bool) :
    stage e c (.entry l x y p q) = e.eval c x >>= fun k => placed p k fun k =>
      e.eval c y >>= fun v => placed q v fun v => pure [.entry k v] := rfl

theorem stage_nullAware (e : Engine) (c : Context) (l : Location) (x : Expr) :
    stage e c (.nullAware l x) = e.eval c x >>= fun v => placed true v fun v => pure [.item v] := by
  refine congrArg (e.eval c x >>= ·) (funext fun v => ?_)
  cases v <;> rfl

theorem Persistent.placed {p : Bool} {v : Value} {next : Engine → Value → Action (List Staged)}
    (hnext : ∀ v, Persistent (fun e => next e v)) : Persistent (fun e => placed p v (next e)) := by
  rcases counts_or p v with hcounts | ⟨rfl, rfl⟩
  · simp only [placed_of_counts hcounts]
    exact hnext v
  · exact .const _

theorem Persistent.stage (c : Context) : ∀ x : Element, Persistent (fun e => stage e c x)
  | .plain x => (Persistent.eval c x).bind fun _ => .const _
  | .entry _ x y _ _ => (Persistent.eval c x).bind fun _ => .placed fun _ =>
      (Persistent.eval c y).bind fun _ => .placed fun _ => .const _
  | .spread _ x _ => (Persistent.eval c x).bind fun _ => .const _
  | .nullAware l x => by
    simp only [stage_nullAware]
    exact (Persistent.eval c x).bind fun _ => .placed fun _ => .const _
  | .conditional _ x a none => (Persistent.eval c x).bind fun _ => (Persistent.const _).bind fun _ =>
      .ite (Persistent.stage c a) (.const _)
  | .conditional _ x a (some b) => (Persistent.eval c x).bind fun _ => (Persistent.const _).bind fun _ =>
      .ite (Persistent.stage c a) (Persistent.stage c b)
  | .loop _ _ _ => .const _

theorem Persistent.stageAll (c : Context) (xs : List Element) : Persistent (fun e => stageAll e c xs) := by
  induction xs with
  | nil => exact .const _
  | cons x xs ih => exact (Persistent.stage c x).bind fun _ => ih.bind fun _ => .const _

theorem EndsWith.bind_done_iff {α β : Type} {F : Engine → Action α} {G : Engine → α → Action β} {b : β}
    (hF : Persistent F) (hG : ∀ a, Persistent (fun e => G e a)) :
    EndsWith (fun e => F e >>= G e) s (.done b t) ↔
      ∃ a u, EndsWith F s (.done a u) ∧ EndsWith (fun e => G e a) u (.done b t) :=
  ⟨bind_done hF hG, fun ⟨_, _, hfirst, hsecond⟩ => (bind_iff_of_done hF hG hfirst).mpr hsecond⟩

theorem EndsWith.pure_iff {α : Type} {a b : α} : EndsWith (fun _ => pure a) s (.done b t) ↔ b = a ∧ t = s := by
  rw [const_iff]
  constructor
  · rintro ⟨hdone, -⟩
    obtain ⟨rfl, rfl⟩ := Outcome.done.inj hdone
    exact ⟨rfl, rfl⟩
  · rintro ⟨rfl, rfl⟩
    exact ⟨rfl, nofun⟩

theorem placed_iff {p : Bool} {v : Value} {next : Engine → Value → Action (List Staged)} :
    EndsWith (fun e => placed p v (next e)) s (.done row t) ↔
      (p = true ∧ v = .null ∧ row = [] ∧ t = s) ∨ (v = .null → p = false) ∧ EndsWith (fun e => next e v) s (.done row t) := by
  rcases counts_or p v with hcounts | ⟨rfl, rfl⟩
  · simp only [placed_of_counts hcounts]
    refine ⟨fun hnext => .inr ⟨hcounts, hnext⟩, ?_⟩
    rintro (⟨rfl, rfl, -, -⟩ | ⟨-, hnext⟩)
    · cases hcounts rfl
    · exact hnext
  · simp [placed_null, EndsWith.pure_iff]

theorem spreadElements_iff {v : Value} : Comparison.spreadElements v s = .done row t ↔
    ∃ items, elementsOf? v s = .done (some items) t ∧ row = items.map .item := by
  unfold Comparison.spreadElements
  rw [Action.bind_eq_done_iff]
  constructor
  · rintro ⟨_ | items, u, helements, hdone⟩
    · cases hdone
    · obtain ⟨rfl, rfl⟩ := Outcome.done.inj hdone
      exact ⟨items, helements, rfl⟩
  · rintro ⟨items, helements, rfl⟩
    exact ⟨some items, t, helements, rfl⟩

/-- The elements of a list, an iterable or a set are there, those of an object come from the host. -/
theorem elementsOf?_eq_some_iff {v : Value} {items : List Value} : elementsOf? v s = .done (some items) t ↔
    (s.HasElements v items ∧ t = s) ∨ ∃ a, v = .object a ∧ elementsOf? (.object a) s = .done (some items) t := by
  have hsame {xs : List Value} (h : s.HasElements v xs) (hread : elementsOf? v s = .done (some items) t) :
      s.HasElements v items ∧ t = s := by
    obtain ⟨hitems, rfl⟩ := Outcome.done.inj (h.elementsOf?.symm.trans hread)
    obtain rfl := Option.some.inj hitems
    exact ⟨h, rfl⟩
  constructor
  · intro hread
    cases v with
    | list a => exact .inl (hsame (.list a) hread)
    | iterable a => exact .inl (hsame (.iterable a) hread)
    | set a => exact .inl (hsame (.set a) hread)
    | object a => exact .inr ⟨a, rfl, hread⟩
    | _ => cases hread
  · rintro (⟨helements, rfl⟩ | ⟨a, rfl, hread⟩)
    · exact helements.elementsOf?
    · exact hread

/-- What a spread value fills. -/
theorem spreadOut_iff {v : Value} {p : Bool} : spreadOut v p s = .done row t ↔
    (p = true ∧ v = .null ∧ row = [] ∧ t = s) ∨
    (∃ a, v = .map a ∧ row = ((s.map a).map fun e => .entry e.1 e.2) ∧ t = s) ∨
    ∃ items, elementsOf? v s = .done (some items) t ∧ row = items.map .item := by
  cases v with
  | null =>
    cases p with
    | true =>
      rw [show spreadOut .null true s = .done [] s from rfl]
      constructor
      · intro hdone
        obtain ⟨rfl, rfl⟩ := Outcome.done.inj hdone
        exact .inl ⟨rfl, rfl, rfl, rfl⟩
      · rintro (⟨-, -, rfl, rfl⟩ | ⟨a, hv, -⟩ | ⟨items, hread, -⟩)
        · rfl
        · cases hv
        · cases hread
    | false =>
      refine ⟨nofun, ?_⟩
      rintro (⟨hp, -⟩ | ⟨a, hv, -⟩ | ⟨items, hread, -⟩)
      · cases hp
      · cases hv
      · cases hread
  | map a =>
    rw [show spreadOut (.map a) p s = .done ((s.map a).map fun e => .entry e.1 e.2) s from rfl]
    constructor
    · intro hdone
      obtain ⟨rfl, rfl⟩ := Outcome.done.inj hdone
      exact .inr (.inl ⟨a, rfl, rfl, rfl⟩)
    · rintro (⟨-, hv, -⟩ | ⟨_, ⟨rfl⟩, rfl, rfl⟩ | ⟨items, hread, -⟩)
      · cases hv
      · rfl
      · cases hread
  | _ =>
    refine Iff.trans spreadElements_iff ⟨fun h => .inr (.inr h), ?_⟩
    rintro (⟨-, hv, -⟩ | ⟨_, hv, -⟩ | h)
    · cases hv
    · cases hv
    · exact h

theorem requireBool_iff {v : Value} {words : String} {b : Bool} :
    EndsWith (fun _ => requireBool v words) s (.done b t) ↔ v = .bool b ∧ t = s := by
  rw [EndsWith.const_iff]
  by_cases hv : ∃ b, v = .bool b
  · obtain ⟨b', rfl⟩ := hv
    constructor
    · rintro ⟨hdone, -⟩
      obtain ⟨rfl, rfl⟩ := Outcome.done.inj hdone
      exact ⟨rfl, rfl⟩
    · rintro ⟨⟨rfl⟩, rfl⟩
      exact ⟨rfl, nofun⟩
  · rw [requireBool_of_ne (not_exists.mp hv)]
    exact ⟨fun h => (nomatch h.1), fun ⟨h, _⟩ => absurd ⟨b, h⟩ hv⟩

/-- A value that may be a null which does not count, and what follows otherwise. -/
theorem placing_iff {x : Expr} {p : Bool} {next : Engine → Value → Action (List Staged)}
    (hnext : ∀ v, Persistent (fun e => next e v)) :
    EndsWith (fun e => e.eval c x >>= fun v => placed p v (next e)) s (.done row t) ↔
      (p = true ∧ row = [] ∧ Evaluates c x s (.done .null t)) ∨
        ∃ v u, Evaluates c x s (.done v u) ∧ (v = .null → p = false) ∧ EndsWith (fun e => next e v) u (.done row t) := by
  rw [EndsWith.bind_done_iff (.eval c x) fun _ => .placed hnext]
  simp only [placed_iff]
  constructor
  · rintro ⟨v, u, hvalue, ⟨hp, rfl, hrow, rfl⟩ | hrest⟩
    · exact .inl ⟨hp, hrow, hvalue⟩
    · exact .inr ⟨v, u, hvalue, hrest⟩
  · rintro (⟨hp, hrow, hvalue⟩ | ⟨v, u, hvalue, hrest⟩)
    · exact ⟨_, _, hvalue, .inl ⟨hp, rfl, hrow, rfl⟩⟩
    · exact ⟨v, u, hvalue, .inr hrest⟩

/-- A condition, and what follows if it holds or does not. -/
theorem choice_iff {x : Expr} {words : String} {F G : Engine → Action (List Staged)} (hF : Persistent F)
    (hG : Persistent G) :
    EndsWith (fun e => e.eval c x >>= fun v => requireBool v words >>= fun b => if b then F e else G e) s (.done row t) ↔
      (∃ u, Evaluates c x s (.done (.bool true) u) ∧ EndsWith F u (.done row t)) ∨
        ∃ u, Evaluates c x s (.done (.bool false) u) ∧ EndsWith G u (.done row t) := by
  have hchoice (b : Bool) : Persistent (fun e => if b then F e else G e) := .ite hF hG
  have htest (v : Value) : Persistent (fun e => requireBool v words >>= fun b => if b then F e else G e) :=
    (Persistent.const _).bind hchoice
  rw [EndsWith.bind_done_iff (.eval c x) htest]
  constructor
  · rintro ⟨v, u, hvalue, hrest⟩
    obtain ⟨b, u', hbool, hrow⟩ := (EndsWith.bind_done_iff (.const _) hchoice).mp hrest
    obtain ⟨rfl, rfl⟩ := requireBool_iff.mp hbool
    cases b with
    | true => exact .inl ⟨_, hvalue, hrow⟩
    | false => exact .inr ⟨_, hvalue, hrow⟩
  · rintro (⟨u, hvalue, hrow⟩ | ⟨u, hvalue, hrow⟩)
    · exact ⟨_, u, hvalue, (EndsWith.bind_done_iff (.const _) hchoice).mpr
        ⟨true, u, requireBool_iff.mpr ⟨rfl, rfl⟩, hrow⟩⟩
    · exact ⟨_, u, hvalue, (EndsWith.bind_done_iff (.const _) hchoice).mpr
        ⟨false, u, requireBool_iff.mpr ⟨rfl, rfl⟩, hrow⟩⟩

theorem stage_plain_iff {x : Expr} :
    EndsWith (fun e => stage e c (.plain x)) s (.done row t) ↔ Stages c (.plain x) s row t := by
  refine (EndsWith.bind_done_iff (G := fun _ v => pure [Staged.item v]) (.eval c x) fun _ => .const _).trans ?_
  simp only [EndsWith.pure_iff]
  constructor
  · rintro ⟨v, u, hvalue, rfl, rfl⟩
    exact .plain hvalue
  · intro hstages
    cases hstages with
    | plain hvalue => exact ⟨_, _, hvalue, rfl, rfl⟩

theorem stage_entry_iff {l : Location} {x y : Expr} {p q : Bool} :
    EndsWith (fun e => stage e c (.entry l x y p q)) s (.done row t) ↔ Stages c (.entry l x y p q) s row t := by
  have hlast (k v : Value) : Persistent (fun _ => pure [Staged.entry k v]) := .const _
  have hvalue (k : Value) : Persistent (fun e => e.eval c y >>= fun v => placed q v fun v => pure [.entry k v]) :=
    (Persistent.eval c y).bind fun _ => .placed (hlast k)
  simp only [stage_entry, placing_iff hvalue, placing_iff (hlast _), EndsWith.pure_iff]
  constructor
  · rintro (⟨rfl, rfl, hkey⟩ | ⟨k, u, hkey, hcounts, ⟨rfl, rfl, hvalue⟩ | ⟨v, u', hvalue, hcounts', rfl, rfl⟩⟩)
    · exact .nullKey hkey
    · exact .nullValue hkey hcounts hvalue
    · exact .entry hkey hcounts hvalue hcounts'
  · intro hstages
    cases hstages with
    | nullKey hkey => exact .inl ⟨rfl, rfl, hkey⟩
    | nullValue hkey hcounts hvalue => exact .inr ⟨_, _, hkey, hcounts, .inl ⟨rfl, rfl, hvalue⟩⟩
    | entry hkey hcounts hvalue hcounts' =>
      exact .inr ⟨_, _, hkey, hcounts, .inr ⟨_, _, hvalue, hcounts', rfl, rfl⟩⟩

theorem stage_spread_iff {l : Location} {x : Expr} {p : Bool} :
    EndsWith (fun e => stage e c (.spread l x p)) s (.done row t) ↔ Stages c (.spread l x p) s row t := by
  refine (EndsWith.bind_done_iff (G := fun _ v => spreadOut v p) (.eval c x) fun _ => .const _).trans ?_
  simp only [EndsWith.const_iff, spreadOut_iff]
  constructor
  · rintro ⟨v, u, hsource, ⟨rfl, rfl, rfl, rfl⟩ | ⟨a, rfl, rfl, rfl⟩ | ⟨items, hread, rfl⟩, -⟩
    · exact .spreadNull hsource
    · exact .spreadMap hsource
    · rcases elementsOf?_eq_some_iff.mp hread with ⟨helements, rfl⟩ | ⟨a, rfl, hread⟩
      · exact .spread hsource helements
      · exact .spreadObject hsource hread
  · intro hstages
    cases hstages with
    | spread hsource helements => exact ⟨_, _, hsource, .inr (.inr ⟨_, helements.elementsOf?, rfl⟩), nofun⟩
    | spreadMap hsource => exact ⟨_, _, hsource, .inr (.inl ⟨_, rfl, rfl, rfl⟩), nofun⟩
    | spreadObject hsource hread => exact ⟨_, _, hsource, .inr (.inr ⟨_, hread, rfl⟩), nofun⟩
    | spreadNull hsource => exact ⟨_, _, hsource, .inl ⟨rfl, rfl, rfl, rfl⟩, nofun⟩

theorem stage_nullAware_iff {l : Location} {x : Expr} :
    EndsWith (fun e => stage e c (.nullAware l x)) s (.done row t) ↔ Stages c (.nullAware l x) s row t := by
  have hlast (v : Value) : Persistent (fun _ => pure [Staged.item v]) := .const _
  simp only [stage_nullAware]
  rw [placing_iff hlast]
  simp only [EndsWith.pure_iff]
  constructor
  · rintro (⟨-, rfl, hvalue⟩ | ⟨v, u, hvalue, hcounts, rfl, rfl⟩)
    · exact .null hvalue
    · exact .nullAware hvalue fun hv => nomatch hcounts hv
  · intro hstages
    cases hstages with
    | nullAware hvalue hsome => exact .inr ⟨_, _, hvalue, fun hv => absurd hv hsome, rfl, rfl⟩
    | null hvalue => exact .inl ⟨trivial, rfl, hvalue⟩

/-- The interpreter lays an element out as it is told. -/
theorem stage_iff (c : Context) : ∀ (x : Element) {s t : Store} {row : List Staged},
    EndsWith (fun e => stage e c x) s (.done row t) ↔ Stages c x s row t
  | .plain _, _, _, _ => stage_plain_iff
  | .entry _ _ _ _ _, _, _, _ => stage_entry_iff
  | .spread _ _ _, _, _, _ => stage_spread_iff
  | .nullAware _ _, _, _, _ => stage_nullAware_iff
  | .conditional l x a none, s, t, row => by
    refine (choice_iff (.stage c a) (.const (pure []))).trans ?_
    simp only [stage_iff c a, EndsWith.pure_iff]
    constructor
    · rintro (⟨u, hvalue, htaken⟩ | ⟨u, hvalue, rfl, rfl⟩)
      · exact .holds hvalue htaken
      · exact .nothing hvalue
    · intro hstages
      cases hstages with
      | holds hvalue htaken => exact .inl ⟨_, hvalue, htaken⟩
      | nothing hvalue => exact .inr ⟨_, hvalue, rfl, rfl⟩
  | .conditional l x a (some b), s, t, row => by
    refine (choice_iff (.stage c a) (.stage c b)).trans ?_
    simp only [stage_iff c a, stage_iff c b]
    constructor
    · rintro (⟨u, hvalue, htaken⟩ | ⟨u, hvalue, htaken⟩)
      · exact .holds hvalue htaken
      · exact .otherwise hvalue htaken
    · intro hstages
      cases hstages with
      | holds hvalue htaken => exact .inl ⟨_, hvalue, htaken⟩
      | otherwise hvalue htaken => exact .inr ⟨_, hvalue, htaken⟩
  | .loop l header body, s, t, row => by
    refine ⟨fun h => ?_, nofun⟩
    exact nomatch (EndsWith.const_iff.mp h).1

theorem stageAll_iff {xs : List Element} :
    EndsWith (fun e => stageAll e c xs) s (.done row t) ↔ StagesAll c xs s row t := by
  induction xs generalizing s row with
  | nil =>
    refine EndsWith.pure_iff.trans ⟨?_, ?_⟩
    · rintro ⟨rfl, rfl⟩
      exact .nil
    · intro hstages
      cases hstages
      exact ⟨rfl, rfl⟩
  | cons x xs ih =>
    have hlast (first more : List Staged) : Persistent (fun _ => pure (first ++ more)) := .const _
    have hrest (first : List Staged) : Persistent (fun e => stageAll e c xs >>= fun more => pure (first ++ more)) :=
      (Persistent.stageAll c xs).bind (hlast first)
    refine (EndsWith.bind_done_iff (.stage c x) hrest).trans ?_
    constructor
    · rintro ⟨first, u, hfirst, hothers⟩
      obtain ⟨more, u', hmore, hrow⟩ := (EndsWith.bind_done_iff (.stageAll c xs) (hlast first)).mp hothers
      obtain ⟨rfl, rfl⟩ := EndsWith.pure_iff.mp hrow
      exact .cons ((stage_iff c x).mp hfirst) (ih.mp hmore)
    · intro hstages
      cases hstages with
      | cons hfirst hothers =>
        refine ⟨_, _, (stage_iff c x).mpr hfirst, ?_⟩
        exact (EndsWith.bind_done_iff (.stageAll c xs) (hlast _)).mpr
          ⟨_, _, ih.mpr hothers, EndsWith.pure_iff.mpr ⟨rfl, rfl⟩⟩

end Staging

end Dartlet
