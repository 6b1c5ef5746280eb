import Dartlet.Host.Standard
import Dartlet.Proofs.Evaluation.Loops
import Dartlet.Proofs.Evaluation.Nesting

/-!
# Loops over elements

A loop over elements takes the elements that the collection has when the loop is entered, one after the other, until a
round leaves the loop. The rounds are told here as they come, each with its element, its scope and the store in which
its body begins, and with how it all comes to an end, be it that some round never ends. A loop that declares its
variable makes a scope for each round, so that what is assigned in the scope of one round is out of sight for whatever
belongs to another one.
-/

namespace Dartlet

open Dartlet.Action
open Dartlet.Syntax (Expr Location Stmt)

set_option linter.unusedSectionVars false

section

variable [Host]

/-- The elements that a list, an iterable or a set has. -/
inductive Store.HasElements (s : Store) : Value → List Value → Prop where
  | list (a : Address) : s.HasElements (.list a) (s.list a).toList
  | iterable (a : Address) : s.HasElements (.iterable a) (s.iterable a)
  | set (a : Address) : s.HasElements (.set a) (s.set a)

/-! ### The rounds of a loop over elements -/

/-- A round that has begun: its element, its scope, and the store in which its body runs. -/
structure ElementRound where
  item : Value
  scope : Address
  store : Store

/-- How a loop over elements comes to an end, if it does. -/
inductive WalkEnding where
  | finished (store : Store)
  | breaking (store : Store)
  | returning (v : Value) (store : Store)
  | failing (f : Failure) (store : Store)
  | unending

/-- The outcome of a loop over elements. -/
def WalkEnding.outcome? : WalkEnding → Option (Outcome Completion)
  | .finished t => some (.done .normal t)
  | .breaking t => some (.done .normal t)
  | .returning v t => some (.done (.returning v) t)
  | .failing f t => some (f.outcome t)
  | .unending => none

/-- The store that a loop over elements leaves behind. -/
def WalkEnding.store? : WalkEnding → Option Store
  | .finished t | .breaking t | .returning _ t | .failing _ t => some t
  | .unending => none

/-- How a body that ends ends the loop, if it does not go on. -/
def WalkEnding.ofBody? : Outcome Completion → Option WalkEnding
  | .done .breaking t => some (.breaking t)
  | .done (.returning v) t => some (.returning v t)
  | .raised a t => some (.failing (.raised a) t)
  | .escaped f t => some (.failing (.escaped f) t)
  | .done .normal _ | .done .continuing _ | .exhausted _ => none

section Walks

variable (c : Context) (name : String) (declares : Bool) (body : Stmt)

/-- How a round takes its element: the variable is declared in a scope that is made for the round, or else
assigned. -/
inductive Takes : Bool → Value → Store → Address → Store → Prop where
  | declared {item s} :
      Takes true item s s.scopes.size { s with scopes := s.scopes.push ⟨some c.scope, [(name, item)], none⟩ }
  | assigned {item s t} (update : s.update? c.scope name item = some t) : Takes false item s c.scope t

/-- The rounds that a loop runs over elements, and how it ends. -/
inductive Walks : List Value → Store → List ElementRound → WalkEnding → Prop where
  | finished {s} : Walks [] s [] (.finished s)
  | goesOn {item rest s a t k t' rounds ending} (taken : Takes c name declares item s a t)
      (run : Performs (c.at a) body t (.done k t')) (going : k = .normal ∨ k = .continuing)
      (others : Walks rest t' rounds ending) : Walks (item :: rest) s (⟨item, a, t⟩ :: rounds) ending
  | leaves {item rest s a t o ending} (taken : Takes c name declares item s a t) (run : Performs (c.at a) body t o)
      (leaving : WalkEnding.ofBody? o = some ending) : Walks (item :: rest) s [⟨item, a, t⟩] ending
  | lasts {item rest s a t} (taken : Takes c name declares item s a t) (run : ∀ o, ¬Performs (c.at a) body t o) :
      Walks (item :: rest) s [⟨item, a, t⟩] .unending
  | unbound {item rest s} (undeclared : declares = false) (unbound : s.update? c.scope name item = none) :
      Walks (item :: rest) s [] (.failing (.raised s.errors.size) (s.addError (.unbound name)).2)

end Walks

/-! ### What the interpreter does -/

section Runs

variable {c : Context} {name : String} {declares : Bool} {body : Stmt} {s t : Store} {items : List Value}
  {rounds : List ElementRound} {ending : WalkEnding}

theorem Takes.unique {item : Value} {a b : Address} {t' : Store} (h : Takes c name declares item s a t)
    (h' : Takes c name declares item s b t') : a = b ∧ t = t' := by
  cases h with
  | declared =>
    cases h'
    exact ⟨rfl, rfl⟩
  | assigned update =>
    cases h' with
    | assigned update' => exact ⟨rfl, Option.some.inj (update.symm.trans update')⟩

theorem Takes.ne_none {item : Value} {a : Address} (h : Takes c name declares item s a t) (hfalse : declares = false) :
    s.update? c.scope name item ≠ none := by
  cases h with
  | declared => cases hfalse
  | assigned update => simp [update]

/-- What is done to the entry that was added last. -/
theorem modify_push {α : Type} (xs : Array α) (x : α) (f : α → α) : (xs.push x).modify xs.size f = xs.push (f x) := by
  refine Array.ext_getElem? fun b => ?_
  rw [Array.getElem?_modify, Array.getElem?_push, Array.getElem?_push]
  by_cases hb : b = xs.size
  · simp [hb]
  · simp [hb, Ne.symm hb]

/-- The scope that is made for a round. -/
theorem declare_enter (s : Store) (parent : Address) (name : String) (item : Value) :
    (s.enter parent).2.declare s.scopes.size name item =
      { s with scopes := s.scopes.push ⟨some parent, [(name, item)], none⟩ } :=
  congrArg (fun scopes => { s with scopes := scopes }) (modify_push s.scopes _ _)

/-- A round takes its element, unless there is no variable to assign. -/
theorem bindElement_cases (c : Context) (name : String) (declares : Bool) (item : Value) (s : Store) :
    (∃ a t, Takes c name declares item s a t ∧ bindElement c name declares item s = .done (c.at a) t) ∨
      declares = false ∧ s.update? c.scope name item = none ∧
        bindElement c name declares item s = .raised s.errors.size (s.addError (.unbound name)).2 := by
  cases declares with
  | true => exact .inl ⟨_, _, .declared, congrArg (Outcome.done _) (declare_enter s c.scope name item)⟩
  | false =>
    cases hupdate : s.update? c.scope name item with
    | some t =>
      refine .inl ⟨c.scope, t, .assigned hupdate, ?_⟩
      change Action.bind (assign c.scope name item) _ s = _
      simp only [Action.bind, assign, hupdate]
      rfl
    | none =>
      refine .inr ⟨rfl, rfl, ?_⟩
      change Action.bind (assign c.scope name item) _ s = _
      simp only [Action.bind, assign, hupdate]
      rfl

theorem forInRounds_cons (e : Engine) (c : Context) (name : String) (declares : Bool) (body : Stmt) (item : Value)
    (rest : List Value) : forInRounds e c name declares body (item :: rest) =
      bindElement c name declares item >>= fun d => bodyThen e d body (forInRounds e c name declares body rest) := rfl

theorem Persistent.forInRounds (items : List Value) : Persistent (fun e => forInRounds e c name declares body items) := by
  induction items with
  | nil => exact .const _
  | cons item rest ih => exact (Persistent.const (bindElement c name declares item)).bind fun d => .bodyThen ih body

/-- After its body, a loop goes on or comes to an end. -/
theorem ofBody?_cases {o : Outcome Completion} (ho : o.Ended) :
    (∃ k t, o = .done k t ∧ (k = .normal ∨ k = .continuing)) ∨ ∃ ending, WalkEnding.ofBody? o = some ending := by
  cases o with
  | done k t =>
    cases k with
    | normal => exact .inl ⟨_, t, rfl, .inl rfl⟩
    | continuing => exact .inl ⟨_, t, rfl, .inr rfl⟩
    | breaking => exact .inr ⟨_, rfl⟩
    | returning v => exact .inr ⟨_, rfl⟩
  | raised a t => exact .inr ⟨_, rfl⟩
  | escaped f t => exact .inr ⟨_, rfl⟩
  | exhausted t => exact absurd rfl (ho t)

theorem ofBody?_of_going {k : Completion} (hk : k = .normal ∨ k = .continuing) (t : Store) :
    WalkEnding.ofBody? (.done k t) = none := by
  rcases hk with rfl | rfl <;> rfl

/-- There is a way through the loop, whether it ends or not. -/
theorem exists_walks (c : Context) (name : String) (declares : Bool) (body : Stmt) (items : List Value) (s : Store) :
    ∃ rounds ending, Walks c name declares body items s rounds ending := by
  induction items generalizing s with
  | nil => exact ⟨_, _, .finished⟩
  | cons item rest ih =>
    rcases bindElement_cases c name declares item s with ⟨a, t, htaken, -⟩ | ⟨hfalse, hnone, -⟩
    · by_cases hrun : ∃ o, Performs (c.at a) body t o
      · obtain ⟨o, hrun⟩ := hrun
        rcases ofBody?_cases hrun.1 with ⟨k, t', rfl, hk⟩ | ⟨ending, hleaving⟩
        · obtain ⟨rounds, ending, hothers⟩ := ih t'
          exact ⟨_, _, .goesOn htaken hrun hk hothers⟩
        · exact ⟨_, _, .leaves htaken hrun hleaving⟩
      · exact ⟨_, _, .lasts htaken (not_exists.mp hrun)⟩
    · exact ⟨_, _, .unbound hfalse hnone⟩

/-- A walk whose first element is taken: it goes on, leaves or lasts. -/
theorem Walks.of_takes {item : Value} {rest : List Value} {a : Address}
    (h : Walks c name declares body (item :: rest) s rounds ending) (htaken : Takes c name declares item s a t) :
    (∃ k t' others, Performs (c.at a) body t (.done k t') ∧ (k = .normal ∨ k = .continuing) ∧
      Walks c name declares body rest t' others ending ∧ rounds = ⟨item, a, t⟩ :: others) ∨
    (∃ o, Performs (c.at a) body t o ∧ WalkEnding.ofBody? o = some ending ∧ rounds = [⟨item, a, t⟩]) ∨
    (∀ o, ¬Performs (c.at a) body t o) ∧ rounds = [⟨item, a, t⟩] ∧ ending = .unending := by
  cases h with
  | goesOn taken run going others =>
    obtain ⟨rfl, rfl⟩ := htaken.unique taken
    exact .inl ⟨_, _, _, run, going, others, rfl⟩
  | leaves taken run leaving =>
    obtain ⟨rfl, rfl⟩ := htaken.unique taken
    exact .inr (.inl ⟨_, run, leaving, rfl⟩)
  | lasts taken run =>
    obtain ⟨rfl, rfl⟩ := htaken.unique taken
    exact .inr (.inr ⟨run, rfl, rfl⟩)
  | unbound undeclared unbound => exact absurd unbound (htaken.ne_none undeclared)

/-- A walk whose first element cannot be assigned. -/
theorem Walks.of_unbound {item : Value} {rest : List Value}
    (h : Walks c name declares body (item :: rest) s rounds ending) (hfalse : declares = false)
    (hnone : s.update? c.scope name item = none) :
    rounds = [] ∧ ending = .failing (.raised s.errors.size) (s.addError (.unbound name)).2 := by
  cases h with
  | goesOn taken => exact absurd hnone (taken.ne_none hfalse)
  | leaves taken => exact absurd hnone (taken.ne_none hfalse)
  | lasts taken => exact absurd hnone (taken.ne_none hfalse)
  | unbound => exact ⟨rfl, rfl⟩

/-- There is only one way through the loop. -/
theorem Walks.unique {rounds' : List ElementRound} {ending' : WalkEnding}
    (h : Walks c name declares body items s rounds ending) (h' : Walks c name declares body items s rounds' ending') :
    rounds' = rounds ∧ ending' = ending := by
  have hsame {d : Context} {t : Store} {o o' : Outcome Completion} (run : Performs d body t o)
      (run' : Performs d body t o') : o = o' := run.unique (.exec d body) run'
  induction h generalizing rounds' ending' with
  | finished =>
    cases h'
    exact ⟨rfl, rfl⟩
  | goesOn taken run going _ ih =>
    rcases h'.of_takes taken with ⟨k, u, others, run', -, hothers, rfl⟩ | ⟨o, run', leaving', -⟩ | ⟨hlasts, -⟩
    · obtain ⟨-, rfl⟩ := Outcome.done.inj (hsame run run')
      obtain ⟨rfl, rfl⟩ := ih hothers
      exact ⟨rfl, rfl⟩
    · obtain rfl := hsame run run'
      simp [ofBody?_of_going going] at leaving'
    · exact absurd run (hlasts _)
  | leaves taken run leaving =>
    rcases h'.of_takes taken with ⟨k, u, others, run', going', -⟩ | ⟨o, run', leaving', rfl⟩ | ⟨hlasts, -⟩
    · obtain rfl := hsame run run'
      simp [ofBody?_of_going going'] at leaving
    · obtain rfl := hsame run run'
      exact ⟨rfl, Option.some.inj (leaving'.symm.trans leaving)⟩
    · exact absurd run (hlasts _)
  | lasts taken run =>
    rcases h'.of_takes taken with ⟨k, u, others, run', -⟩ | ⟨o, run', -⟩ | ⟨-, rfl, rfl⟩
    · exact absurd run' (run _)
    · exact absurd run' (run _)
    · exact ⟨rfl, rfl⟩
  | unbound undeclared unbound => exact h'.of_unbound undeclared unbound

/-- After the body of a round, a loop ends as its other rounds do, or as the body leaves it. -/
theorem bodyThen_iff {next : Engine → Action Completion} (hnext : Persistent next) {o : Outcome Completion} :
    EndsWith (fun e => bodyThen e c body (next e)) s o ↔
      (∃ k t, Performs c body s (.done k t) ∧ (k = .normal ∨ k = .continuing) ∧ EndsWith next t o) ∨
        ∃ o' ending, Performs c body s o' ∧ WalkEnding.ofBody? o' = some ending ∧ ending.outcome? = some o := by
  unfold bodyThen
  rw [EndsWith.bind_iff (.exec c body) (.loopExit hnext)]
  constructor
  · rintro (⟨k, t, hrun, hrest⟩ | ⟨f, t, hfails, rfl⟩)
    · cases k with
      | normal => exact .inl ⟨_, t, hrun, .inl rfl, hrest⟩
      | continuing => exact .inl ⟨_, t, hrun, .inr rfl, hrest⟩
      | breaking => exact .inr ⟨_, _, hrun, rfl, congrArg some (EndsWith.const_iff.mp hrest).1⟩
      | returning v => exact .inr ⟨_, _, hrun, rfl, congrArg some (EndsWith.const_iff.mp hrest).1⟩
    · cases f <;> exact .inr ⟨_, _, hfails, rfl, rfl⟩
  · rintro (⟨k, t, hrun, rfl | rfl, hrest⟩ | ⟨o', ending, hrun, hleaving, houtcome⟩)
    · exact .inl ⟨_, t, hrun, hrest⟩
    · exact .inl ⟨_, t, hrun, hrest⟩
    · cases o' with
      | done k t =>
        cases k with
        | normal => cases hleaving
        | continuing => cases hleaving
        | breaking =>
          obtain rfl := Option.some.inj hleaving
          exact .inl ⟨_, t, hrun, EndsWith.const_iff.mpr ⟨Option.some.inj houtcome, Option.some.inj houtcome ▸ nofun⟩⟩
        | returning v =>
          obtain rfl := Option.some.inj hleaving
          exact .inl ⟨_, t, hrun, EndsWith.const_iff.mpr ⟨Option.some.inj houtcome, Option.some.inj houtcome ▸ nofun⟩⟩
      | raised a t =>
        obtain rfl := Option.some.inj hleaving
        exact .inr ⟨.raised a, t, hrun, (Option.some.inj houtcome).symm⟩
      | escaped f t =>
        obtain rfl := Option.some.inj hleaving
        exact .inr ⟨.escaped f, t, hrun, (Option.some.inj houtcome).symm⟩
      | exhausted t => cases hleaving

/-- The rounds of a loop over elements end as they are told. -/
theorem forInRounds_iff {o : Outcome Completion} :
    EndsWith (fun e => forInRounds e c name declares body items) s o ↔
      ∃ rounds ending, Walks c name declares body items s rounds ending ∧ ending.outcome? = some o := by
  induction items generalizing s with
  | nil =>
    rw [show (fun e => forInRounds e c name declares body []) = fun _ => pure .normal from rfl, EndsWith.const_iff]
    constructor
    · rintro ⟨rfl, -⟩
      exact ⟨_, _, .finished, rfl⟩
    · rintro ⟨_, _, ⟨⟩, houtcome⟩
      obtain rfl := Option.some.inj houtcome
      exact ⟨rfl, nofun⟩
  | cons item rest ih =>
    have hrest : Persistent (fun e => forInRounds e c name declares body rest) := .forInRounds rest
    have hbody (d : Context) : Persistent (fun e => bodyThen e d body (forInRounds e c name declares body rest)) :=
      .bodyThen hrest body
    have hbinds : Persistent (fun _ => bindElement c name declares item) := .const _
    simp only [forInRounds_cons]
    rcases bindElement_cases c name declares item s with ⟨a, t, htaken, hbound⟩ | ⟨hfalse, hnone, hraised⟩
    · rw [EndsWith.bind_iff_of_done hbinds hbody (EndsWith.const_iff.mpr ⟨hbound, nofun⟩), bodyThen_iff hrest]
      constructor
      · rintro (⟨k, t', hrun, hgoing, hothers⟩ | ⟨o', ending, hrun, hleaving, houtcome⟩)
        · obtain ⟨rounds, ending, hothers, houtcome⟩ := ih.mp hothers
          exact ⟨_, _, .goesOn htaken hrun hgoing hothers, houtcome⟩
        · exact ⟨_, _, .leaves htaken hrun hleaving, houtcome⟩
      · rintro ⟨rounds, ending, hwalks, houtcome⟩
        rcases hwalks.of_takes htaken with ⟨k, t', others, run, going, hothers, -⟩ | ⟨o', run, leaving, -⟩ | ⟨-, -, rfl⟩
        · exact .inl ⟨_, _, run, going, ih.mpr ⟨_, _, hothers, houtcome⟩⟩
        · exact .inr ⟨_, _, run, leaving, houtcome⟩
        · cases houtcome
    · rw [EndsWith.bind_iff hbinds hbody]
      simp only [EndsWith.const_iff, hraised]
      constructor
      · rintro (⟨_, _, ⟨hdone, -⟩, -⟩ | ⟨f, t, ⟨hfails, -⟩, rfl⟩)
        · cases hdone
        · obtain ⟨rfl, rfl⟩ := Failure.outcome_inj (f := .raised s.errors.size) hfails
          exact ⟨_, _, .unbound hfalse hnone, rfl⟩
      · rintro ⟨rounds, ending, hwalks, houtcome⟩
        obtain ⟨-, rfl⟩ := hwalks.of_unbound hfalse hnone
        exact .inr ⟨.raised s.errors.size, _, ⟨rfl, nofun⟩, (Option.some.inj houtcome).symm⟩

theorem Store.HasElements.elementsOf? {v : Value} (h : t.HasElements v items) :
    elementsOf? v t = .done (some items) t := by
  cases h <;> rfl

/-- What a loop does with the elements that were found in a value. -/
def forInFound (e : Engine) (c : Context) (name : String) (declares : Bool) (body : Stmt) (v : Value) :
    Option (List Value) → Action Completion
  | some items => forInRounds e c name declares body items
  | none => fun s => mismatch (.notIterable (v.typeName s)) s

theorem execForIn_eq (e : Engine) (iterable : Expr) : execForIn e c name iterable body declares =
    e.eval c iterable >>= fun v => elementsOf? v >>= forInFound e c name declares body v := rfl

theorem Persistent.forInFound (v : Value) (found : Option (List Value)) :
    Persistent (fun e => forInFound e c name declares body v found) := by
  cases found with
  | none => exact .const _
  | some items => exact .forInRounds items

/-- A loop over elements runs its rounds over those that the collection has when it is entered. -/
theorem performs_forIn_iff {l : Location} {iterable : Expr} {v : Value} {o : Outcome Completion}
    (hvalue : Evaluates c iterable s (.done v t)) (hitems : t.HasElements v items)
    (hwalks : Walks c name declares body items t rounds ending) :
    Performs c (.forIn l name iterable body declares) s o ↔ ∃ o', ending.outcome? = some o' ∧ o'.Leaves c.depth l o := by
  have hform : Persistent (fun e => execForIn e c name iterable body declares) := by
    simp only [execForIn_eq]
    exact (Persistent.eval c iterable).bind fun u => (Persistent.const _).bind (.forInFound u)
  have hforms (o' : Outcome Completion) :
      EndsWith (fun e => execForIn e c name iterable body declares) s o' ↔ ending.outcome? = some o' := by
    have hfound : EndsWith (fun _ => elementsOf? v) t (.done (some items) t) :=
      EndsWith.const_iff.mpr ⟨hitems.elementsOf?, Outcome.ended_done _ _⟩
    simp only [execForIn_eq]
    rw [EndsWith.bind_iff_of_done (.eval c iterable) (fun u => (Persistent.const _).bind (.forInFound u)) hvalue,
      EndsWith.bind_iff_of_done (.const (elementsOf? v)) (.forInFound v) hfound]
    refine forInRounds_iff.trans ⟨?_, fun houtcome => ⟨_, _, hwalks, houtcome⟩⟩
    rintro ⟨rounds', ending', hwalks', houtcome⟩
    obtain ⟨rfl, rfl⟩ := hwalks.unique hwalks'
    exact houtcome
  have hplaced : EndsWith (fun e => execStmt e c (.forIn l name iterable body declares)) s o ↔
      ∃ o', EndsWith (fun e => execForIn e c name iterable body declares) s o' ∧ o'.Leaves c.depth l o :=
    EndsWith.within_iff hform
  rw [Performs, EndsWith.exec_iff, hplaced]
  simp only [hforms]

/-! ### What the rounds take -/

theorem ofBody?_ne_finished {o : Outcome Completion} (t : Store) : WalkEnding.ofBody? o ≠ some (.finished t) := by
  cases o with
  | done k => cases k <;> nofun
  | _ => nofun

/-- The rounds take the first elements in order, each once. -/
theorem Walks.items_first (h : Walks c name declares body items s rounds ending) :
    rounds.map ElementRound.item <+: items := by
  induction h with
  | finished => exact List.prefix_rfl
  | goesOn _ _ _ _ ih => exact List.cons_prefix_cons.mpr ⟨rfl, ih⟩
  | leaves => exact List.cons_prefix_cons.mpr ⟨rfl, List.nil_prefix⟩
  | lasts => exact List.cons_prefix_cons.mpr ⟨rfl, List.nil_prefix⟩
  | unbound => exact List.nil_prefix

/-- A loop that no round leaves takes all elements. -/
theorem Walks.items_eq (h : Walks c name declares body items s rounds (.finished t)) :
    rounds.map ElementRound.item = items := by
  generalize hfinished : WalkEnding.finished t = ending at h
  induction h with
  | finished => rfl
  | goesOn _ _ _ _ ih => exact congrArg (List.cons _) (ih hfinished)
  | leaves _ _ leaving => exact absurd (hfinished ▸ leaving) (ofBody?_ne_finished t)
  | lasts => cases hfinished
  | unbound => cases hfinished

/-! ### Scopes of rounds -/

/-- A store that a run comes to from another one: all scopes are there, inside the same ones, and no name has gone. -/
def Store.Precedes (s t : Store) : Prop := s.Extends t fun _ _ => True

theorem Store.Precedes.refl (s : Store) : s.Precedes s := Extends.refl s _

theorem Store.Precedes.trans {u : Store} (h : s.Precedes t) (h' : t.Precedes u) : s.Precedes u := Extends.trans h h'

theorem Performs.precedes {x : Stmt} {o : Outcome Completion} (h : Performs c x s o) : s.Precedes o.store := by
  obtain ⟨-, level, rfl⟩ := h
  exact (Discipline.scoping_exec level c x).mono fun _ _ _ => trivial

theorem Evaluates.precedes {x : Expr} {o : Outcome Value} (h : Evaluates c x s o) : s.Precedes o.store := by
  obtain ⟨-, level, rfl⟩ := h
  have hsame := (scopes_gain_only_declared_names level c s).1 x
  exact ⟨hsame.size, hsame.parent, fun a ha => ⟨[], by rw [hsame.names a ha, List.append_nil], nofun⟩⟩

theorem Evaluates.nested {x : Expr} {o : Outcome Value} (h : Evaluates c x s o) (hs : s.Nested)
    (hc : c.scope < s.scopes.size) : o.store.Nested := by
  obtain ⟨-, level, rfl⟩ := h
  exact hs.eval hc level x

/-- A round with a scope that has been made for it since a store, inside the scope of the loop and with nothing but the
variable in it. -/
structure ElementRound.Fresh (c : Context) (name : String) (s : Store) (r : ElementRound) : Prop where
  later : s.Precedes r.store
  unused : s.scopes.size ≤ r.scope
  made : r.scope < r.store.scopes.size
  begins : r.store.scope r.scope = ⟨some c.scope, [(name, r.item)], none⟩

theorem Takes.fresh {item : Value} {a : Address} (h : Takes c name true item s a t) :
    ElementRound.Fresh c name s ⟨item, a, t⟩ := by
  cases h with
  | declared =>
    refine ⟨?_, Nat.le_refl _, by simp, by simp [Store.scope]⟩
    rw [← declare_enter]
    exact ((Store.Extends.refl s _).enter c.scope).declare item (absurd · (Nat.lt_irrefl _))

theorem ElementRound.Fresh.before {r : ElementRound} (h : r.Fresh c name t) (hst : s.Precedes t) : r.Fresh c name s :=
  ⟨hst.trans h.later, Nat.le_trans hst.size h.unused, h.made, h.begins⟩

theorem Walks.fresh (h : Walks c name true body items s rounds ending) : ∀ r ∈ rounds, r.Fresh c name s := by
  induction h with
  | finished => exact fun r hr => absurd hr List.not_mem_nil
  | goesOn taken run _ _ ih =>
    refine List.forall_mem_cons.mpr ⟨taken.fresh, fun r hr => ?_⟩
    exact (ih r hr).before (taken.fresh.later.trans run.precedes)
  | leaves taken => exact List.forall_mem_singleton.mpr taken.fresh
  | lasts taken => exact List.forall_mem_singleton.mpr taken.fresh
  | unbound undeclared => cases undeclared

/-- Later rounds have newer scopes. -/
theorem Walks.ordered (h : Walks c name true body items s rounds ending) :
    rounds.Pairwise (fun r r' => r.scope < r'.scope ∧ r.store.Precedes r'.store) := by
  induction h with
  | finished => exact .nil
  | goesOn taken run _ others ih =>
    refine .cons (fun r' hr' => ?_) ih
    have hr' := others.fresh r' hr'
    exact ⟨Nat.lt_of_lt_of_le taken.fresh.made (Nat.le_trans run.precedes.size hr'.unused), run.precedes.trans hr'.later⟩
  | leaves => exact List.pairwise_singleton _ _
  | lasts => exact List.pairwise_singleton _ _
  | unbound => exact .nil

theorem store?_of_ofBody? {o : Outcome Completion} {u : Store} (h : WalkEnding.ofBody? o = some ending)
    (hu : ending.store? = some u) : u = o.store := by
  cases o with
  | done k t => cases k <;> cases h <;> exact (Option.some.inj hu).symm
  | raised a t => cases h; exact (Option.some.inj hu).symm
  | escaped f t => cases h; exact (Option.some.inj hu).symm
  | exhausted t => cases h

/-- What the loop leaves behind comes after all rounds. -/
theorem Walks.precedes_end {u : Store} (h : Walks c name true body items s rounds ending) (hu : ending.store? = some u) :
    s.Precedes u ∧ ∀ r ∈ rounds, r.store.Precedes u := by
  induction h with
  | finished =>
    obtain rfl := Option.some.inj hu
    exact ⟨.refl _, fun r hr => absurd hr List.not_mem_nil⟩
  | goesOn taken run _ _ ih =>
    obtain ⟨hlater, hrounds⟩ := ih hu
    have hbody := run.precedes.trans hlater
    exact ⟨taken.fresh.later.trans hbody, List.forall_mem_cons.mpr ⟨hbody, hrounds⟩⟩
  | leaves taken run leaving =>
    obtain rfl := store?_of_ofBody? leaving hu
    exact ⟨taken.fresh.later.trans run.precedes, List.forall_mem_singleton.mpr run.precedes⟩
  | lasts => cases hu
  | unbound undeclared => cases undeclared

/-! ### Assignments out of sight -/

/-- Nothing that is looked up from a scope shows an assignment to a name that another scope binds, wherever that
assignment is made. -/
def Store.Unseen (u : Store) (owner d : Address) : Prop :=
  ∀ (a : Address) (x : String) (w : Value) (u' : Store), u.owner? a x = some owner → u.update? a x w = some u' →
    ∀ y, u'.lookup? d y = u.lookup? d y

theorem unseen_of_not_mem {u : Store} {owner d : Address} (h : owner ∉ u.chain d) : u.Unseen owner d := by
  intro a x w u' howner hupdate y
  obtain ⟨owner', howner', rfl⟩ := Option.map_eq_some_iff.mp hupdate
  obtain rfl := Option.some.inj (howner.symm.trans howner')
  exact Store.lookup?_declare h x w y

section Unseen

variable {r r' : ElementRound} {u : Store}

/-- From a scope that was there before the loop. -/
theorem ElementRound.Fresh.unseen_outside (hs : s.Descends) (hr : r.Fresh c name s) (hu : r.store.Precedes u) {d : Address}
    (hd : d < s.scopes.size) : u.Unseen r.scope d := by
  have hclosed : u.ClosedUpTo s.scopes.size := (hr.later.trans hu).closedUpTo hs
  exact unseen_of_not_mem fun hmem => absurd (hclosed.of_mem_chainFrom hd hmem) (Nat.not_lt.mpr hr.unused)

/-- From a scope inside that of another round. -/
theorem ElementRound.Fresh.unseen_inside (hs : s.Descends) (hc : c.scope < s.scopes.size) (hr : r.Fresh c name s)
    (hr' : r'.Fresh c name s) (hne : r'.scope ≠ r.scope) (hu : r.store.Precedes u) (hu' : r'.store.Precedes u)
    {d : Address} (hd : r'.scope ∈ u.chain d) :
    u.Unseen r.scope d := by
  have hclosed : u.ClosedUpTo s.scopes.size := (hr.later.trans hu).closedUpTo hs
  have hparent : (u.scope r.scope).parent = some c.scope := by rw [hu.parent _ hr.made, hr.begins]
  have hparent' : (u.scope r'.scope).parent = some c.scope := by rw [hu'.parent _ hr'.made, hr'.begins]
  exact unseen_of_not_mem (hclosed.not_mem_chainFrom hc hparent hparent' hr.unused hr'.unused hne.symm hd)

end Unseen

/-- Rounds each of which has a scope made for it: later ones have newer scopes, and what is assigned in the scope of one
round, during the loop or at any time after it, is seen neither from inside the scope of another round, where the
functions made there belong, nor from a scope that was there before. -/
structure RoundsApart (c : Context) (name : String) (s : Store) (rounds : List ElementRound) : Prop where
  fresh : ∀ r ∈ rounds, r.Fresh c name s
  ordered : rounds.Pairwise (fun r r' => r.scope < r'.scope ∧ r.store.Precedes r'.store)
  inside : ∀ r ∈ rounds, ∀ r' ∈ rounds, r'.scope ≠ r.scope → ∀ u, r.store.Precedes u → r'.store.Precedes u →
    ∀ d, r'.scope ∈ u.chain d → u.Unseen r.scope d
  outside : ∀ r ∈ rounds, ∀ u, r.store.Precedes u → ∀ d < s.scopes.size, u.Unseen r.scope d

theorem Walks.apart (hs : s.Descends) (hc : c.scope < s.scopes.size)
    (h : Walks c name true body items s rounds ending) : RoundsApart c name s rounds where
  fresh := h.fresh
  ordered := h.ordered
  inside r hr r' hr' hne _ hu hu' _ hd := (h.fresh r hr).unseen_inside hs hc (h.fresh r' hr') hne hu hu' hd
  outside r hr _ hu _ hd := (h.fresh r hr).unseen_outside hs hu hd

/-- A loop over the elements of a list, an iterable or a set. There is one way through it, and the loop ends as this
way does, unless it never ends. Its rounds take in order, each once, the first of the elements that the collection has
when the loop is entered, and all of them unless a round leaves the loop or never ends. If the loop declares its
variable, each round has it in a scope that is made for the round, and no round sees what another one assigns
there. -/
theorem element_loops_take_what_was_there {l : Location} {iterable : Expr} {v : Value} (hs : s.Nested)
    (hc : c.scope < s.scopes.size) (hvalue : Evaluates c iterable s (.done v t)) (hitems : t.HasElements v items) :
    ∃ rounds ending, Walks c name declares body items t rounds ending ∧
      (∀ rounds' ending', Walks c name declares body items t rounds' ending' → rounds' = rounds ∧ ending' = ending) ∧
      (∀ o, Performs c (.forIn l name iterable body declares) s o ↔
        ∃ o', ending.outcome? = some o' ∧ o'.Leaves c.depth l o) ∧
      rounds.map ElementRound.item <+: items ∧
      ((∃ t', ending = .finished t') → rounds.map ElementRound.item = items) ∧
      (declares = true → RoundsApart c name t rounds ∧ ∀ u, ending.store? = some u → ∀ r ∈ rounds, r.store.Precedes u) := by
  obtain ⟨rounds, ending, hwalks⟩ := exists_walks c name declares body items t
  refine ⟨rounds, ending, hwalks, fun _ _ => hwalks.unique, fun o => performs_forIn_iff hvalue hitems hwalks,
    hwalks.items_first, ?_, ?_⟩
  · rintro ⟨t', rfl⟩
    exact hwalks.items_eq
  · rintro rfl
    have ht : t.Nested := hvalue.nested hs hc
    have hct : c.scope < t.scopes.size := Nat.lt_of_lt_of_le hc hvalue.precedes.size
    exact ⟨hwalks.apart ht.1 hct, fun u hu => (hwalks.precedes_end hu).2⟩

end Runs

end

/-- `for (var x in [true, false]);` has two rounds, each with a scope of its own. -/
theorem element_loops_take_what_was_there_twice :
    let c : Context := ⟨rootScope, 0⟩
    let items : Expr := .listLiteral none [.plain (.boolLiteral none true), .plain (.boolLiteral none false)] []
    ∃ t rounds, Evaluates c items Store.initial (.done (.list 0) t) ∧
      (∃ u, Walks c "x" true (.empty none) [.bool true, .bool false] t rounds (.finished u)) ∧
      rounds.map ElementRound.item = [.bool true, .bool false] ∧ rounds.map ElementRound.scope = [1, 2] ∧
      RoundsApart c "x" t rounds := by
  intro c items
  have hvalue : ∃ t, Evaluates c items Store.initial (.done (.list 0) t) ∧ t.scopes = Store.initial.scopes ∧
      t.HasElements (.list 0) [.bool true, .bool false] := ⟨_, ⟨nofun, 2, rfl⟩, rfl, .list 0⟩
  obtain ⟨t, hvalue, hscopes, hitems⟩ := hvalue
  have hempty (d : Context) (u : Store) : Performs d (.empty none) u (.done .normal u) := ⟨nofun, 1, rfl⟩
  have hroot : c.scope < Store.initial.scopes.size := by decide
  obtain ⟨rounds, ending, hwalks, hunique, -, -, hall, happart⟩ :=
    @element_loops_take_what_was_there _ c "x" true (.empty none) _ t _ none items _ Store.Nested.initial hroot hvalue hitems
  obtain ⟨rfl, rfl⟩ := hunique _ _
    (.goesOn .declared (hempty _ _) (.inl rfl) (.goesOn .declared (hempty _ _) (.inl rfl) .finished))
  refine ⟨t, _, hvalue, ⟨_, hwalks⟩, hall ⟨_, rfl⟩, ?_, (happart rfl).1⟩
  simp [hscopes, Store.initial_scopes]

end Dartlet
