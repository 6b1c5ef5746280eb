import Dartlet.Host.Standard
import Dartlet.Proofs.Evaluation.Lasting
import Dartlet.Proofs.Evaluation.Places
import Dartlet.Proofs.Parallel.Self

/-!
# Raising again the error of the clause around

A `rethrow` looks for the error on the way outward from the scope where it runs, whatever has been
entered and left since. In the text it stands inside a catch clause of the same function. Beside the
interpreter stands one that is told, whenever it runs a clause, the error that the clause handles, and
forgets it where a function begins; it never looks at scopes to raise an error again. On the trees that
are read from texts the two do exactly the same.
-/

namespace Dartlet

open Dartlet.Action
open Dartlet.Syntax (CatchClause Enclosing Expr FunctionBody Node Stmt)

set_option linter.unusedSectionVars false

section

variable [Host]

/-! ### Clauses by the text -/

/-- Raise again the error that one is told of. -/
def rethrowKnown : Option Address → Action Completion
  | some error => raise error
  | none => fail .rethrowOutsideCatch

/-- Execute a statement where the innermost clause around it, if there is one, handles a given error.
The clauses of the statement are run by an engine that is told of the error. -/
def lexicalForm (e : Engine) (told : Address → Engine) (handler : Option Address) (c : Context) :
    Stmt → Action Completion
  | .trying _ body clauses finallyBlock =>
    ensuring e c finallyBlock (handlingBy (fun error => runClause (told error) c error) clauses (e.exec c body))
  | .rethrowing _ => rethrowKnown handler
  | x => execForm e c x

/-- The engine with some number of levels, inside a clause that handles a given error, if inside any. A
function that is called is inside no clause. -/
def lexical : Nat → Option Address → Engine
  | 0, _ => ⟨fun _ _ => exhaust, fun _ _ => exhaust, fun _ _ _ => exhaust, 0⟩
  | level + 1, handler =>
    { eval := fun c x => evalExpr (lexical level handler) c x
      exec := fun c x => within ((lexical level handler).caller c.depth) x.location
        (lexicalForm (lexical level handler) (fun error => lexical level (some error)) handler c x)
      call := fun depth f arguments => callValue (lexical level none) depth f arguments
      rounds := level }

/-! ### The way outward -/

namespace Store

theorem handledFrom?_succ (s : Store) {limit : Nat} {a error : Address} (h : s.handledFrom? limit a = some error) :
    s.handledFrom? (limit + 1) a = some error := by
  induction limit generalizing a with
  | zero => cases h
  | succ limit ih =>
    unfold handledFrom? at h ⊢
    split
    · simp_all
    · rename_i hactive
      rw [hactive] at h
      cases hparent : (s.scope a).parent with
      | none => simp [hparent] at h
      | some p =>
        simp only [hparent] at h
        exact ih h

theorem handledFrom?_mono (s : Store) {limit limit' : Nat} (hle : limit ≤ limit') {a error : Address}
    (h : s.handledFrom? limit a = some error) : s.handledFrom? limit' a = some error := by
  induction hle with
  | refl => exact h
  | step _ ih => exact s.handledFrom?_succ ih

end Store

namespace Comparison

variable {w : Comparison} {s s' : Store}

/-- Where a scope has been, it stays, with the error that it remembers. -/
theorem Later.scope (h : w.Later s s') {a : Nat} (ha : a < s.scopes.size) :
    (s'.scope a).parent = (s.scope a).parent ∧ (s'.scope a).activeError = (s.scope a).activeError := by
  obtain ⟨y, hy, hparent, hactive⟩ := h.scopes a _ (Array.getElem?_eq_getElem ha)
  simp only [Store.scope, Array.getElem?_eq_getElem ha, hy, Option.getD_some]
  exact ⟨hparent, hactive⟩

theorem Later.handledFrom? (h : w.Later s s') {limit : Nat} {a error : Nat}
    (herror : s.handledFrom? limit a = some error) : s'.handledFrom? limit a = some error := by
  induction limit generalizing a with
  | zero => cases herror
  | succ limit ih =>
    by_cases ha : a < s.scopes.size
    · obtain ⟨hparent, hactive⟩ := h.scope ha
      unfold Store.handledFrom? at herror ⊢
      rw [hparent, hactive]
      cases hs : (s.scope a).activeError with
      | some e => simpa [hs] using herror
      | none =>
        cases hp : (s.scope a).parent with
        | none => simp [hs, hp] at herror
        | some p =>
          simp only [hs, hp] at herror
          exact ih herror
    · -- there is no such scope, so nothing is handled there
      have hnone : s.scopes[a]? = none := Array.getElem?_eq_none (Nat.not_lt.mp ha)
      simp [Store.handledFrom?, Store.scope, hnone] at herror

theorem Later.handledError? (h : w.Later s s') {a error : Nat} (herror : s.handledError? a = some error) :
    s'.handledError? a = some error :=
  s'.handledFrom?_mono h.scopes_size (h.handledFrom? herror)

end Comparison

/-- A new scope is inside whatever clause the scope around it is in. -/
theorem Store.handledError?_enter (s : Store) {a error : Nat} (h : s.handledError? a = some error) :
    (s.enter a).2.handledError? (s.enter a).1 = some error := by
  have hlater : (Comparison.exact false false (fun _ => True)).Later s (s.enter a).2 := Comparison.later_enter s a
  have hsize : (s.enter a).2.scopes.size = s.scopes.size + 1 := by simp [Store.enter, Store.addScope]
  have hnew : (s.enter a).2.scope (s.enter a).1 = ⟨some a, [], none⟩ := by
    simp [Store.enter, Store.addScope, Store.scope]
  unfold Store.handledError?
  rw [hsize, Store.handledFrom?, hnew]
  exact hlater.handledFrom? h

/-- The scope of a clause remembers the error of the clause. -/
theorem handledError?_openClause (s : Store) (parent error : Nat) (exceptionName traceName : Option String) :
    (openClause s parent error exceptionName traceName).handledError? (s.enter parent).1 = some error := by
  have hmarked : ((s.enter parent).2.setActiveError (s.enter parent).1 error).handledError? (s.enter parent).1 =
      some error := by
    have hscope : ((s.enter parent).2.setActiveError (s.enter parent).1 error).scope (s.enter parent).1 =
        ⟨some parent, [], some error⟩ := by
      simp only [Store.setActiveError, Store.enter, Store.addScope, Store.scope, Array.getElem?_modify]
      simp
    have hsize : ((s.enter parent).2.setActiveError (s.enter parent).1 error).scopes.size = s.scopes.size + 1 := by
      simp [Store.setActiveError, Store.enter, Store.addScope]
    rw [Store.handledError?, hsize, Store.handledFrom?, hscope]
  have hlater : (Comparison.exact false false (fun _ => True)).Later
      ((s.enter parent).2.setActiveError (s.enter parent).1 error)
      (openClause s parent error exceptionName traceName) := Comparison.later_declareAll _ _ _
  exact hlater.handledError? hmarked

/-! ### The two interpreters -/

namespace Comparison

/-- The comparison of an interpreter with one that is told the errors of clauses. -/
def rethrowing : Comparison := exact false true (fun b => b.jumpError = none)

/-- The constructs that stand inside a clause that handles a given error, if inside any. -/
def inClause (handler : Option Address) : rethrowing.Manner where
  Tree n := n.jumpError ⟨true, handler.isSome⟩ = none
  Here s a := ∀ error, handler = some error → s.handledError? a = some error
  part {n m} hn hhandler hm := by
    have hparts := ((n.jumpError_eq_none _).mp hn).2 m hm
    cases n with
    | clause k => cases hhandler
    | body b => cases hhandler
    | stmt x =>
      simp only [Node.inside] at hparts
      split at hparts <;> exact hparts
    | _ => exact hparts
  fit hb := hb
  names _ _ := rfl
  writes := nofun
  bounded h := absurd rfl h
  later hhere hlater error herror := hlater.handledError? (hhere error herror)
  enter hhere error herror := Store.handledError?_enter _ (hhere error herror)

theorem inClause_opens : (inClause none).Opens where
  body {b n} hb hn := by
    have hparts := ((Node.jumpError_eq_none .nothing (.body b)).mp hb).2 n hn
    exact n.jumpError_mono (Enclosing.nothing_le _) hparts
  here _ error herror := nomatch herror

/-- Statements that handle errors, with an interpreter that finds the errors in scopes and one that is
told of them. -/
theorem alike_lexicalForm {s t : Store} {e e' : Engine} {told : Address → Engine} {handler : Option Address} {c : Context}
    (h : rethrowing.Agrees (inClause handler) e e')
    (htold : ∀ error, rethrowing.Agrees (inClause (some error)) e (told error)) {x : Stmt}
    (hx : (inClause handler).Tree (.stmt x)) (hhere : (inClause handler).Here s c.scope) :
    rethrowing.Alike false rethrowing.Com s t (execForm e c x) (lexicalForm e' told handler (rethrowing.move c) x) := by
  cases x with
  | trying l body clauses finallyBlock =>
    have hpart {n : Node} (hn : n ∈ (Stmt.trying l body clauses finallyBlock).children) : (inClause handler).Tree n :=
      (inClause handler).part hx rfl hn
    have hbody : (inClause handler).Tree (.stmt body) := hpart (by simp [Stmt.children])
    refine alike_ensuring h (fun y hy => ?_) hhere
      (alike_handlingBy (h.exec hbody hhere) (fun s' t' error k hk hf herror => ?_))
    · obtain rfl : finallyBlock = some y := hy
      exact hpart (by simp [Stmt.children])
    · have hclause : (inClause handler).Tree (.clause k) := hpart (by simp [Stmt.children, hk])
      have hinside : (inClause (some error)).Tree (.stmt k.body) := by
        cases k
        exact hclause
      have hrun := alike_runClause (t := t') (c := c) (htold error) herror hinside (fun _ _ => rfl) (fun h => absurd rfl h)
        (fun exceptionName traceName error' herror' => by
          obtain rfl := Option.some.inj herror'
          exact handledError?_openClause s' c.scope error exceptionName traceName)
      have hsame : rethrowing.shifts.error.apply error = error := Shift.apply_stay error
      rw [hsame] at hrun ⊢
      exact hrun
  | rethrowing l =>
    cases handler with
    | none => exact absurd (Stmt.lands_of_jumpError hx) Bool.false_ne_true
    | some error =>
      intro hst
      have hraise : rethrowing.Alike false rethrowing.Com s t (raise error)
          (raise (rethrowing.shifts.error.apply error)) := alike_raise (fun h => by cases h)
      have hsame : rethrowing.shifts.error.apply error = error := Shift.apply_stay error
      rw [hsame] at hraise
      simp only [execForm, execRethrow, hhere error rfl, lexicalForm, rethrowKnown]
      exact hraise hst
  | _ => exact alike_plainForm h hx rfl hhere

theorem agrees_lexical (level : Nat) (handler : Option Address) :
    rethrowing.Agrees (inClause handler) (interpreter level) (lexical level handler) := by
  induction level generalizing handler with
  | zero => exact ⟨fun _ _ => settled_exhaust, fun _ _ => settled_exhaust, fun _ _ => alike_exhaust, .inl rfl⟩
  | succ level ih =>
    refine ⟨fun hx hhere => ?_, fun hx hhere => ?_, fun _ hargs => ?_, .inl rfl⟩
    · exact Alike.within ((ih handler).caller _) rfl _ (alike_evalForm (ih handler) hx hhere)
    · exact Alike.within ((ih handler).caller _) rfl _ (alike_lexicalForm (ih handler) (fun error => ih (some error)) hx hhere)
    · exact alike_callValue (ih none) inClause_opens _ hargs

end Comparison

/-! ### All runs -/

theorem Comparison.tree_of_accepted {n : Node} (hn : n.Accepted) : (inClause none).Tree n :=
  n.jumpError_mono (Enclosing.nothing_le _) hn.lands

/-- A store from which no run can miss the clause of a `rethrow`. -/
structure Store.Rethrows (s : Store) : Prop where
  closures : ∀ f ∈ s.closures, f.body.jumpError = none
  faults : Fault.rethrowOutsideCatch ∉ s.faults

namespace Store.Rethrows

variable {s t : Store}

open Comparison

theorem parallel (h : s.Rethrows) : rethrowing.Parallel s s := by
  refine tables_self (exact_known s) h.closures (fun _ _ _ _ => rfl) (fun _ e he heq => h.faults ?_)
  rw [← heq]
  exact List.mem_map_of_mem he.val

theorem of_parallel (h : rethrowing.Parallel s t) : s.Rethrows where
  closures := forall_mem_of_corresponds h.closures (fun _ _ hfg => hfg.fit)
  faults hfault := by
    obtain ⟨e, he, heq⟩ := List.mem_map.mp hfault
    exact forall_mem_of_corresponds h.errors (fun _ _ hee' => hee'.handled rfl) e (Array.mem_toList_iff.mp he) heq

/-- What runs alike leaves such a store behind, however it ends. -/
theorem keeps {α β : Type} {Q : Store → Store → α → β → Prop} {x : Action α} {y : Action β}
    (h : ∀ s, rethrowing.Alike false Q s s x y) : Keeps Store.Rethrows x := by
  intro s hs
  have hmatches := h s hs.parallel
  generalize x s = o at hmatches ⊢
  generalize y s = o' at hmatches
  cases hmatches with
  | done _ hf => exact ⟨trivial, of_parallel hf.parallel⟩
  | raised _ hf => exact of_parallel hf.parallel
  | escaped _ hf => exact of_parallel hf.parallel
  | exhausted hf => exact of_parallel hf.parallel
  | gaveUp hw => cases hw

theorem lasting : Lasting Store.Rethrows where
  fresh hclosures herrors := ⟨by simp [hclosures], by simp [Store.faults, herrors]⟩
  same h hclosures hfaults := ⟨hclosures ▸ h.closures, hfaults ▸ h.faults⟩
  raising hf h := by
    refine ⟨h.closures, fun hmem => ?_⟩
    rw [Store.faults_addError] at hmem
    rcases List.mem_append.mp hmem with hmem | hmem
    · exact h.faults hmem
    · rw [← List.mem_singleton.mp hmem] at hf
      cases hf
  eval c x hx := keeps (fun s => ((agrees_lexical levelLimit none).eval (tree_of_accepted hx) nofun).alike)
  exec c x hx := keeps (fun s => ((agrees_lexical levelLimit none).exec (tree_of_accepted hx) nofun).alike)
  call depth f arguments := keeps (fun s => (agrees_lexical levelLimit none).call
    (Value.known_of_forall (exact_known s) f) (fun v _ => Value.known_of_forall (exact_known s) v))

end Store.Rethrows

/-- Whatever a host has run, no error ever says that a `rethrow` is outside of a clause. From there,
running anything that is read from a text, or calling any function, does exactly what it does where
each `rethrow` raises the error that the innermost clause around it in its function is handling: it ends
the same way, with the same result or error, and leaves the same store. Like every error that leaves a statement,
the one that is raised is told the place of the `rethrow`, by what a program has assigned as its `attach_location`, if it
has. -/
theorem rethrow_raises_the_error_of_its_clause {s : Store} (hs : s.Reached) :
    Fault.rethrowOutsideCatch ∉ s.faults ∧
    ∀ (level : Nat) (c : Context),
      (∀ x : Stmt, (Node.stmt x).Accepted → (interpreter level).exec c x s = (lexical level none).exec c x s) ∧
      (∀ x : Expr, (Node.expr x).Accepted → (interpreter level).eval c x s = (lexical level none).eval c x s) ∧
      ∀ (f : Value) (arguments : List Value),
        (interpreter level).call c.depth f arguments s = (lexical level none).call c.depth f arguments s := by
  have hrethrows := Store.Rethrows.lasting.reached hs
  refine ⟨hrethrows.faults, fun level c => ?_⟩
  have hagrees := Comparison.agrees_lexical level none
  have hmove : Comparison.rethrowing.move c = c := Comparison.move_exact c
  refine ⟨fun x hx => ?_, fun x hx => ?_, fun f arguments => ?_⟩
  · have hmatches := hagrees.exec (c := c) (Comparison.tree_of_accepted hx) nofun hrethrows.parallel
    rw [hmove] at hmatches
    exact (Comparison.eq_of_matches (fun _ _ _ _ => Comparison.Com.eq) hmatches).symm
  · have hmatches := hagrees.eval (c := c) (Comparison.tree_of_accepted hx) nofun hrethrows.parallel
    rw [hmove] at hmatches
    exact (Comparison.eq_of_matches (fun _ _ _ _ => Comparison.Val.eq) hmatches).symm
  · have hknown (v : Value) : v.Known (Comparison.rethrowing.Known s) :=
      Value.known_of_forall (Comparison.exact_known s) v
    have halike : Comparison.rethrowing.Alike false Comparison.rethrowing.Val s s
        ((interpreter level).call c.depth f arguments) _ := hagrees.call (hknown f) (fun v _ => hknown v)
    have hf : f.shift Comparison.rethrowing.shifts = f := f.shift_stay
    have harguments : arguments.map (Value.shift Comparison.rethrowing.shifts) = arguments := by
      simp [Comparison.rethrowing, Comparison.exact, Comparison.apart, funext Value.shift_stay]
    rw [hf, harguments] at halike
    exact (Comparison.eq_of_matches (fun _ _ _ _ => Comparison.Val.eq) (halike hrethrows.parallel)).symm

end

/-- A clause that has handled another error in between, and a function that it has called. -/
theorem rethrow_raises_the_error_of_its_clause_main :
    let source := "f() \x7b try \x7b b; \x7d catch (e) \x7b \x7d \x7d main() \x7b try \x7b a; \x7d catch (e) \x7b f(); rethrow; \x7d \x7d"
    let s := (runMain source [] Store.initial).store
    Fault.rethrowOutsideCatch ∉ s.faults ∧
    ∀ (f : Value) (arguments : List Value),
      (interpreter levelLimit).call 0 f arguments s = (lexical levelLimit none).call 0 f arguments s :=
  have h := rethrow_raises_the_error_of_its_clause (.main _ _ (.fresh rfl rfl))
  ⟨h.1, (h.2 levelLimit ⟨0, 0⟩).2.2⟩

/-- In `catch (e) { e.attach_location = (line, column) => throw 'x'; rethrow; }` another error leaves the `rethrow` than
the one that the clause is handling. -/
theorem assigned_methods_replace_rethrown_errors :
    let s := ((interpreter 12).exec ⟨rootScope, 0⟩ lookingUp Store.initial).store
    let c : Context := ⟨(s.enter rootScope).1, 0⟩
    let t := ((interpreter 12).eval c (telling "e" (.throwing none (.stringLiteral none "x")))
      (openClause s rootScope 0 (some "e") none)).store
    (t.scope c.scope).activeError = some 0 ∧ ∃ u, (interpreter 12).exec c (.rethrowing none) t = .raised 1 u := by
  intro s c t
  have hruns : (t.scope c.scope).activeError = some 0 ∧
      ((interpreter 12).exec c (.rethrowing none) t).report? = some (1, "") := by
    decide +kernel
  obtain ⟨u, hraised, -⟩ := Outcome.of_report? hruns.2
  exact ⟨hruns.1, u, hraised⟩

end Dartlet
