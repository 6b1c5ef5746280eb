import Dartlet.Host.Standard
import Dartlet.Proofs.Evaluation.Lasting

/-!
# Equal keys never occur

Every construct and every member that makes or changes a set or a map leaves no two equal members and no
two equal keys in it, also when functions of the program change the same set or map in between. So the
collections of all stores that runs pass through are without equal keys.
-/

namespace Dartlet

open Dartlet.Action
open Dartlet.Syntax (Expr Stmt)

set_option linter.unusedSectionVars false

section

variable [Host]

/-- The stores that runs pass through: wherever a construct, a call, a member, a conversion or a whole
program begins or ends, also one for which the levels do not suffice. -/
inductive Store.Visited : Store → Prop
  /-- A store without sets and maps. -/
  | fresh {s : Store} : s.sets = #[] → s.maps = #[] → Visited s
  /-- An expression is evaluated. -/
  | eval {s : Store} (level : Nat) (c : Context) (x : Expr) : Visited s → Visited ((interpreter level).eval c x s).store
  /-- A statement is executed. -/
  | exec {s : Store} (level : Nat) (c : Context) (x : Stmt) : Visited s → Visited ((interpreter level).exec c x s).store
  /-- A function is called. -/
  | call {s : Store} (level depth : Nat) (f : Value) (arguments : List Value) :
    Visited s → Visited ((interpreter level).call depth f arguments s).store
  /-- A getter is read. -/
  | getter {s : Store} (receiver : Value) (g : Getter) : Visited s → Visited (g.read receiver s).store
  /-- A method is run. -/
  | method {s : Store} (level depth : Nat) (receiver : Value) (arguments : List Value) (m : Method) :
    Visited s → Visited (m.run ((interpreter level).caller depth) receiver arguments s).store
  /-- Data of the host is taken over. -/
  | conversion {s : Store} (data : HostValue) : Visited s → Visited (fromHost data s).store
  /-- The declarations of a program are run. -/
  | unit {s : Store} (source : String) : Visited s → Visited (runUnit source s).store
  /-- A program is run. -/
  | main {s : Store} (source : String) (arguments : List String) :
    Visited s → Visited (runMain source arguments s).store
  /-- The text of an expression is evaluated. -/
  | expression {s : Store} (source : String) : Visited s → Visited (evalText source s).store
  /-- An input of a session is run. -/
  | input {s : Store} (scope : Address) (text : String) : Visited s → Visited (runInput scope text s).store
  /-- Anything but the sets and the maps changes. -/
  | other {s t : Store} : Visited s → t.sets = s.sets → t.maps = s.maps → Visited t

namespace Store.DistinctKeys

theorem of_empty {s : Store} (hsets : s.sets = #[]) (hmaps : s.maps = #[]) : s.DistinctKeys :=
  ⟨by simp [hsets], by simp [hmaps]⟩

/-- Nothing but data matters: functions, errors and scopes are made and changed freely. -/
def discipline : Discipline where
  Inv := Store.DistinctKeys
  Own _ := True
  Good _ := True
  Admits _ _ := True
  Ends _ _ := True
  stable := ⟨fun hdata => hdata.keys, fun _ => .of_same rfl rfl⟩
  good_part _ _ := trivial
  good_closure _ _ := trivial
  raises _ _ := .of_same rfl rfl
  closing _ _ := .of_same rfl rfl
  entering {s} parent h := ⟨trivial, .of_same (s := s) rfl rfl h⟩
  declaring _ _ _ := .of_same rfl rfl
  assigning {s t a name v} ht := by
    obtain ⟨owner, -, rfl⟩ := Option.map_eq_some_iff.mp ht
    exact .of_same rfl rfl
  marking _ _ := .of_same rfl rfl
  admits_own _ _ := trivial
  admits_part _ _ := trivial
  admits_name _ _ _ := .of_same rfl rfl
  ends_normal _ := trivial
  ends_returning _ _ := trivial
  ends_breaking _ := trivial
  ends_continuing _ := trivial
  ends_part _ _ := trivial
  jumping _ _ _ := .of_same rfl rfl

theorem obeyed (level : Nat) : discipline.Obeyed (interpreter level) := discipline.obeyed level

theorem maintained : Maintained Store.DistinctKeys where
  stable := discipline.stable
  entering parent h := (discipline.entering parent h).2
  eval c x _ := (obeyed levelLimit).eval c x trivial
  exec c x _ := ((obeyed levelLimit).exec c x trivial trivial).keeps
  call := (obeyed levelLimit).call

theorem visited {s : Store} (hs : s.Visited) : s.DistinctKeys := by
  have hstable := discipline.stable
  induction hs with
  | fresh hsets hmaps => exact of_empty hsets hmaps
  | eval level c x _ ih => exact ((obeyed level).eval c x trivial _ ih).store
  | exec level c x _ ih => exact ((obeyed level).exec c x trivial trivial _ ih).store
  | call level depth f arguments _ ih => exact ((obeyed level).call depth f arguments _ ih).store
  | getter receiver g _ ih => exact (g.read_keeps hstable receiver _ ih).store
  | method level depth receiver arguments m _ ih =>
    exact (m.run_keeps hstable ((obeyed level).caller depth) receiver arguments _ ih).store
  | conversion data _ ih => exact (hstable.fromHost data _ ih).store
  | unit source _ ih => exact maintained.runUnit ih source
  | main source arguments _ ih => exact maintained.runMain ih source arguments
  | expression source _ ih => exact maintained.evalText ih source
  | input scope text _ ih => exact maintained.runInput ih scope text
  | other _ hsets hmaps ih => exact .of_same hsets hmaps ih

end Store.DistinctKeys

/-- In every store that runs pass through, two different places of a set never hold equal members, and two
different entries of a map never have equal keys. -/
theorem equal_keys_never_occur {s : Store} (hs : s.Visited) (a : Address) :
    (∀ (i j : Nat) (hi : i < (s.set a).length) (hj : j < (s.set a).length), i ≠ j →
      ((s.set a)[i]).equals ((s.set a)[j]) = false) ∧
    ∀ (i j : Nat) (hi : i < (s.map a).length) (hj : j < (s.map a).length), i ≠ j →
      ((s.map a)[i]).1.equals ((s.map a)[j]).1 = false := by
  have hdistinct := Store.DistinctKeys.visited hs
  refine ⟨fun i j hi hj hne => (hdistinct.set a).getElem_ne hi hj hne, fun i j hi hj hne => ?_⟩
  have hkeys := (hdistinct.map a).getElem_ne (by simpa using hi) (by simpa using hj) hne
  simpa using hkeys

/-- The literal of a set that is given the number one twice. -/
def repeating : Expr :=
  .setOrMapLiteral none
    [.plain (.intLiteral none 1), .plain (.boolLiteral none true), .plain (.intLiteral none 1)] []

end

/-- The set of such a literal has two members, and a third one once two has been added twice. -/
theorem equal_keys_never_occur_repeating :
    let s := ((interpreter 9).eval ⟨rootScope, 0⟩ repeating Store.initial).store
    let added (s : Store) := ((Method.set .add).run ((interpreter 9).caller 0) (.set 0) [.int 2] s).store
    (s.set 0).length = 2 ∧ ((added (added s)).set 0).length = 3 ∧
      ∀ (i j : Nat) (hi : i < ((added (added s)).set 0).length) (hj : j < ((added (added s)).set 0).length), i ≠ j →
        (((added (added s)).set 0)[i]).equals (((added (added s)).set 0)[j]) = false := by
  refine ⟨by decide, by decide, ?_⟩
  exact (equal_keys_never_occur (.method 9 0 _ _ _ (.method 9 0 _ _ _ (.eval 9 _ _ (.fresh rfl rfl)))) 0).1

end Dartlet
