import Dartlet.Proofs.Evaluation.Lasting
import Dartlet.Proofs.Parallel.Moved
import Dartlet.Proofs.Parallel.Runs

/-!
# Native functions that exist

A program can only hold a native function that has been made: its address is one of those in the table.
This holds of the store that a host prepares, and every run keeps it. So adding a native function to the
table of a store changes nothing that the store holds.
-/

namespace Dartlet

open Dartlet.Action
open Dartlet.Syntax (Expr Stmt)

set_option linter.unusedSectionVars false

variable [Host]

/-- A value that, if it is a native function, is one of the first so many. -/
def Value.Below (n : Nat) : Value → Prop
  | .native a => a < n
  | _ => True

/-- A store in which all native functions that are held anywhere exist. -/
def Store.Closed (s : Store) : Prop := s.HoldsOnly (Value.Below s.natives.size)

theorem Value.known_below {v : Value} {n : Nat} : v.Known (Value.Below n) ↔ v.Below n := by
  cases v <;> simp [Value.Known, Value.Below]

namespace Comparison

variable {s t : Store} {start gap : Nat}

/-- The comparison of runs of which the second has more native functions from the beginning. -/
def growing (start gap : Nat) : Comparison where
  shifts := .natives start gap
  hidden _ := false
  objects := true
  placed := false
  handled := false
  Fit _ := True
  closed := true

theorem growing_unrestricted (start gap : Nat) : (growing start gap).Unrestricted :=
  ⟨fun _ => trivial, fun _ => rfl, rfl, rfl, rfl⟩

theorem agrees_growing (level : Nat) :
    (growing start gap).Agrees (growing_unrestricted start gap).anything (interpreter level) (interpreter level) :=
  (growing_unrestricted start gap).agrees level

theorem known_growing (s : Store) : (growing start gap).Known s = Value.Below s.natives.size := by
  funext v
  cases v <;> simp [Known, Value.Below, growing]

theorem keeps_natives (start gap : Nat) : (Shifts.natives start gap).Keeps (Value.Below start) := by
  intro v hv
  have hstay := v.shift_stay
  cases v with
  | native a => exact congrArg Value.native (Shift.apply_of_lt ⟨start, gap⟩ hv)
  | _ => exact hstay

/-- A store that is closed runs in parallel with the one that has more native functions. -/
theorem parallel_growing (hs : s.Closed) (more : Array NativeFunction) :
    (growing s.natives.size more.size).Parallel s { s with natives := s.natives ++ more } := by
  have htables : (growing s.natives.size more.size).Tables (Value.Below s.natives.size) s
      { s with natives := s.natives ++ more } :=
    tables_more rfl (fun _ ha => Shift.apply_of_lt _ ha) (Nat.le_refl _) (fun _ => trivial) (fun _ => rfl) rfl rfl rfl
      (keeps_natives _ _) hs
  rwa [← known_growing s] at htables

theorem Parallel.closed (h : (growing start gap).Parallel s t) : s.Closed := by
  have hholds := Tables.holdsOnly (fun _ => rfl) rfl (.inl rfl) h
  rwa [known_growing] at hholds

/-- A store that is closed runs in parallel with itself. -/
theorem parallel_closed (hs : s.Closed) : (growing s.natives.size 0).Parallel s s := by
  have hmore := parallel_growing hs #[]
  rwa [Array.append_empty] at hmore

/-- What runs alike leaves such a store behind, however it ends. -/
theorem keeps_closed {α β : Type} {Q : Store → Store → α → β → Prop} {x : Action α} {y : Action β}
    {s : Store} (hs : s.Closed) (h : (growing s.natives.size 0).Alike false Q s s x y) : (x s).store.Closed :=
  ((h (parallel_closed hs)).parallel rfl).closed

end Comparison

/-! ### What hosts prepare -/

namespace Store.Closed

open Comparison

variable {s : Store}

theorem known (s : Store) {v : Value} (hv : v.Below s.natives.size) :
    v.Known ((growing s.natives.size 0).Known s) := by
  rw [known_growing]
  exact Value.known_below.mpr hv

theorem initial : Store.initial.Closed where
  toHolds := Store.initial_holds (show 0 < 2 by decide) (show 1 < 2 by decide)
  places _ he := absurd he (Array.not_mem_empty _)
  noted _ he := absurd he (Array.not_mem_empty _)

theorem addNative (hs : s.Closed) (name : String) (code : NativeCode)
    (hcode : code.Known (Value.Below s.natives.size)) : (s.addNative ⟨name, code⟩).2.Closed :=
  keeps_closed hs (alike_newNative name code (known_growing s ▸ hcode) (fun hobjects => by cases hobjects))

theorem addObject (hs : s.Closed) {x : HostObject}
    (hx : ∀ b ∈ x.attributes, b.2.Known (Value.Below s.natives.size)) : (s.addObject x).2.Closed := by
  have halike : (growing s.natives.size 0).ObjectsAlike ((growing s.natives.size 0).Known s) x
      (x.shift (.natives s.natives.size 0)) := ⟨rfl, rfl, known_growing s ▸ hx⟩
  exact keeps_closed hs (alike_newObject rfl halike)

theorem withNames (hs : s.Closed) {names : List (String × Value)} (hnames : ∀ b ∈ names, b.2.Below s.natives.size) :
    (s.withNames names).Closed := by
  have htables := Tables.declareAll (parallel_closed hs) rootScope ⟨rfl, fun b hb => known s (hnames b hb)⟩
    (fun _ _ => rfl)
  exact (htables.follows (later_declareAll s _ _) (later_declareAll s _ _)).parallel.closed

theorem setInput (hs : s.Closed) (input : List Char) : Store.Closed { s with input := input } :=
  Parallel.closed (show (growing s.natives.size 0).Parallel _ _ from Tables.setInput (parallel_closed hs) rfl input)

theorem withConsole (hs : s.Closed) (input : String) : (s.withConsole input).Closed := by
  have hrandom : (s.addNative ⟨"Random", .host .makeRandom⟩).2.Closed := hs.addNative "Random" (.host .makeRandom) trivial
  have hstdin := hrandom.addObject (x := { kind := .stdin }) (fun _ hb => absurd hb List.not_mem_nil)
  have hnames : ∀ b ∈ [("Random", Value.native s.natives.size), ("stdin", .object s.objects.size)],
      b.2.Below (s.natives.push ⟨"Random", .host .makeRandom⟩).size := by
    simp [Value.Below]
  exact (hstdin.withNames hnames).setInput input.toList

theorem withSamples (hs : s.Closed) : s.withSamples.Closed := by
  have hpoint := hs.addObject (x := { kind := .point, attributes := [("x", .int 3), ("y", .int 4)] })
    (by simp [HostValue.Known])
  have hmaker := hpoint.addNative "Point" (.host .makePoint) trivial
  have hplain := hmaker.addObject (x := { kind := .plain }) (fun _ hb => absurd hb List.not_mem_nil)
  have hbag := hplain.addObject (x := { kind := .bag }) (fun _ hb => absurd hb List.not_mem_nil)
  have hfunctions := (hbag.addNative "applyTwice" (.host .applyTwice) trivial).addNative "echo"
    (.host .echo) trivial
  refine hfunctions.withNames (fun b hb => ?_)
  simp only [List.cons_append, List.nil_append, List.mem_cons, List.not_mem_nil, or_false] at hb
  rcases hb with rfl | rfl | rfl | rfl | rfl | rfl
  · trivial
  · simp only [Value.Below, Store.addNative, Store.addObject, Array.size_push]
    exact Nat.lt_add_of_pos_right (k := 3) (by decide)
  · trivial
  · trivial
  · simp [Value.Below, Store.addNative, Store.addObject]
  · simp [Value.Below, Store.addNative, Store.addObject]

end Store.Closed

/-! ### All runs -/

/-- The stores that runs lead to from one that a host has prepared, when they are given only functions
that exist. -/
inductive Store.Arisen : Store → Prop
  /-- A store that a host has prepared. -/
  | prepared {s : Store} : s.Closed → Arisen s
  /-- An expression is evaluated. -/
  | eval {s : Store} (level : Nat) (c : Context) (x : Expr) : Arisen s → Arisen ((interpreter level).eval c x s).store
  /-- A statement is executed. -/
  | exec {s : Store} (level : Nat) (c : Context) (x : Stmt) : Arisen s → Arisen ((interpreter level).exec c x s).store
  /-- A function is called. -/
  | call {s : Store} (level depth : Nat) {f : Value} {arguments : List Value} : f.Below s.natives.size →
    (∀ v ∈ arguments, v.Below s.natives.size) → Arisen s → Arisen ((interpreter level).call depth f arguments s).store
  /-- A member is read. -/
  | get {s : Store} {receiver : Value} (name : String) : receiver.Below s.natives.size → Arisen s →
    Arisen (getMember receiver name s).store
  /-- A member is called. -/
  | invoke {s : Store} (level depth : Nat) {receiver : Value} (name : String) {arguments : List Value} :
    receiver.Below s.natives.size → (∀ v ∈ arguments, v.Below s.natives.size) → Arisen s →
    Arisen (invokeMember (interpreter level) depth receiver name arguments s).store
  /-- The declarations of a program are run. -/
  | unit {s : Store} (source : String) : Arisen s → Arisen (runUnit source s).store
  /-- A program is run. -/
  | main {s : Store} (source : String) (arguments : List String) :
    Arisen s → Arisen (runMain source arguments s).store
  /-- The text of an expression is evaluated. -/
  | expression {s : Store} (source : String) : Arisen s → Arisen (evalText source s).store
  /-- An input of a session is run. -/
  | input {s : Store} (scope : Address) (text : String) : Arisen s → Arisen (runInput scope text s).store

namespace Store.Closed

open Comparison

variable {s : Store}

theorem eval (level : Nat) (c : Context) (x : Expr) : Keeps Store.Closed ((interpreter level).eval c x) :=
  fun _ hs => Outcome.meets_of_store (keeps_closed hs ((agrees_growing level).eval trivial trivial).alike)

theorem exec (level : Nat) (c : Context) (x : Stmt) : Keeps Store.Closed ((interpreter level).exec c x) :=
  fun _ hs => Outcome.meets_of_store (keeps_closed hs ((agrees_growing level).exec trivial trivial).alike)

theorem call (hs : s.Closed) (level depth : Nat) {f : Value} {arguments : List Value} (hf : f.Below s.natives.size)
    (harguments : ∀ v ∈ arguments, v.Below s.natives.size) :
    ((interpreter level).call depth f arguments s).store.Closed :=
  keeps_closed hs ((agrees_growing level).call (known s hf) (fun v hv => known s (harguments v hv)))

theorem getMember (hs : s.Closed) {receiver : Value} (hreceiver : receiver.Below s.natives.size) (name : String) :
    (getMember receiver name s).store.Closed :=
  keeps_closed hs (alike_getMember (known s hreceiver) name)

theorem invokeMember (hs : s.Closed) (level depth : Nat) {receiver : Value} (hreceiver : receiver.Below s.natives.size)
    (name : String) {arguments : List Value} (harguments : ∀ v ∈ arguments, v.Below s.natives.size) :
    (invokeMember (interpreter level) depth receiver name arguments s).store.Closed :=
  keeps_closed hs (alike_invokeMember (agrees_growing level) depth (known s hreceiver) name
    (fun v hv => known s (harguments v hv)))

theorem sustained : Sustained Store.Closed where
  entering parent hs := keeps_closed (x := enterScope parent) hs (alike_enterScope (absurd rfl))
  eval c x _ := eval levelLimit c x
  exec c x _ := exec levelLimit c x

theorem runMain (hs : s.Closed) (source : String) (arguments : List String) :
    (runMain source arguments s).store.Closed := by
  have hconcludes : (growing s.natives.size 0).Concludes _ (Dartlet.runMain source arguments s) _ :=
    concludes_runMain (agrees_growing levelLimit) rfl (Shift.apply_stay _) trivial (fun _ _ => trivial) arguments
      (parallel_closed hs) rfl
  exact hconcludes.parallel.closed

/-- In every store that runs lead to, all native functions that are held exist. -/
theorem arisen (hs : s.Arisen) : s.Closed := by
  induction hs with
  | prepared hs => exact hs
  | eval level c x _ ih => exact (eval level c x _ ih).store
  | exec level c x _ ih => exact (exec level c x _ ih).store
  | call level depth hf harguments _ ih => exact ih.call level depth hf harguments
  | get name hreceiver _ ih => exact ih.getMember hreceiver name
  | invoke level depth name hreceiver harguments _ ih => exact ih.invokeMember level depth hreceiver name harguments
  | unit source _ ih => exact sustained.runUnit ih source
  | main source arguments _ ih => exact ih.runMain source arguments
  | expression source _ ih => exact sustained.evalText ih source
  | input scope text _ ih => exact sustained.runInput ih scope text

end Store.Closed
end Dartlet
