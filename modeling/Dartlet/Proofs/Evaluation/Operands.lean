import Dartlet.Proofs.Evaluation.Invocations
import Dartlet.Proofs.Evaluation.Loops

/-!
# After the operands

An operator that needs both of its operands, and a call of a member, evaluate their operands from left to right. Once
the operands have values, they end as the operator or the member does with these values, and an error gets the place of
the whole expression, unless it has one.
-/

namespace Dartlet

open Dartlet.Action
open Dartlet.Syntax (Argument BinaryOp Expr Location)

variable [Host]

/-- Expressions have values, one after the other. -/
inductive Yields (c : Context) : List Expr → Store → List Value → Store → Prop where
  | nil {s} : Yields c [] s [] s
  | cons {x xs s v t vs u} (first : Evaluates c x s (.done v t)) (rest : Yields c xs t vs u) :
      Yields c (x :: xs) s (v :: vs) u

variable {α : Type} {c : Context} {l : Location} {x y : Expr} {s t u : Store} {v w : Value}

theorem Yields.one (h : Evaluates c x s (.done v t)) : Yields c [x] s [v] t := .cons h .nil

theorem unhooked_ofExcept (r : Except Trouble α) (s : Store) : (ofExcept r s).Unhooked := by
  cases r with
  | ok a => exact Outcome.unhooked_of_ne_raised nofun
  | error trouble =>
    cases trouble with
    | fault f => exact fail_unhooked f s
    | failure f => exact Outcome.unhooked_of_ne_raised nofun

theorem ended_ofExcept (r : Except Trouble α) (s : Store) : (ofExcept r s).Ended := by
  cases r with
  | ok a => exact Outcome.ended_done a s
  | error trouble => cases trouble <;> nofun

/-- An expression ends with what leaves it of the outcome of its form. -/
theorem evaluates_iff {o : Outcome Value} :
    Evaluates c x s o ↔ ∃ o', EndsWith (fun e => evalForm e c x) s o' ∧ o'.Leaves c.depth x.location o :=
  EndsWith.eval_iff.trans (EndsWith.within_iff (.evalForm c x))

theorem persistent_evalArguments (c : Context) (arguments : List Argument) :
    Persistent (fun e => evalArguments e c arguments) := by
  induction arguments with
  | nil => exact .const _
  | cons argument rest ih =>
    cases argument with
    | named l name value => exact .const _
    | positional value => exact (Persistent.eval c value).bind fun _ => ih.bind fun _ => .const _

theorem Yields.arguments {ys : List Expr} {vs : List Value} (h : Yields c ys s vs t) :
    EndsWith (fun e => evalArguments e c (ys.map .positional)) s (.done vs t) := by
  induction h with
  | nil => exact ⟨nofun, 0, rfl⟩
  | @cons y ys s v t vs u first _ ih =>
    have hrest := persistent_evalArguments c (ys.map .positional)
    apply (EndsWith.bind_iff_of_done (G := fun e v => evalArguments e c (ys.map .positional) >>= fun vs => pure (v :: vs))
      (.eval c y) (fun _ => hrest.bind fun _ => .const _) first).mpr
    apply (EndsWith.bind_iff_of_done (G := fun _ vs => pure (v :: vs)) hrest (fun _ => .const _) ih).mpr
    exact EndsWith.const_iff.mpr ⟨rfl, nofun⟩

/-- Whether an operator needs both of its operands. -/
def Syntax.BinaryOp.isEager : BinaryOp → Bool
  | .and | .or => false
  | _ => true

theorem evalBinary_eager {op : BinaryOp} (hop : op.isEager = true) (e : Engine) (c : Context) (x y : Expr) :
    evalBinary e c op x y = (do
      let v ← e.eval c x
      let w ← e.eval c y
      applyBinary op v w) := by
  cases op with
  | and | or => cases hop
  | _ => rfl

/-- An operator that needs both operands ends as it does with their values. -/
theorem evaluates_binary_iff {op : BinaryOp} (hop : op.isEager = true) (hx : Evaluates c x s (.done v t))
    (hy : Evaluates c y t (.done w u)) {o : Outcome Value} :
    Evaluates c (.binary l op x y) s o ↔ o = (applyBinary op v w u).locate l := by
  have hform (o' : Outcome Value) : EndsWith (fun e => evalForm e c (.binary l op x y)) s o' ↔ applyBinary op v w u = o' := by
    simp only [evalForm, evalBinary_eager hop]
    rw [EndsWith.bind_iff_of_done (G := fun e v => e.eval c y >>= fun w => applyBinary op v w) (.eval c x)
        (fun _ => (Persistent.eval c y).bind fun _ => .const _) hx,
      EndsWith.bind_iff_of_done (G := fun _ w => applyBinary op v w) (.eval c y) (fun _ => .const _) hy,
      EndsWith.const_iff, and_iff_left_iff_imp]
    rintro rfl
    exact ended_ofExcept _ u
  simp only [evaluates_iff, hform, exists_eq_left']
  exact Outcome.leaves_iff_of_unhooked (ended_ofExcept _ u) (unhooked_ofExcept _ u)

theorem Evaluates.binary {op : BinaryOp} (hop : op.isEager = true) (hx : Evaluates c x s (.done v t))
    (hy : Evaluates c y t (.done w u)) {r : Value} (hr : applyBinary op v w u = .done r u) :
    Evaluates c (.binary l op x y) s (.done r u) := by
  rw [evaluates_binary_iff hop hx hy, hr]
  rfl

/-- A call of a member ends as the member does with the values of the arguments. -/
theorem evaluates_methodCall_iff {ys : List Expr} {vs : List Value} {name : String} (hx : Evaluates c x s (.done v t))
    (hys : Yields c ys t vs u) {o : Outcome Value} :
    Evaluates c (.methodCall l x name (ys.map .positional)) s o ↔
      ∃ o', Invokes c.depth v name vs u o' ∧ o'.Leaves c.depth l o := by
  have hmember (v : Value) (vs : List Value) : Persistent (fun e => invokeMember e c.depth v name vs) :=
    .invokeMember c.depth v name vs
  have hform (o' : Outcome Value) : EndsWith (fun e => evalForm e c (.methodCall l x name (ys.map .positional))) s o' ↔
      Invokes c.depth v name vs u o' := by
    have harguments := persistent_evalArguments c (ys.map .positional)
    simp only [evalForm]
    rw [EndsWith.bind_iff_of_done (G := fun e v => evalArguments e c (ys.map .positional) >>= fun vs =>
        invokeMember e c.depth v name vs) (.eval c x) (fun v => harguments.bind (hmember v)) hx,
      EndsWith.bind_iff_of_done (G := fun e vs => invokeMember e c.depth v name vs) harguments (hmember v) hys.arguments]
  simp only [evaluates_iff, hform]
  rfl

/-- A method that calls no functions ends in one way, whatever the levels. -/
theorem invokes_iff_of_run {depth : ℕ} {m : Method} {name : String} {vs : List Value} (hobject : v.isHostObject = false)
    (hm : Method.find? v name = some m) (harity : m.arity.accepts vs.length = true) (hdepth : depth < Host.callLimit)
    {o o' : Outcome Value} (hended : o'.Ended) (hrun : ∀ c, m.run c v vs s = o') :
    Invokes depth v name vs s o ↔ o = o'.delegated := by
  have hends (o'' : Outcome Value) : EndsWith (fun e => m.run (e.caller (depth + 1)) v vs) s o'' ↔ o'' = o' := by
    simp only [EndsWith, hrun, exists_const]
    constructor
    · rintro ⟨-, rfl⟩
      rfl
    · rintro rfl
      exact ⟨hended, rfl⟩
  simp only [invokes_iff hobject hm harity hdepth, hends, exists_eq_left]

end Dartlet
