import Dartlet.Eval.Interpreter
import Dartlet.Host.Standard
import Dartlet.Proofs.Program.RoundTrip
import Dartlet.Proofs.Program.Templates

/-!
# Interpolation

The value of a template is its text, with the values of its expressions shown in their places. They are evaluated
from left to right, and each is shown before the next one is evaluated.
-/

namespace Dartlet

open Dartlet.Action
open Dartlet.Syntax (Embedded Expr Part Template encode parseExpression textPart)

section

variable [Host]

/-- What follows an action happens after it, in the store that it leaves. -/
instance : LawfulMonad Action := .mk' Action
  (fun x => by
    funext s
    change (match x s with | .done a s' => Outcome.done a s' | .raised e s' => .raised e s' | .escaped f s' => .escaped f s' | .exhausted s' => .exhausted s') = x s
    cases x s <;> rfl)
  (fun _ _ => rfl)
  (fun x f g => by
    funext s
    change Action.bind (Action.bind x f) g s = Action.bind x (fun a => Action.bind (f a) g) s
    unfold Action.bind
    cases x s <;> rfl)

namespace Syntax.Template

/-- The values of the expressions of a template, as they are shown. -/
def shown (e : Engine) (c : Context) (t : Template) : Action (List String) :=
  t.rest.mapM (fun (x, _) => do
    let v ← e.eval c x.value
    textOf v)

/-- The text of a template with something in place of each expression. -/
def filled (t : Template) (shown : List String) : String :=
  t.first ++ String.join (t.rest.zipWith (fun (_, text) s => s ++ text) shown)

end Syntax.Template

variable {e : Engine} {c : Context}

theorem evalParts_textPart (text : String) (more : List Part) :
    evalParts e c (textPart text ++ more) = (do
      let rest ← evalParts e c more
      pure (text ++ rest)) := by
  unfold textPart
  split
  · rename_i hempty
    subst hempty
    simp
  · rfl

theorem evalParts_parts (t : Template) : evalParts e c t.parts = (do
    let shown ← t.shown e c
    pure (t.filled shown)) := by
  obtain ⟨first, rest⟩ := t
  induction rest generalizing first with
  | nil =>
    have h : evalParts e c (textPart first ++ []) = _ := evalParts_textPart first []
    simpa [evalParts, Template.parts, Template.shown, Template.filled] using h
  | cons p rest ih =>
    obtain ⟨x, text⟩ := p
    rw [Template.parts_cons, evalParts_textPart, evalParts]
    simp [ih, Template.shown, Template.filled, List.mapM_cons, String.append_assoc]

/-- The literal of a template is read as the template, and its value is the text of the template with the values of
its expressions in their places, evaluated from left to right. -/
theorem templates_are_read_and_filled (t : Template) :
    parseExpression t.written = .ok t.expr ∧
      ∀ e c, evalExpr e c t.expr = within (e.caller c.depth) (some .start) (do
        let shown ← t.shown e c
        pure (.string (t.filled shown))) := by
  refine ⟨t.parseExpression_written, fun e c => ?_⟩
  unfold Template.expr
  split
  · rename_i hrest
    obtain ⟨first, rest⟩ := t
    obtain rfl : rest = [] := hrest
    simp [evalExpr, evalForm, Template.shown, Template.filled, Expr.location]
  · simp [evalExpr, evalForm, evalParts_parts, Expr.location]

end

theorem templates_are_read_and_filled_number : ∃ t : Template, t.written = "\"a${1}b\"" ∧
    ∃ x, parseExpression t.written = .ok x ∧
      ∀ n c s, evalExpr (interpreter (n + 1)) c x s = .done (.string "a1b") s := by
  obtain ⟨l, hvalue⟩ := Syntax.readExpr_number (n := 1) (by decide) "1".length
  let t : Template := ⟨"a", [(⟨"1", _, by decide, hvalue⟩, "b")]⟩
  obtain ⟨hread, hfilled⟩ := templates_are_read_and_filled t
  have hwritten : t.written = String.ofList ('"' :: (encode "a" ++ ('$' :: '{' :: ("1".toList ++ ['}']) ++ encode "b") ++ ['"'])) := by
    simp [t, Template.written, Template.body, Embedded.written]
  refine ⟨t, by rw [hwritten]; decide, t.expr, hread, fun n c s => ?_⟩
  rw [hfilled]
  rfl

end Dartlet
