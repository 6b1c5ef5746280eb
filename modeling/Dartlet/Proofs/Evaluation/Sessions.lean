import Dartlet.CommandLine
import Dartlet.Host.Standard
import Dartlet.Proofs.Grammar.Brackets
import Dartlet.Proofs.Program.Accepted

/-!
# What a session does not run

The input of a session is read and checked as a whole before anything of it runs, so an input that cannot be
read leaves everything as it is. Such inputs, blank lines and interruptions can be left out of a session:
the other lines show what they would have shown, and the session ends in the same state.
-/

namespace Dartlet

open Dartlet.Syntax (Expr Stmt SyntaxError)

set_option linter.unusedSectionVars false

section

variable [Host]

/-! ### Inputs are read before they run -/

/-- What the input of a session is read as. -/
inductive Input where
  | statements (xs : List Stmt)
  | expression (x : Expr)

namespace Input

/-- Read the input of a session. What cannot be read as statements may still be an expression; if it is
neither, the first complaint counts. -/
def read (text : String) : Except SyntaxError Input :=
  match Syntax.parseStatements text with
  | .ok xs => .ok (.statements xs)
  | .error complaint =>
    if complaint.isFatal then .error complaint
    else
      match Syntax.parseExpression text with
      | .ok x => .ok (.expression x)
      | .error second => .error (if second.isFatal then second else complaint)

/-- The first jump without a target in an input. -/
def jumpError : Input → Option SyntaxError
  | .statements xs => Syntax.jumpErrorStmts .nothing xs
  | .expression x => x.jumpError .nothing

/-- Run an input in a scope. -/
def perform (scope : Address) : Input → Action Reply
  | .statements xs => replyStatements scope xs
  | .expression x => replyExpression scope x

/-- Only inputs in which all jumps have a target are read. -/
theorem jumpError_of_read {text : String} {i : Input} (h : read text = .ok i) : i.jumpError = none := by
  unfold read at h
  split at h
  · rename_i xs hxs
    cases h
    exact (Syntax.jumpErrorStmts_eq_none _ _).mpr
      (List.forall_mem_map.mpr fun x hx => (Syntax.parseStatements_accepted hxs x hx).lands)
  · split at h
    · cases h
    · split at h
      · rename_i x hx
        cases h
        exact (Syntax.parseExpression_accepted hx).lands
      · cases h

end Input

/-- An input is run by reading all of it and then performing what has been read. -/
theorem runInput_eq (scope : Address) (text : String) (s : Store) :
    runInput scope text s = Run.reading (Input.read text) (Input.perform scope) s := by
  unfold runInput Input.read
  cases Syntax.parseStatements text with
  | ok xs => rfl
  | error complaint =>
    cases hfatal : complaint.isFatal with
    | true => simp only [hfatal, if_true, Run.reading]
    | false =>
      cases Syntax.parseExpression text <;> simp only [hfatal, Bool.false_eq_true, if_false, Run.reading, Input.perform]

/-- What runs is never refused. -/
theorem Run.ofOutcome_ne_refused {α : Type} (o : Outcome α) (e : SyntaxError) :
    (Run.ofOutcome o).result ≠ .error (.refused e) := by
  cases o <;> simp [Run.ofOutcome]

/-- A text that is refused as the input of a session, in whatever state the session may be. -/
def Refused (text : String) : Prop :=
  ∃ scope s e, (runInput scope text s).result = .error (.refused e) ∧ e.isFatal = false

/-- Whether an input is refused does not depend on the state in which it is entered. -/
theorem refused_iff {text : String} : Refused text ↔ ∃ e, Input.read text = .error e ∧ e.isFatal = false := by
  constructor
  · rintro ⟨scope, s, e, hrefused, hfatal⟩
    rw [runInput_eq] at hrefused
    cases hread : Input.read text with
    | ok i =>
      rw [hread] at hrefused
      exact absurd hrefused (Run.ofOutcome_ne_refused _ _)
    | error complaint =>
      rw [hread] at hrefused
      cases hrefused
      exact ⟨e, rfl, hfatal⟩
  · rintro ⟨e, hread, hfatal⟩
    refine ⟨rootScope, Store.initial, e, ?_, hfatal⟩
    rw [runInput_eq, hread]
    rfl

instance (text : String) : Decidable (Refused text) :=
  match h : Input.read text with
  | .ok _ => isFalse fun hrefused => by
    obtain ⟨e, hread, -⟩ := refused_iff.mp hrefused
    cases h.symm.trans hread
  | .error e =>
    match hfatal : e.isFatal with
    | false => isTrue (refused_iff.mpr ⟨e, h, hfatal⟩)
    | true => isFalse fun hrefused => by
      obtain ⟨e', hread, hfatal'⟩ := refused_iff.mp hrefused
      cases h.symm.trans hread
      exact Bool.noConfusion (hfatal.symm.trans hfatal')

/-- An input whose brackets are not nested is refused. -/
theorem refused_of_not_nested {text : String} (h : ¬ Syntax.Nested (Syntax.terminals (Syntax.lex text).tokens)) :
    Refused text := by
  obtain ⟨complaint, hstatements, hfatal⟩ := Syntax.derive_error_of_not_nested .script h
  obtain ⟨second, hexpression, hfatal'⟩ := Syntax.derive_error_of_not_nested .expression h
  have hparse : Syntax.parseStatements text = .error complaint := by
    simp only [Syntax.parseStatements, Syntax.readPiece, hstatements]
  have hparse' : Syntax.parseExpression text = .error second := by
    simp only [Syntax.parseExpression, Syntax.embeddingLimit, Syntax.readExpr, Syntax.readPiece, hexpression]
  have hread : Input.read text = .error complaint := by
    simp only [Input.read, hparse, hparse', hfatal, hfatal', Bool.false_eq_true, if_false]
  exact refused_iff.mpr ⟨complaint, hread, hfatal⟩

/-! ### Sessions up to what was last printed -/

namespace Session

/-- A session that has forgotten what was last printed in it. -/
def quiet (session : Session) : Session := { session with store := { session.store with output := "" } }

/-- How a session goes on, when it has forgotten what was last printed. -/
def Step.quiet : Step → Step
  | .next output session => .next output session.quiet
  | .broken output stop => .broken output stop

/-- What a command does does not depend on what was last printed. -/
theorem command_quiet (session : Session) (name argument : String) :
    (session.quiet.command name argument).1 = (session.command name argument).1 ∧
    (session.quiet.command name argument).2.quiet = (session.command name argument).2.quiet := by
  unfold command
  split
  · exact ⟨rfl, rfl⟩
  · split
    · have htracing : session.quiet.tracing = session.tracing := rfl
      rw [htracing]
      cases tracingFor? session.tracing argument <;> exact ⟨rfl, rfl⟩
    · split <;> exact ⟨rfl, rfl⟩

/-- What an input does does not depend on what was last printed. -/
theorem run_quiet (session : Session) (text : String) : session.quiet.run text = session.run text := rfl

/-- What a session does with an input does not depend on what was last printed. -/
theorem take_quiet (session : Session) (p : Prompted) : (session.quiet.take p).quiet = (session.take p).quiet := by
  cases p with
  | interrupt => rfl
  | line text =>
    simp only [take, enter]
    cases Text.trim (normalize text).toList with
    | nil => rfl
    | cons first rest =>
      cases hslash : first == '/' with
      | true =>
        obtain ⟨houtput, hsession⟩ := command_quiet session (splitCommand (first :: rest)).1 (splitCommand (first :: rest)).2
        simp only [hslash, if_true, Step.quiet, houtput, hsession]
      | false => simp only [hslash, Bool.false_eq_true, if_false, run_quiet]

theorem take_alike {a b : Session} (h : a.quiet = b.quiet) (p : Prompted) : (a.take p).quiet = (b.take p).quiet := by
  rw [← take_quiet a, h, take_quiet b]

/-- Inputs that do nothing: interruptions, blank lines, and texts that are refused. -/
def IsIdle : Prompted → Prop
  | .interrupt => True
  | .line text =>
    match Text.trim (normalize text).toList with
    | [] => True
    | first :: _ => first ≠ '/' ∧ Refused (normalize text)

instance : DecidablePred IsIdle
  | .interrupt => isTrue trivial
  | .line text =>
    match h : Text.trim (normalize text).toList with
    | [] => isTrue (by simp only [IsIdle, h])
    | first :: _ =>
      decidable_of_iff (first ≠ '/' ∧ Refused (normalize text)) (by simp only [IsIdle, h])

/-- An input that is refused shows a complaint. -/
theorem run_refused {text : String} (h : Refused text) (session : Session) :
    ∃ output, session.run text = .next output session.quiet := by
  obtain ⟨e, hread, hfatal⟩ := refused_iff.mp h
  unfold run
  simp only [runInput_eq, hread, Run.reading, complaint?, hfatal]
  exact ⟨_, rfl⟩

theorem take_idle {p : Prompted} (h : IsIdle p) (session : Session) :
    ∃ output, (session.take p).quiet = .next output session.quiet := by
  cases p with
  | interrupt => exact ⟨_, rfl⟩
  | line text =>
    simp only [IsIdle] at h
    simp only [take, enter]
    cases htrim : Text.trim (normalize text).toList with
    | nil => exact ⟨_, rfl⟩
    | cons first rest =>
      rw [htrim] at h
      obtain ⟨hfirst, hrefused⟩ := h
      obtain ⟨output, hrun⟩ := run_refused hrefused session
      refine ⟨output, ?_⟩
      simp only [beq_iff_eq, if_neg hfirst, hrun]
      rfl

/-- The session after some inputs, up to one that breaks it. -/
def after (session : Session) : List Prompted → Session
  | [] => session
  | p :: rest =>
    match session.take p with
    | .next _ session => session.after rest
    | .broken _ _ => session

end Session

/-- A list without the entries that are not to be kept. Entries beyond the marks stay. -/
def keepMarked {α : Type} : List Bool → List α → List α
  | [], xs => xs
  | _ :: _, [] => []
  | true :: marks, x :: xs => x :: keepMarked marks xs
  | false :: marks, _ :: xs => keepMarked marks xs

open Session in
/-- Sessions in the same state do the same, the first with fewer inputs that do nothing. -/
theorem enterAll_alike {inputs : List (Prompted × Bool)} (hidle : ∀ p ∈ inputs, p.2 = false → IsIdle p.1)
    {a b : Session} (h : a.quiet = b.quiet) :
    CommandLine.enterAll a ((inputs.filter Prod.snd).map Prod.fst) =
      (keepMarked (inputs.map Prod.snd) (CommandLine.enterAll b (inputs.map Prod.fst)).1,
        (CommandLine.enterAll b (inputs.map Prod.fst)).2) ∧
    (a.after ((inputs.filter Prod.snd).map Prod.fst)).quiet = (b.after (inputs.map Prod.fst)).quiet := by
  induction inputs generalizing a b with
  | nil => exact ⟨rfl, h⟩
  | cons input rest ih =>
    obtain ⟨p, kept⟩ := input
    obtain ⟨hp, hrest⟩ := List.forall_mem_cons.mp hidle
    cases kept with
    | true =>
      have hstep := take_alike h p
      simp only [List.filter_cons_of_pos, List.map_cons, CommandLine.enterAll, after]
      cases ha : a.take p with
      | next output a' =>
        cases hb : b.take p with
        | next output' b' =>
          rw [ha, hb] at hstep
          obtain ⟨rfl, hquiet⟩ := Step.next.inj hstep
          obtain ⟨houtputs, hafter⟩ := ih hrest hquiet
          simp only [houtputs, keepMarked]
          exact ⟨trivial, hafter⟩
        | broken output' stop =>
          rw [ha, hb] at hstep
          cases hstep
      | broken output stop =>
        cases hb : b.take p with
        | next output' b' =>
          rw [ha, hb] at hstep
          cases hstep
        | broken output' stop' =>
          rw [ha, hb] at hstep
          obtain ⟨rfl, rfl⟩ := Step.broken.inj hstep
          refine ⟨?_, h⟩
          cases rest <;> rfl
    | false =>
      obtain ⟨output, hb⟩ := take_idle (hp rfl) b
      simp only [List.filter_cons_of_neg, Bool.false_eq_true, not_false_eq_true, List.map_cons, CommandLine.enterAll,
        after]
      cases hb' : b.take p with
      | next output' b' =>
        rw [hb'] at hb
        obtain ⟨-, hquiet⟩ := Step.next.inj hb
        exact ih hrest (h.trans hquiet.symm)
      | broken output' stop =>
        rw [hb'] at hb
        cases hb

/-- A session is left as it is by interruptions, blank lines and texts that are refused: without them, the
other inputs show the same, and the session ends the same way and in the same state. For an input is read as a
whole before any of it runs, no jump in what has been read is without a target, and what runs is not refused. -/
theorem idle_inputs_leave_no_trace :
    (∀ scope text s, runInput scope text s = Run.reading (Input.read text) (Input.perform scope) s) ∧
    (∀ text i, Input.read text = .ok i →
      i.jumpError = none ∧
      ∀ scope s e, (runInput scope text s).result ≠ .error (.refused e)) ∧
    (∀ text e, Input.read text = .error e →
      ∀ scope s, runInput scope text s = ⟨.error (.refused e), s⟩) ∧
    ∀ (session : Session) (inputs : List (Session.Prompted × Bool)),
      (∀ p ∈ inputs, p.2 = false → Session.IsIdle p.1) →
        CommandLine.enterAll session ((inputs.filter Prod.snd).map Prod.fst) =
          (keepMarked (inputs.map Prod.snd) (CommandLine.enterAll session (inputs.map Prod.fst)).1,
            (CommandLine.enterAll session (inputs.map Prod.fst)).2) ∧
        (session.after ((inputs.filter Prod.snd).map Prod.fst)).quiet =
          (session.after (inputs.map Prod.fst)).quiet := by
  refine ⟨runInput_eq, ?_, ?_, fun session inputs hidle => enterAll_alike hidle rfl⟩
  · intro text i hread
    refine ⟨Input.jumpError_of_read hread, fun scope s e => ?_⟩
    rw [runInput_eq, hread]
    exact Run.ofOutcome_ne_refused _ _
  · intro text e hread scope s
    rw [runInput_eq, hread]
    rfl

end

/-- A session of five inputs, of which the second to the fourth do nothing. -/
theorem idle_inputs_leave_no_trace_mixed :
    (∃ i, Input.read "" = .ok i ∧ i.jumpError = none) ∧
    (∃ e, Input.read ")" = .error e ∧
      runInput rootScope ")" Store.initial = ⟨.error (.refused e), Store.initial⟩) ∧
    let inputs : List (Session.Prompted × Bool) :=
      [(.line "var a = 1;", true), (.line " ", false), (.interrupt, false), (.line ")", false), (.line "a", true)]
    (∀ p ∈ inputs, p.2 = false → Session.IsIdle p.1) ∧
    CommandLine.enterAll (Session.start false "") [.line "var a = 1;", .line "a"] =
      (keepMarked [true, false, false, false, true]
          (CommandLine.enterAll (Session.start false "") (inputs.map Prod.fst)).1,
        (CommandLine.enterAll (Session.start false "") (inputs.map Prod.fst)).2) := by
  have hread : (Input.read "").isOk = true := by decide
  have hrefused : Refused (Session.normalize ")") := refused_of_not_nested (by decide)
  refine ⟨?_, ?_, ?_⟩
  · cases h : Input.read "" with
    | ok i => exact ⟨i, rfl, (idle_inputs_leave_no_trace.2.1 "" i h).1⟩
    | error e =>
      rw [h] at hread
      cases hread
  · obtain ⟨e, he, -⟩ := refused_iff.mp hrefused
    exact ⟨e, he, idle_inputs_leave_no_trace.2.2.1 ")" e he rootScope Store.initial⟩
  · intro inputs
    have hblank : Session.IsIdle (.line " ") := by decide
    have hbracket : Session.IsIdle (.line ")") := ⟨by decide, hrefused⟩
    have hidle : ∀ p ∈ inputs, p.2 = false → Session.IsIdle p.1 := by
      simp only [inputs, List.forall_mem_cons]
      exact ⟨nofun, fun _ => hblank, fun _ => trivial, fun _ => hbracket, nofun, nofun⟩
    exact ⟨hidle, (idle_inputs_leave_no_trace.2.2.2 (Session.start false "") inputs hidle).1⟩

end Dartlet
