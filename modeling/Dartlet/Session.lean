import Dartlet.Run
import Dartlet.Text.Case

/-!
# Interactive sessions

A session runs one input after the other in the same scope. Lines that begin with a slash are
commands to the session itself.
-/

namespace Dartlet

variable [Host]

/-- What is written to the two outputs. -/
structure Output where
  standard : String := ""
  error : String := ""

/-- One output after another. -/
def Output.append (a b : Output) : Output := ⟨a.standard ++ b.standard, a.error ++ b.error⟩

/-- What is recorded for those who want to follow a run closely. -/
inductive LogEntry where
  | directive (d : Syntax.Directive)
  | invoking (parameters arguments : Nat)
  | sessionReset

def LogEntry.line : LogEntry → String
  | directive d =>
    "DEBUG darti.parser: ignoring " ++ d.keyword ++ " directive " ++ " ".intercalate d.words ++ "\n"
  | invoking parameters arguments =>
    "DEBUG darti.runner: invoking " ++ entryName ++ " with " ++ toString parameters ++
      " parameter(s), " ++ toString arguments ++ " argument(s)\n"
  | sessionReset => "DEBUG darti.repl: REPL environment reset\n"

/-- Entries of the log, if it is wanted. -/
def logged (verbose : Bool) (entries : List LogEntry) : String :=
  if verbose then String.join (entries.map LogEntry.line) else ""

/-- The state of a session. -/
structure Session where
  store : Store
  scope : Address
  /-- Whether errors are shown with a trace of the host. -/
  tracing : Bool := false
  /-- Whether the log is shown. -/
  verbose : Bool := false

namespace Session

/-- A store and a scope to run inputs in. -/
def freshScope (input : String) : Address × Store := ((Store.initial).withConsole input).enter rootScope

/-- A session at its beginning. -/
def start (verbose : Bool) (input : String) : Session :=
  match freshScope input with
  | (scope, store) => { store, scope, verbose }

/-- What is shown before the first input. -/
def banner : String := "darti repl — Ctrl-D to exit, / for commands\n"

/-- What is shown when the input ends. -/
def farewell : String := "\n"

/-- What is shown when an input is interrupted. -/
def interruption : String := "KeyboardInterrupt\n"

/-- Characters that cannot be seen and are dropped from every input. -/
def isInvisible (c : Char) : Bool :=
  ['\u200b', '\u200c', '\u200d', '\ufeff', '\u00a0', '\r'].contains c

/-- An input without characters that cannot be seen. -/
def normalize (text : String) : String := String.ofList (text.toList.filter (fun c => !isInvisible c))

/-- What the enter key adds to the text at the prompt in place of handing it over: while brackets are
open, a new line that is indented by two blanks for each. Commands are handed over at once. -/
def continuation? (text : String) : Option String :=
  if text.startsWith "/" then none
  else
    match Syntax.bracketDepth text with
    | 0 => none
    | depth => some ("\n" ++ String.ofList (List.replicate (2 * depth) ' '))

/-- The commands of a session with what they do. -/
def commands : List (String × String) :=
  [("/clear", "Clear the terminal screen"), ("/py-traceback", "Toggle Python traceback on errors"),
    ("/reset", "Reset the REPL environment")]

/-- The commands that a text before the cursor can be completed to. -/
def completions (text : String) : List (String × String) :=
  if text.startsWith "/" then commands.filter (fun c => c.1.startsWith text) else []

/-- A command and its argument, both without blanks around them. -/
def splitCommand (line : List Char) : String × String :=
  (String.ofList (line.takeWhile (fun c => !Text.isBlank c)),
    String.ofList (Text.trimFront (line.dropWhile (fun c => !Text.isBlank c))))

/-- Whether traces are to be shown, by the argument of the command, if that is a valid one. -/
def tracingFor? (present : Bool) (argument : String) : Option Bool :=
  let word := String.ofList (Text.toLower argument.toList)
  if ["on", "1", "true", "yes"].contains word then some true
  else if ["off", "0", "false", "no"].contains word then some false
  else if argument.isEmpty then some (!present)
  else none

/-- Carry out a command. -/
def command (session : Session) (name argument : String) : Output × Session :=
  if name == "/clear" then ({}, session)
  else if name == "/py-traceback" then
    match tracingFor? session.tracing argument with
    | some tracing =>
      ({ standard := "Python traceback: " ++ (if tracing then "on" else "off") ++ "\n" },
        { session with tracing := tracing })
    | none => ({ error := "Usage: /py-traceback [on|off]\n" }, session)
  else if name == "/reset" then
    match freshScope (String.ofList session.store.input) with
    | (scope, store) =>
      ({ standard := "Environment reset.\n", error := logged session.verbose [.sessionReset] },
        { session with store := store, scope := scope })
  else ({ error := "Unknown command: " ++ name ++ "\n" }, session)

/-- What an input that ends without a result shows; nothing if the session itself cannot go on. -/
def complaint? (store : Store) : Stop → Option String
  | .refused e => if e.isFatal then none else some ("Error: " ++ e.text ++ "\n")
  | .raised error => some ("Error: " ++ store.errorText error ++ "\n")
  | .escaped _ | .exhausted => none

/-- What follows a complaint: a trace of the host, if traces are wanted. -/
def traced (session : Session) : String := if session.tracing then "\nPython traceback:\n" ++ Host.trace else ""

/-- How a session goes on after an input. -/
inductive Step where
  | next (output : Output) (session : Session)
  | broken (output : Output) (stop : Stop)

/-- What is shown of a reply, or why the host does not write it. -/
def shown (store : Store) : Reply → Except HostFailure String
  | ⟨.null, _⟩ | ⟨_, false⟩ => .ok ""
  | ⟨v, true⟩ =>
    match v.refusal? store with
    | some f => .error f
    | none => .ok (v.text store ++ "\n")

/-- Run an input that is not a command. -/
def run (session : Session) (text : String) : Step :=
  match runInput session.scope text { session.store with output := "" } with
  | ⟨.ok reply, store⟩ =>
    match shown store reply with
    | .ok text => .next { standard := store.output ++ text } { session with store := store }
    | .error f => .broken { standard := store.output } (.escaped f)
  | ⟨.error stop, store⟩ =>
    match complaint? store stop with
    | some text => .next { standard := store.output, error := text ++ session.traced } { session with store := store }
    | none => .broken { standard := store.output } stop

/-- Run a line of input. -/
def enter (session : Session) (line : String) : Step :=
  let text := normalize line
  match Text.trim text.toList with
  | [] => .next {} session
  | first :: rest =>
    if first == '/' then
      match splitCommand (first :: rest) with
      | (name, argument) =>
        match session.command name argument with
        | (output, session) => .next output session
    else session.run text

/-- What comes from the prompt: a line, or an interruption. -/
inductive Prompted where
  | line (text : String)
  | interrupt

/-- Take what comes from the prompt. -/
def take (session : Session) : Prompted → Step
  | .line text => session.enter text
  | .interrupt => .next { standard := interruption } session

end Session
end Dartlet
