import Dartlet.Host.Standard
import Dartlet.Session

/-!
# The command line

Options come before the program; the program is a file, a text, or the standard input; and whatever
comes after it are its arguments.
-/

namespace Dartlet

variable [Host]

/-- What a command line asks for. -/
structure Options where
  verbose : Bool := false
  interactive : Bool := false
  /-- The file or the text of the program. -/
  program : Option String := none
  arguments : List String := []

namespace Options

/-- Read a command line after the options seen so far. The result may be an option that is not
known. -/
def readAfter (seen : Options) : List String → Except String Options
  | [] => .ok seen
  | word :: rest =>
    if word == "-v" || word == "--verbose" then readAfter { seen with verbose := true } rest
    else if word == "--repl" then readAfter { seen with interactive := true } rest
    else if word == "--" then .ok { seen with program := rest.head?, arguments := rest.tail }
    else if word.startsWith "--" then .error word
    else .ok { seen with program := some word, arguments := rest }

/-- Read a command line. -/
def read (words : List String) : Except String Options := readAfter {} words

end Options

/-- How the program ends as a whole. -/
inductive Ending where
  /-- With an exit code. -/
  | code (n : Nat)
  /-- With a message about the command line. -/
  | refusal (message : String)
  /-- With a failure that nobody handles. -/
  | broken (stop : Stop)

/-- What a command line does. -/
structure Invocation where
  output : Output
  ending : Ending

namespace CommandLine

/-- The text of a file with every line end written in the same way. -/
def unifyLineEnds : List Char → List Char
  | '\r' :: '\n' :: rest => '\n' :: unifyLineEnds rest
  | '\r' :: rest => '\n' :: unifyLineEnds rest
  | c :: rest => c :: unifyLineEnds rest
  | [] => []

/-- The text of a program and what it leaves of the standard input, unless there is none. -/
def loadSource (file? : String → Option String) (input : String) : Option String → Option (String × String)
  | none => if input.isEmpty then none else some (input, "")
  | some name =>
    if name == "-" then if input.isEmpty then none else some (input, "")
    else
      match file? name with
      | some text => some (String.ofList (unifyLineEnds text.toList), input)
      | none => some (name, input)

/-- The end of a program that did not return, with what it printed. -/
def stopped (log : String) (stop : Stop) (store : Store) : Invocation :=
  match Session.complaint? store stop with
  | some text => ⟨⟨store.output, log ++ text⟩, .code 1⟩
  | none => ⟨⟨store.output, log⟩, .broken stop⟩

/-- Run a program. -/
def runProgram (options : Options) (source input : String) : Invocation :=
  let directives := logged options.verbose ((Syntax.directives source).map .directive)
  match loadMain source ((Store.initial).withConsole input) with
  | ⟨.error stop, store⟩ => stopped directives stop store
  | ⟨.ok entry, store⟩ =>
    let log := directives ++
      logged options.verbose [.invoking entry.parameters options.arguments.length]
    match Run.ofOutcome (callEntry entry options.arguments store) with
    | ⟨.ok _, store⟩ => ⟨⟨store.output, log⟩, .code 0⟩
    | ⟨.error stop, store⟩ => stopped log stop store

/-- Take the lines of a session, one after the other, up to a line that breaks it. The results are
the outputs of the lines and how the session ended. -/
def enterAll (session : Session) : List Session.Prompted → List Output × Ending
  | [] => ([{ standard := Session.farewell }], .code 0)
  | prompted :: rest =>
    match session.take prompted with
    | .next output session =>
      let (outputs, ending) := enterAll session rest
      (output :: outputs, ending)
    | .broken output stop => ([output], .broken stop)

/-- Run a session: the output before the first line, after each line, and at the end. -/
def runSession (verbose : Bool) (input : String) (lines : List Session.Prompted) : List Output × Ending :=
  let (outputs, ending) := enterAll (Session.start verbose input) lines
  ({ standard := Session.banner } :: outputs, ending)

/-- Do what a command line asks for. Without a program, a session begins if the standard input is a
terminal. -/
def invoke (words : List String) (file? : String → Option String) (input : String) (terminal : Bool)
    (lines : List Session.Prompted) : Invocation :=
  match Options.read words with
  | .error word => ⟨{}, .refusal ("Unknown option: " ++ word)⟩
  | .ok options =>
    if options.interactive || (options.program.isNone && terminal) then
      let (outputs, ending) := runSession options.verbose input lines
      ⟨outputs.foldl Output.append {}, ending⟩
    else
      match loadSource file? input options.program with
      | none => ⟨{}, .refusal "No program on stdin"⟩
      | some (source, rest) => runProgram options source rest

end CommandLine
end Dartlet
