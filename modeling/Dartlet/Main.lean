import Dartlet.CommandLine
import Dartlet.Host.Standard

/-!
# The program

Reads the command line, files and the standard input, and writes what they lead to.
-/

namespace Dartlet

/-- All of the standard input. -/
partial def readAll (stream : IO.FS.Stream) (seen : String) : IO String := do
  let line ← stream.getLine
  if line.isEmpty then pure seen else readAll stream (seen ++ line)

/-- One input of a session: lines up to one at whose end no bracket is open. Nothing at the end. -/
partial def readInput (stream : IO.FS.Stream) (seen : String) : IO (Option String) := do
  let line ← stream.getLine
  if line.isEmpty then pure (if seen.isEmpty then none else some seen)
  else
    let text := seen ++ line
    if text.startsWith "/" || Syntax.bracketDepth text == 0 then pure (some text)
    else readInput stream text

/-- Write an output. -/
def write (output : Output) : IO Unit := do
  (← IO.getStdout).putStr output.standard
  (← IO.getStdout).flush
  (← IO.getStderr).putStr output.error

/-- Run a session on the standard input. -/
partial def converse (stream : IO.FS.Stream) (session : Session) : IO UInt32 := do
  (← IO.getStdout).putStr ">>> "
  (← IO.getStdout).flush
  match ← readInput stream "" with
  | none => do
    write { standard := Session.farewell }
    pure 0
  | some text =>
    match session.enter text with
    | .next output session => do
      write output
      converse stream session
    | .broken output _ => do
      write output
      pure 1

/-- The text of a file, if there is one with that name. -/
def readFile? (name : String) : IO (Option String) := do
  try
    let text ← IO.FS.readFile name
    pure (some text)
  catch _ => pure none

end Dartlet

open Dartlet in
/-- Do what the command line asks for. -/
def main (words : List String) : IO UInt32 := do
  let stdin ← IO.getStdin
  match Options.read words with
  | .error word => do
    (← IO.getStderr).putStrLn ("Unknown option: " ++ word)
    pure 1
  | .ok options =>
    let terminal ← stdin.isTty
    if options.interactive || (options.program.isNone && terminal) then do
      write { standard := Session.banner }
      converse stdin (Session.start options.verbose "")
    else do
      let found ← match options.program with
        | some name => readFile? name
        | none => pure none
      let input ← readAll stdin ""
      let invocation := CommandLine.invoke words (fun _ => found) input terminal []
      write invocation.output
      match invocation.ending with
      | .code n => pure n.toUInt32
      | .refusal message => do
        (← IO.getStderr).putStrLn message
        pure 1
      | .broken _ => pure 1
