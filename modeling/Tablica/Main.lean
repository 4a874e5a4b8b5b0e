import Tablica.CommandLine.Invocation

/-!
# The program `pdc`

Connects an invocation to the world: reads the files, asks for input line by line, and
writes what comes out.  What comes out for an input is decided by `Invocation.outcome?`
alone.  Since it is a function of the input, a run that needs another line is taken up
again from the start with that line, and only what is new in its output is written.
-/

namespace Tablica.Main

/-- More than any run that ends can use up. -/
def fuel : Nat := 1152921504606846976

/-- A failure of the system to give a file. -/
def fault : IO.Error → FileFault
  | .noFileOrDirectory .. => .notFound
  | .alreadyExists .. => .exists
  | e => .other (toString e)

/-- The text of a file, or why there is none. -/
def readText (path : String) : IO (Except FileFault String) := do
  try
    return FileFault.decode (← IO.FS.readBinFile path).toList
  catch e => return .error (fault e)

/-- Whether colours are wanted. -/
def wantsColour : IO Bool := do
  if (← IO.getEnv "NO_COLOR").isSome then return false
  if (← IO.getEnv "CLICOLOR_FORCE").any (· ≠ "0") then return true
  (← IO.getStdout).isTty

/-- Another line of input; none at its end. -/
def nextLine : IO (List UInt8) := do
  try
    return (← (← IO.getStdin).getLine).toUTF8.toList
  catch _ => return [0xff, 10]

/-- Writes what is new in an output, and gives the reason if that is refused. -/
def tell (output : String) (written : Nat) : IO (Option String) := do
  try
    let stdout ← IO.getStdout
    stdout.putStr (String.ofList (output.toList.drop written))
    stdout.flush
    return none
  catch e => return some (toString e)

/-- Runs an invocation to its end. -/
partial def converse (i : Invocation) (written : Nat) : IO Outcome := do
  match i.outcome? fuel with
  | none => return { code := 1 }
  | some outcome =>
    match ← tell outcome.output written with
    | some reason =>
      return (({ i with terminal.refusal := some reason } : Invocation).outcome? fuel).getD outcome
    | none =>
      if outcome.needsInput then
        let line ← nextLine
        let input := i.terminal.input ++ line
        converse { i with terminal.input := input, terminal.isComplete := line.isEmpty }
          outcome.output.length
      else return outcome

/-- Stores a report under the first number that is free. -/
partial def store (report : CrashReport) (number : Nat) : IO String := do
  let path := s!"{CrashReport.directory}/{number}.log"
  try
    let handle ← IO.FS.Handle.mk path .writeNew
    handle.putStr report.text
    return s!"{← IO.currentDir}/{path}"
  catch
    | .alreadyExists .. => store report (number + 1)
    | e => throw e

/-- Where a report was stored, or why it was not. -/
def storeReport (report : CrashReport) : IO (Except FileFault String) := do
  try
    IO.FS.createDirAll CrashReport.directory
    return .ok (← store report 1)
  catch e => return .error (fault e)

/-- The invocation with the files that it may ask for. -/
def prepare (arguments : List String) : IO Invocation := do
  let paths := match Intent.ofArguments arguments with
    | .run options => [Path.configuration options.file, options.file]
    | _ => []
  let texts ← paths.mapM fun path => return (path, ← readText path)
  return {
    arguments
    colour := ← wantsColour
    terminal := { isComplete := false }
    readText := fun path => (texts.lookup path).getD (.error .notFound) }

/-- Runs the command line, and gives the exit code. -/
def run (arguments : List String) : IO UInt32 := do
  let outcome ← converse (← prepare arguments) 0
  let outcome ← match outcome.report with
    | some report => outcome.stored <$> storeReport report
    | none => pure outcome
  let stderr ← IO.getStderr
  if outcome.isVerbose then
    for record in outcome.log do
      stderr.putStrLn s!"[{record.level.name}] {record.message}"
  stderr.putStr outcome.errors
  return outcome.code.toUInt32

end Tablica.Main

def main (arguments : List String) : IO UInt32 :=
  Tablica.Main.run arguments
