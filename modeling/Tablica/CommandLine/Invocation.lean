import Tablica.CommandLine.Terminal
import Tablica.CommandLine.Usage
import Tablica.Configuration
import Tablica.Diagnostic
import Tablica.Execution.Evaluation
import Tablica.Syntax.Outline

/-!
# Invocations

An **invocation** starts a program from the command line: the arguments say which, the
configuration beside the program and the arguments say how, and the program talks to
the terminal.  What comes out of it is an **outcome**: what was written to the two
outputs and the exit code, which is 0 for a program that ends, 1 for one that does not
get so far, and 2 for a command line that is refused.

A failure that is not the program's own leaves a **crash report** to be stored, and
the user is told where it is once that is known.

* `Invocation.settings` — the configuration in force;
* `CrashReport` — the report with its text;
* `Invocation.outcome?` — what comes out, with the report still to be stored;
* `Outcome.stored` — the outcome once it is.
-/

namespace Tablica

/-- A program started from the command line.  Files are read by their paths. -/
structure Invocation where
  arguments : List String
  colour : Bool := false
  terminal : Terminal := {}
  readText : String → Except FileFault String

/-- The report of a failure that is not the program's own. -/
structure CrashReport where
  file : String
  fault : InternalFault
deriving DecidableEq, Repr, Inhabited

namespace CrashReport

def text (r : CrashReport) : String :=
  s!"pdc {Usage.versionNumber}\nSource file: {r.file}\n\n{r.fault.name}: {r.fault.message}\n"

/-- Where reports are stored. -/
def directory : String := "crash"

/-- What the user is told about a report that was stored at a place, or was not. -/
def notice : Except FileFault String → String
  | .ok place => s!"Error message was copied to {place}\n"
  | .error fault => s!"Could not write the crash report: {fault.message}\n"

/-- What the user is told before it is stored. -/
def apology : StyledText :=
  Diagnostic.headline "Runtime error has occurred!"
    ++ .plain "\nWow! You encountered a bug! Please tell us how you did that.\n"

end CrashReport

/-- What comes out of an invocation.  The log is what there was to tell, whether or not the user
wants to be told. -/
structure Outcome where
  code : Nat
  output : String := ""
  errors : String := ""
  report : Option CrashReport := none
  log : List LogRecord := []
  isVerbose : Bool := false
  needsInput : Bool := false
deriving DecidableEq, Repr, Inhabited

/-- The outcome once its report was stored at a place, or was not. -/
def Outcome.stored (o : Outcome) (place : Except FileFault String) : Outcome :=
  match o.report, place with
  | none, _ => o
  | some _, .ok _ => { o with errors := o.errors ++ CrashReport.notice place }
  | some _, .error _ => { o with errors := o.errors ++ CrashReport.notice place, report := none }

namespace Invocation

/-- The configuration beside a program, which need not be there. -/
def settings (i : Invocation) (file : String) : Except String Configuration :=
  let path := Path.configuration file
  match i.readText path with
  | .error .notFound => .ok {}
  | .error fault => .error s!"could not read `{path}`: {fault.message}: {fault.message}"
  | .ok text =>
    match Configuration.ofToml? text with
    | some configuration => .ok configuration
    | none => .error s!"invalid configuration in `{path}`"

/-- The outcome of an invocation that fails before its program writes anything. -/
def failed (i : Invocation) (report : StyledText) : Outcome where
  code := 1
  errors := report.render i.colour

/-- What the run of a program comes to. -/
def ofVerdict? (i : Invocation) (file text : String) (t : Terminal) : Verdict → Option Outcome
  | .finished | .exited => some { code := 0, output := t.output }
  | .failed (.runtime e) =>
    some { i.failed ((Diagnostic.ofRuntimeError e).shown file text) with output := t.output }
  | .failed (.internal fault) =>
    some { i.failed CrashReport.apology with
      output := t.output, report := some ⟨file, fault⟩, needsInput := t.hasRunOut }
  | .unfinished => none

/-- The outcome for a program text with a range symbol; none if the run needs more fuel. -/
def runText? (fuel : Nat) (i : Invocation) (symbol file text : String) : Option Outcome :=
  let (program, log) := Program.read symbol.toList text
  match program with
  | .error e => some { i.failed ((Diagnostic.ofSyntaxError e).shown file text) with log }
  | .ok nodes =>
    let (verdict, m) := Tablica.run fuel nodes { console := i.terminal }
    (i.ofVerdict? file text m.console verdict).map fun o => { o with log := log ++ m.log }

/-- The outcome for a program with its options; none if the run needs more fuel. -/
def run? (fuel : Nat) (i : Invocation) (options : Options) : Option Outcome :=
  match i.settings options.file with
  | .error message => some (i.failed (Diagnostic.headline message))
  | .ok configuration =>
    let symbol := options.rangeSymbol.getD configuration.rangeSymbol
    let isVerbose := options.verbose || configuration.debug
    match i.readText options.file with
    | .error fault =>
      let message := s!"could not read `{options.file}`: {fault.message}"
      some (i.failed (Diagnostic.headline message))
    | .ok text => (i.runText? fuel symbol options.file text).map fun o => { o with isVerbose }

/-- What comes out of an invocation; none if the run needs more fuel. -/
def outcome? (fuel : Nat) (i : Invocation) : Option Outcome :=
  let shown (text : StyledText) : Outcome :=
    { code := 0, output := (i.terminal.pass (text.send i.colour)).2.output }
  match Intent.ofArguments i.arguments with
  | .run options => i.run? fuel options
  | .showHelp => some (shown Usage.help)
  | .showVersion => some (shown Usage.version)
  | .refuse fault => some { code := 2, errors := fault.shown.send i.colour }

end Invocation

end Tablica
