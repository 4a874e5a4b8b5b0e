import Tablica.Text.Similarity

/-!
# Options

The command line names a program and may set **flags** before or after it.  A flag is
written in full after two hyphens, or as a letter after one, and several letters may
share their hyphen.  The range symbol is the value of its flag: it follows after an
equals sign or as the next argument, which must not start with a hyphen unless it is
one.  After two hyphens alone everything is taken for the name of a program.

An argument that takes a value, or is one, is **waiting** until the next argument shows
that it is over.  Only then is it checked, so that a faulty argument behind it may be
reported in its place.

* `Flag` — the flags with their spellings;
* `Options` — the program to run and how to run it;
* `UsageFault` — why a command line is refused;
* `Intent` — what a command line comes to, `Intent.ofArguments` — reading one.
-/

namespace Tablica

/-- The flags. -/
inductive Flag
  | rangeSymbol | verbose | help | version
deriving DecidableEq, Repr, Inhabited

namespace Flag

def all : List Flag :=
  [rangeSymbol, verbose, help, version]

/-- A flag in full. -/
def spelling : Flag → String
  | rangeSymbol => "range-symbol"
  | verbose => "verbose"
  | help => "help"
  | version => "version"

/-- The flag that is spelled so in full. -/
def ofSpelling? (spelling : String) : Option Flag :=
  all.find? fun flag => flag.spelling = spelling

/-- The flag of a letter. -/
def ofLetter? : Char → Option Flag
  | 'v' => some verbose
  | 'h' => some help
  | 'V' => some version
  | _ => none

/-- Whether the flag says how a program is run; the others are questions. -/
def configures : Flag → Bool
  | rangeSymbol | verbose => true
  | help | version => false

/-- Every flag is found by its spelling. -/
theorem ofSpelling?_spelling (flag : Flag) : ofSpelling? flag.spelling = some flag := by
  cases flag <;> decide

end Flag

/-- The program to run, and how to run it. -/
structure Options where
  file : String
  rangeSymbol : Option String := none
  verbose : Bool := false
deriving DecidableEq, Repr, Inhabited

/-- Why a command line is refused.  Some of the reasons come with the flags used so far, one with
whether anything was set at all. -/
inductive UsageFault
  | missingFile (used : List Flag)
  | emptyFile
  | missingSymbol
  | repeated (flag : Flag)
  | uncalledValue (value : String) (flag : Flag) (isFirst : Bool)
  | surplus (argument : String)
  | unknownLetter (letter : Char)
  | unknownFlag (spelling : String) (similar : Option Flag) (used : List Flag) (hasFile : Bool)
deriving DecidableEq, Repr, Inhabited

/-- What a command line comes to. -/
inductive Intent
  | run (options : Options)
  | showHelp
  | showVersion
  | refuse (fault : UsageFault)
deriving DecidableEq, Repr, Inhabited

/-! ## Reading arguments -/

/-- What is not over before the next argument. -/
inductive Pending
  | nothing
  | symbol (value : Option String)
  | file (path : String)
deriving DecidableEq, Repr, Inhabited

/-- What the arguments read so far have set. -/
structure Gathered where
  used : List Flag := []
  file : Option String := none
  rangeSymbol : Option String := none
  waiting : Pending := .nothing
  flagsAreOver : Bool := false
deriving DecidableEq, Repr, Inhabited

namespace Gathered

/-- Sets a flag, once; a flag that is set again does not count as used any more. -/
def set (flag : Flag) (g : Gathered) : Gathered × Option UsageFault :=
  if flag ∈ g.used then ({ g with used := g.used.erase flag }, some (.repeated flag))
  else ({ g with used := g.used ++ [flag] }, none)

/-- Sets the range symbol, once. -/
def setSymbol (symbol : String) (g : Gathered) : Gathered × Option UsageFault :=
  match g.set .rangeSymbol with
  | (g, none) => ({ g with rangeSymbol := some symbol }, none)
  | refused => refused

/-- Takes up what was waiting. -/
def settle (g : Gathered) : Gathered × Option UsageFault :=
  let g' := { g with waiting := .nothing }
  match g.waiting with
  | .nothing => (g, none)
  | .symbol none => (g', some .missingSymbol)
  | .symbol (some symbol) => g'.setSymbol symbol
  | .file path => ({ g' with file := some path }, if path = "" then some .emptyFile else none)

/-- Goes on, or refuses the command line. -/
def proceed : Gathered × Option UsageFault → Except Intent Gathered
  | (g, none) => .ok g
  | (_, some fault) => .error (.refuse fault)

/-- Takes a flag without a value. -/
def take (flag : Flag) (g : Gathered) : Except Intent Gathered := do
  let g ← proceed g.settle
  match flag with
  | .rangeSymbol => return { g with waiting := .symbol none }
  | .verbose => proceed (g.set .verbose)
  | .help => throw .showHelp
  | .version => throw .showVersion

/-- Takes flags by their letters. -/
def takeLetters (g : Gathered) : List Char → Except Intent Gathered
  | [] => .ok g
  | letter :: rest =>
    match Flag.ofLetter? letter with
    | some flag => do takeLetters (← g.take flag) rest
    | none => .error (.refuse (.unknownLetter letter))

/-- Takes a flag in full, possibly with a value after an equals sign. -/
def takeSpelling (argument : List Char) (g : Gathered) : Except Intent Gathered :=
  let spelling := String.ofList (argument.takeWhile (· ≠ '='))
  let value := (argument.dropWhile (· ≠ '=')).tail?.map String.ofList
  match Flag.ofSpelling? spelling, value with
  | some .rangeSymbol, some symbol => do proceed ((← proceed g.settle).setSymbol symbol)
  | some flag, some value =>
    .error (.refuse (.uncalledValue value flag (g.used.isEmpty && g.file.isNone)))
  | some flag, none => g.take flag
  | none, _ =>
    let g := g.settle.1
    let similar := Text.mostSimilar? spelling Flag.spelling Flag.all
    .error (.refuse (.unknownFlag spelling similar (g.used ++ similar.toList) g.file.isSome))

/-- Takes the name of the program. -/
def takeFile (path : String) (g : Gathered) : Except Intent Gathered :=
  let isSecond := match g.waiting with
    | .file _ => true
    | _ => g.file.isSome
  if isSecond then .error (.refuse (.surplus path))
  else do return { ← proceed g.settle with waiting := .file path }

/-- Takes an argument. -/
def takeArgument (g : Gathered) (argument : String) : Except Intent Gathered :=
  if g.flagsAreOver then g.takeFile argument
  else
    match argument.toList, g.waiting with
    | ['-', '-'], _ => .ok { g with flagsAreOver := true }
    | '-' :: '-' :: flag, _ => g.takeSpelling flag
    | '-' :: letter :: letters, _ => g.takeLetters (letter :: letters)
    | _, .symbol none => .ok { g with waiting := .symbol (some argument) }
    | _, _ => g.takeFile argument

/-- What was gathered, as options. -/
def options (g : Gathered) : Except Intent Options := do
  let g ← proceed g.settle
  match g.file with
  | some file =>
    return { file, rangeSymbol := g.rangeSymbol, verbose := g.used.contains .verbose }
  | none => throw (.refuse (.missingFile g.used))

end Gathered

/-- What the arguments of a command line come to. -/
def Intent.ofArguments (arguments : List String) : Intent :=
  match arguments.foldlM Gathered.takeArgument {} >>= Gathered.options with
  | .ok options => .run options
  | .error intent => intent

example : Intent.ofArguments ["-v", "--range-symbol", "..", "a.pdc"]
    = .run ⟨"a.pdc", some "..", true⟩ := by decide
example : Intent.ofArguments ["--", "-v"] = .run { file := "-v" } := by decide
example : Intent.ofArguments ["--range-symbol", "-v"] = .refuse .missingSymbol := by decide

end Tablica
