import Tablica.Execution.Console
import Tablica.Execution.Memory
import Tablica.Log
import Tablica.Syntax.Node

/-!
# The state of a running program

A program runs on a **machine**: its memory, the functions and procedures defined so
far, the calls under way, the console, and a **journal** of everything that happened.
The log is the part of the journal that is worth telling.

A computation on a machine ends with a result or is interrupted.  It may be
interrupted by `koniec`, by an error, or because it was given less fuel than it needs;
the last is no fact about the program but only about the fuel.

* `Routine`, `Frame`, `Machine` — the state;
* `Event`, `Event.record?` — the journal, and the log record of an event;
* `InternalFault`, `ExecutionError`, `Interruption` — why a computation ends early;
* `Action` — a computation, with the small actions that every other is made of.
-/

namespace Tablica

/-- A function or procedure that has been defined. -/
structure Routine where
  name : String
  parameters : List String
  body : List Node
  isProcedure : Bool
deriving Inhabited

/-- A call under way. -/
structure Frame where
  scope : ScopeId
  routine : Routine
deriving Inhabited

/-- A failure that is not the program's own. -/
inductive InternalFault
  | returnEscaped
  | console (reason : String)
  | notAnExpression (name : String)
deriving DecidableEq, Repr, Inhabited

def InternalFault.message : InternalFault → String
  | returnEscaped => "return signal escaped the top level"
  | console reason => s!"console failed: {reason}"
  | notAnExpression name => s!"{name} node evaluated as an expression"

/-- The word for an internal failure. -/
def InternalFault.name : InternalFault → String
  | returnEscaped => "ReturnEscaped"
  | console _ => "Console"
  | notAnExpression _ => "NotAnExpression"

/-- Why a run fails. -/
inductive ExecutionError
  | runtime (error : RuntimeError)
  | internal (fault : InternalFault)
deriving DecidableEq, Repr, Inhabited

/-- Why a computation is interrupted. -/
inductive Interruption
  | stop
  | failed (error : ExecutionError)
  | outOfFuel
deriving DecidableEq, Repr, Inhabited

/-- What happens while a program runs. -/
inductive Event
  | started (node : Node)
  | asked (prompt : String)
  | wrote (text : String)
  | flushed
  | assigned (key : String) (scope : Option ScopeId)
  | removed (key : String) (scope : Option ScopeId)
  | opened (scope : ScopeId)
  | called (name : String) (scope : ScopeId)
  | closed (scope : ScopeId) (cells : Nat)
  | exhausted (iterator : String)
  | failed (error : ExecutionError)
deriving Inhabited

/-- What the log tells of an event. -/
def Event.record? : Event → Option LogRecord
  | started (.command command _ line) => some (.executing command.keyword line.number)
  | started (.routine name parameters _ isProcedure _) =>
    some (.defining isProcedure name parameters.length)
  | opened scope => some (.scopeOpened scope)
  | called name scope => some (.calling name scope)
  | closed scope cells => some (.scopeClosed scope cells)
  | exhausted iterator => some (.iteratorExhausted iterator)
  | _ => none

/-- The state of a running program.  The innermost call is the first frame, and the last event is
the first of the journal. -/
structure Machine (σ : Type) where
  console : σ
  memory : Memory := {}
  routines : Std.ExtTreeMap String Routine compare := ∅
  frames : List Frame := []
  journal : List Event := []

/-- A computation on a machine. -/
abbrev Action (σ : Type) := EStateM Interruption (Machine σ)

namespace Machine

variable {σ : Type}

/-- The scope of the innermost call. -/
def scope (m : Machine σ) : Option ScopeId :=
  m.frames.head?.map Frame.scope

/-- The log, the oldest record first. -/
def log (m : Machine σ) : List LogRecord :=
  m.journal.reverse.filterMap Event.record?

/-- Enters an event in the journal. -/
def record (m : Machine σ) (event : Event) : Machine σ :=
  { m with journal := event :: m.journal }

end Machine

namespace Action

variable {σ : Type}

/-- Enters an event in the journal. -/
def note (event : Event) : Action σ Unit :=
  modify (·.record event)

/-- Ends with an error. -/
def fail {α : Type} (error : ExecutionError) : Action σ α := do
  note (.failed error)
  throw (.failed error)

/-- Takes over a result that was computed for the given line. -/
def ofExcept {α : Type} (line : SourceLine) : Except RuntimeFault α → Action σ α
  | .ok a => pure a
  | .error kind => fail (.runtime ⟨kind, line⟩)

/-- The scope of the innermost call. -/
def scope : Action σ (Option ScopeId) :=
  return (← get).scope

/-- Reads a variable. -/
def load (key : String) : Action σ Value :=
  return (← get).memory.get key (← get).scope

/-- Writes a variable by way of an operation on the memory. -/
def store (key : String) (line : SourceLine)
    (write : Memory → Option ScopeId → Except RuntimeFault Memory) : Action σ Unit := do
  let m ← get
  let memory ← ofExcept line (write m.memory m.scope)
  modify fun m => { m with memory }
  note (.assigned key m.scope)

/-- Removes a variable. -/
def remove (key : String) : Action σ Unit := do
  let scope ← scope
  modify fun m => { m with memory := m.memory.delete key scope }
  note (.removed key scope)

/-- Takes over the answer of a console. -/
def ofConsole {α : Type} (operation : σ → Except String α × σ) : Action σ α := do
  let (answer, console) := operation (← get).console
  modify fun m => { m with console }
  match answer with
  | .ok a => return a
  | .error reason => fail (.internal (.console reason))

/-- Asks the console for a line. -/
def ask [Console σ] (prompt : String) : Action σ String := do
  note (.asked prompt)
  ofConsole (Console.readLine prompt)

/-- Writes to the console. -/
def write [Console σ] (text : String) : Action σ Unit := do
  note (.wrote text)
  ofConsole (Console.write text)

/-- Has everything written shown. -/
def flush [Console σ] : Action σ Unit := do
  note .flushed
  ofConsole Console.flush

/-- Opens a scope with the given variables. -/
def openScope (name : String) (locals : List (String × Value)) : Action σ ScopeId := do
  let (scope, memory) := (← get).memory.openScope
  modify fun m => { m with memory }
  note (.opened scope)
  note (.called name scope)
  for (key, value) in locals do
    modify fun m => { m with memory := m.memory.defineLocal key value scope }
    note (.assigned key (some scope))
  return scope

/-- The machine after the innermost call is over: its frame is gone and its scope closed. -/
def leave (scope : ScopeId) (m : Machine σ) : Machine σ :=
  let m := { m with frames := m.frames.tail }
  match m.memory.scopes[scope]? with
  | none => m
  | some table =>
    { m with memory := m.memory.closeScope scope }.record (.closed scope table.size)

/-- Runs the body of a call in its frame, which is left however the body ends. -/
@[inline] def inFrame {α : Type} (frame : Frame) (body : Action σ α) : Action σ α := fun m =>
  match body { m with frames := frame :: m.frames } with
  | .ok a m => .ok a (leave frame.scope m)
  | .error e m => .error e (leave frame.scope m)

end Action

end Tablica
