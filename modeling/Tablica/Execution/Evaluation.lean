import Tablica.Execution.Machine

/-!
# Running a program

An expression is **evaluated** to a value; a statement is **executed** and answers how
the block around it goes on, its flow.  The two call each other: a call inside an
expression executes the body of a function, and every statement evaluates
expressions.

`koniec` travels as a flow from statement to statement and as an interruption out of
an expression; a statement that was interrupted by it answers the flow again.

A `dla` loop is over when its test fails or when its iterator cannot be incremented
any more.  In both cases, and whenever its body ends with a flow of its own, the
iterator is removed.

Programs need not end, so all functions take **fuel**, a bound on the depth of their
recursion.  Running out of it is an interruption of its own.

* `Flow` — how a block goes on, `Verdict` — how a run ends;
* `evaluate`, `execute`, `executeBlock` — the meaning of expressions, statements and
  blocks;
* `run` — the run of a program.
-/

namespace Tablica

/-- How the execution of a statement or block ends. -/
inductive Flow
  | completed
  | returned (value : Option Value)
  | exit
  | rangeExhausted
deriving DecidableEq, Repr, Inhabited

/-- How a run ends; `unfinished` says that the fuel was too small to tell. -/
inductive Verdict
  | finished
  | exited
  | failed (error : ExecutionError)
  | unfinished
deriving DecidableEq, Repr, Inhabited

/-- How many calls can be under way at a time. -/
def maxCallDepth : Nat := 1000

namespace Action

variable {σ : Type}

/-- What `pisz` writes for a value: the text `\n` stands for a line break. -/
def printed : Value → String
  | .text "\\n" => "\n"
  | value => value.shown

/-- Looks up the routine of a call with so many arguments. -/
def lookUp (name : String) (arguments : Nat) (line : SourceLine) : Action σ Routine := do
  let m ← get
  match m.routines[name]? with
  | none => fail (.runtime ⟨.undefinedFunction name, line⟩)
  | some routine =>
    if arguments ≠ routine.parameters.length then
      fail (.runtime ⟨.argumentCount name routine.parameters.length arguments, line⟩)
    else if maxCallDepth ≤ m.frames.length then
      fail (.runtime ⟨.recursionLimit name maxCallDepth, line⟩)
    else return routine

/-- Refuses a value that the innermost call cannot return. -/
def checkReturn (value : Option Value) (line : SourceLine) : Action σ Unit := do
  if value.isSome then
    match (← get).frames with
    | frame :: _ =>
      if frame.routine.isProcedure then
        fail (.runtime ⟨.procedureReturnsValue frame.routine.name, line⟩)
    | [] => return

/-- Increments an iterator. -/
def increment (name : String) (line : SourceLine) : Action σ Flow := do
  let m ← get
  match m.memory.increment name m.scope with
  | .ok memory =>
    set { m with memory }
    note (.assigned name m.scope)
    return .completed
  | .error (.overflow _) =>
    note (.exhausted name)
    return .rangeExhausted
  | .error kind => fail (.runtime ⟨kind, line⟩)

/-- The value of a call whose body ended with the given flow. -/
def ofFlow : Flow → Action σ Value
  | .completed | .rangeExhausted => return .nil
  | .returned value => return value.getD .nil
  | .exit => throw .stop

/-- Turns an interruption by `koniec` into the flow. -/
@[inline] def catchStop (action : Action σ Flow) : Action σ Flow := fun m =>
  match action m with
  | .error .stop m => .ok .exit m
  | result => result

end Action

open Tablica.Action

variable {σ : Type} [Console σ]

mutual

/-- The value of an expression. -/
def evaluate : Nat → Node → Action σ Value
  | 0, _ => throw .outOfFuel
  | fuel + 1, node =>
    match node with
    | .number n => return .number n
    | .text s => return .text s
    | .boolean b => return .ofBool b
    | .var name indices => do load (← keyOf fuel name indices)
    | .operation operator left right line => do
      let left ← evaluate fuel left
      let right ← evaluate fuel right
      Action.ofExcept line (Value.apply operator left right)
    | .call name arguments line => call fuel name arguments line
    | node => fail (.internal (.notAnExpression node.name))

/-- The values of expressions, from the left. -/
def evaluateAll : Nat → List Node → Action σ (List Value)
  | _, [] => return []
  | 0, _ :: _ => throw .outOfFuel
  | fuel + 1, node :: rest => do
    let value ← evaluate fuel node
    let values ← evaluateAll fuel rest
    return value :: values

/-- The key of a variable with the given indices. -/
def keyOf : Nat → String → List Node → Action σ String
  | 0, _, _ => throw .outOfFuel
  | fuel + 1, name, indices => return Memory.key name (← evaluateAll fuel indices)

/-- The value of a call. -/
def call : Nat → String → List Node → SourceLine → Action σ Value
  | 0, _, _, _ => throw .outOfFuel
  | fuel + 1, name, arguments, line => do
    let routine ← lookUp name arguments.length line
    let values ← evaluateAll fuel arguments
    let scope ← openScope routine.name (routine.parameters.zip values)
    let flow ← inFrame ⟨scope, routine⟩ (executeBlock fuel routine.body)
    ofFlow flow

/-- Executes a statement. -/
def execute : Nat → Node → Action σ Flow
  | 0, _ => throw .outOfFuel
  | fuel + 1, node => do
    note (.started node)
    catchStop (executeNode fuel node)

/-- Executes a statement that has been started. -/
def executeNode : Nat → Node → Action σ Flow
  | 0, _ => throw .outOfFuel
  | fuel + 1, node =>
    match node with
    | .endOfLine => return .completed
    | .assignment name indices value isIterator line => do
      let value ← evaluate fuel value
      let key ← keyOf fuel name indices
      store key line fun memory scope =>
        if isIterator then memory.bindIterator key value scope else memory.save key value scope
      return .completed
    | .command .print argument _ =>
      match argument with
      | none => return .completed
      | some node => do
        write (printed (← evaluate fuel node))
        return .completed
    | .command .read argument line =>
      match argument with
      | some (.var name indices) => do
        let input ← ask s!"{name}: "
        let key ← keyOf fuel name indices
        store key line fun memory scope => memory.save key (.ofInput input) scope
        return .completed
      | _ => fail (.runtime ⟨.readTargetNotVariable, line⟩)
    | .command .stop _ _ => return .exit
    | .condition test thenBlock elseBlock _ => do
      if (← evaluate fuel test).isTruthy then executeBlock fuel thenBlock
      else
        match elseBlock with
        | some block => executeBlock fuel block
        | none => return .completed
    | .loop test body iterator _ => do
      let flow ← executeLoop fuel test body
      match iterator with
      | some name => remove name
      | none => pure ()
      return flow
    | .routine name parameters body isProcedure _ => do
      modify fun m =>
        { m with routines := m.routines.insert name ⟨name, parameters, body, isProcedure⟩ }
      return .completed
    | .giveBack value line => do
      let value ←
        match value with
        | some node => some <$> evaluate fuel node
        | none => pure none
      checkReturn value line
      return .returned value
    | .increment name line => increment name line
    | node => do
      let _ ← evaluate fuel node
      return .completed

/-- Executes the statements of a block until one of them does not complete. -/
def executeBlock : Nat → List Node → Action σ Flow
  | _, [] => return .completed
  | 0, _ :: _ => throw .outOfFuel
  | fuel + 1, node :: rest => do
    match ← execute fuel node with
    | .completed => executeBlock fuel rest
    | flow => return flow

/-- Executes a body as long as the test holds and the body completes. -/
def executeLoop : Nat → Node → List Node → Action σ Flow
  | 0, _, _ => throw .outOfFuel
  | fuel + 1, test, body => do
    if (← evaluate fuel test).isTruthy then
      match ← executeBlock fuel body with
      | .completed => executeLoop fuel test body
      | .rangeExhausted => return .completed
      | flow => return flow
    else return .completed

end

/-- What a flow at the end of a program means. -/
def Verdict.ofFlow : Flow → Verdict
  | .completed | .rangeExhausted => .finished
  | .exit => .exited
  | .returned _ => .failed (.internal .returnEscaped)

/-- What an interruption of a program means. -/
def Verdict.ofInterruption : Interruption → Verdict
  | .stop => .exited
  | .failed error => .failed error
  | .outOfFuel => .unfinished

/-- Runs a program.  Whatever its end, the console is flushed at last, and a console that refuses
this decides the verdict. -/
def run (fuel : Nat) (nodes : List Node) (m : Machine σ) : Verdict × Machine σ :=
  let (verdict, m) :=
    match executeBlock fuel nodes m with
    | .ok flow m => (Verdict.ofFlow flow, m)
    | .error interruption m => (Verdict.ofInterruption interruption, m)
  if verdict = .unfinished then (verdict, m)
  else
    match (flush : Action σ Unit) m with
    | .ok _ m => (verdict, m)
    | .error interruption m => (Verdict.ofInterruption interruption, m)

end Tablica
