import Tablica.Execution.Evaluation

/-!
# Tasks and their courses

The functions that evaluate and execute call each other.  Such a call, without its fuel, is a
**task**.  What a task does by itself is little: it acts on the machine, and it has other tasks
done and goes on with their outcomes.  Seen in this way a task has a **course**, a tree that
either ends with an outcome or asks for another task on a machine and branches over that task's
outcome:

    ask      the task and the machine on which it is to be done
    answer   its outcome
    ...
    end      an outcome

The course of a task knows nothing about fuel.  Answering its questions by the tasks themselves,
each with one unit of fuel less, gives back the task with its fuel (`run_succ`).  So a course
shows which tasks a task calls, on which machines, and in which order; this is what every
statement about a run is proved from.

* `Task`, `Task.run` — the calls, and what the evaluator makes of them;
* `Course`, `Plan`, `Task.plan` — the courses;
* `Task.run_succ` — fuel answers the questions of a course.
-/

namespace EStateM.Result

open Tablica

variable {σ α : Type}

/-- The machine after a computation. -/
def machine : Result Interruption (Machine σ) α → Machine σ
  | .ok _ m => m
  | .error _ m => m

/-- What a computation answered, unless it was interrupted. -/
def answer? : Result Interruption (Machine σ) α → Option α
  | .ok a _ => some a
  | .error _ _ => none

/-- Whether a computation was interrupted because its fuel was too small. -/
def IsUnfinished : Result Interruption (Machine σ) α → Prop
  | .error .outOfFuel _ => True
  | _ => False

@[simp] theorem machine_ok (a : α) (m : Machine σ) :
    (.ok a m : Result Interruption (Machine σ) α).machine = m := rfl

@[simp] theorem machine_error (e : Interruption) (m : Machine σ) :
    (.error e m : Result Interruption (Machine σ) α).machine = m := rfl

theorem isUnfinished_error {e : Interruption} {m : Machine σ} :
    (.error e m : Result Interruption (Machine σ) α).IsUnfinished ↔ e = .outOfFuel := by
  cases e <;> simp [IsUnfinished]

end EStateM.Result

namespace Tablica

variable {σ α β : Type}

/-- A call of one of the functions that evaluate and execute. -/
inductive Task
  | evaluate (node : Node)
  | evaluateAll (nodes : List Node)
  | keyOf (name : String) (indices : List Node)
  | call (name : String) (arguments : List Node) (line : SourceLine)
  | execute (node : Node)
  | perform (node : Node)
  | block (nodes : List Node)
  | loop (test : Node) (body : List Node)

/-- What a task answers. -/
@[reducible] def Task.Answer : Task → Type
  | evaluate _ | call _ _ _ => Value
  | evaluateAll _ => List Value
  | keyOf _ _ => String
  | execute _ | perform _ | block _ | loop _ _ => Flow

/-- How a computation on a machine ends. -/
abbrev Conclusion (σ α : Type) := EStateM.Result Interruption (Machine σ) α

/-- A task with the given fuel. -/
def Task.run [Console σ] : (task : Task) → Nat → Action σ task.Answer
  | .evaluate node, fuel => Tablica.evaluate fuel node
  | .evaluateAll nodes, fuel => Tablica.evaluateAll fuel nodes
  | .keyOf name indices, fuel => Tablica.keyOf fuel name indices
  | .call name arguments line, fuel => Tablica.call fuel name arguments line
  | .execute node, fuel => Tablica.execute fuel node
  | .perform node, fuel => Tablica.executeNode fuel node
  | .block nodes, fuel => Tablica.executeBlock fuel nodes
  | .loop test body, fuel => Tablica.executeLoop fuel test body

/-- A course: it ends, or it asks for a task on a machine and goes on with the outcome. -/
inductive Course (σ α : Type)
  | ended (outcome : Conclusion σ α)
  | asking (task : Task) (machine : Machine σ) (next : Conclusion σ task.Answer → Course σ α)

namespace Course

/-- Goes on with another course where the first one ends. -/
def bind : Course σ α → (Conclusion σ α → Course σ β) → Course σ β
  | ended outcome, f => f outcome
  | asking task m next, f => asking task m fun outcome => (next outcome).bind f

/-- The outcome of a course whose questions are answered. -/
def settle (answer : (task : Task) → Action σ task.Answer) : Course σ α → Conclusion σ α
  | ended outcome => outcome
  | asking task m next => (next (answer task m)).settle answer

theorem settle_bind (answer : (task : Task) → Action σ task.Answer) (c : Course σ α)
    (f : Conclusion σ α → Course σ β) :
    (c.bind f).settle answer = (f (c.settle answer)).settle answer := by
  induction c with
  | ended outcome => rfl
  | asking task m next ih => exact ih (answer task m)

end Course

/-- A computation on a machine that can ask for tasks. -/
def Plan (σ α : Type) := Machine σ → Course σ α

namespace Plan

instance : Monad (Plan σ) where
  pure a := fun m => .ended (.ok a m)
  bind p f := fun m => (p m).bind fun
    | .ok a m => f a m
    | .error e m => .ended (.error e m)

/-- An action asks for nothing. -/
def act (action : Action σ α) : Plan σ α := fun m => .ended (action m)

/-- Asks for a task. -/
def ask (task : Task) : Plan σ task.Answer := fun m => .asking task m .ended

/-- Turns an interruption by `koniec` into the flow. -/
def catchStop (p : Plan σ Flow) : Plan σ Flow := fun m =>
  (p m).bind fun
    | .error .stop m => .ended (.ok .exit m)
    | outcome => .ended outcome

/-- Does the body of a call in its frame, which is left however the body ends. -/
def inFrame (frame : Frame) (p : Plan σ α) : Plan σ α := fun m =>
  (p { m with frames := frame :: m.frames }).bind fun
    | .ok a m => .ended (.ok a (Action.leave frame.scope m))
    | .error e m => .ended (.error e (Action.leave frame.scope m))

end Plan

open Tablica.Action Tablica.Plan

/-- The course of an evaluation. -/
def Node.evaluation : Node → Plan σ Value
  | .number n => return .number n
  | .text s => return .text s
  | .boolean b => return .ofBool b
  | .var name indices => do
    let key ← ask (.keyOf name indices)
    act (load key)
  | .operation operator left right line => do
    let left ← ask (.evaluate left)
    let right ← ask (.evaluate right)
    act (Action.ofExcept line (Value.apply operator left right))
  | .call name arguments line => ask (.call name arguments line)
  | node => act (fail (.internal (.notAnExpression node.name)))

/-- The course of a statement that has been started. -/
def Node.execution [Console σ] : Node → Plan σ Flow
  | .endOfLine => return .completed
  | .assignment name indices value isIterator line => do
    let value ← ask (.evaluate value)
    let key ← ask (.keyOf name indices)
    act (store key line fun memory scope =>
      if isIterator then memory.bindIterator key value scope else memory.save key value scope)
    return .completed
  | .command .print none _ => return .completed
  | .command .print (some node) _ => do
    let value ← ask (.evaluate node)
    act (write (printed value))
    return .completed
  | .command .read (some (.var name indices)) line => do
    let input ← act (Action.ask s!"{name}: ")
    let key ← ask (.keyOf name indices)
    act (store key line fun memory scope => memory.save key (.ofInput input) scope)
    return .completed
  | .command .read _ line => act (fail (.runtime ⟨.readTargetNotVariable, line⟩))
  | .command .stop _ _ => return .exit
  | .condition test thenBlock elseBlock _ => do
    let value ← ask (.evaluate test)
    if value.isTruthy then ask (.block thenBlock)
    else
      match elseBlock with
      | some block => ask (.block block)
      | none => return .completed
  | .loop test body none _ => ask (.loop test body)
  | .loop test body (some name) _ => do
    let flow ← ask (.loop test body)
    act (remove name)
    return flow
  | .routine name parameters body isProcedure _ => do
    act (modify fun m =>
      { m with routines := m.routines.insert name ⟨name, parameters, body, isProcedure⟩ })
    return .completed
  | .giveBack none _ => return .returned none
  | .giveBack (some node) line => do
    let value ← ask (.evaluate node)
    act (checkReturn (some value) line)
    return .returned (some value)
  | .increment name line => act (Action.increment name line)
  | node => do
    let _ ← ask (.evaluate node)
    return .completed

/-- The course of a task. -/
def Task.plan [Console σ] : (task : Task) → Plan σ task.Answer
  | .evaluate node => node.evaluation
  | .evaluateAll [] => show Plan σ (List Value) from return []
  | .evaluateAll (node :: rest) => show Plan σ (List Value) from do
    let value ← ask (.evaluate node)
    let values ← ask (.evaluateAll rest)
    return value :: values
  | .keyOf name indices => show Plan σ String from do
    let values ← ask (.evaluateAll indices)
    return Memory.key name values
  | .call name arguments line => show Plan σ Value from do
    let routine ← act (lookUp name arguments.length line)
    let values ← ask (.evaluateAll arguments)
    let scope ← act (openScope routine.name (routine.parameters.zip values))
    let flow ← inFrame ⟨scope, routine⟩ (ask (.block routine.body))
    act (ofFlow flow)
  | .execute node => show Plan σ Flow from do
    act (note (.started node))
    catchStop (ask (.perform node))
  | .perform node => node.execution
  | .block [] => show Plan σ Flow from return .completed
  | .block (node :: rest) => show Plan σ Flow from do
    let flow ← ask (.execute node)
    if flow = .completed then ask (.block rest) else return flow
  | .loop test body => show Plan σ Flow from do
    let value ← ask (.evaluate test)
    if value.isTruthy then
      let flow ← ask (.block body)
      if flow = .completed then ask (.loop test body)
      else return if flow = .rangeExhausted then .completed else flow
    else return .completed

/-! ### Answering the questions -/

section Settling

variable (answer : (task : Task) → Action σ task.Answer)

/-- What a plan does when its questions are answered. -/
def Plan.settle (p : Plan σ α) : Action σ α := fun m => (p m).settle answer

theorem Plan.settle_bind (p : Plan σ α) (f : α → Plan σ β) :
    (p >>= f).settle answer = p.settle answer >>= fun a => (f a).settle answer := by
  funext m
  simp only [Plan.settle, bind, EStateM.bind, Course.settle_bind]
  cases (p m).settle answer <;> rfl

theorem Plan.settle_catchStop (p : Plan σ Flow) :
    (Plan.catchStop p).settle answer = Action.catchStop (p.settle answer) := by
  funext m
  simp only [Plan.settle, Plan.catchStop, Action.catchStop, Course.settle_bind]
  cases (p m).settle answer with
  | ok => rfl
  | error e => cases e <;> rfl

theorem Plan.settle_inFrame (frame : Frame) (p : Plan σ α) :
    (Plan.inFrame frame p).settle answer = Action.inFrame frame (p.settle answer) := by
  funext m
  simp only [Plan.settle, Plan.inFrame, Action.inFrame, Course.settle_bind]
  cases (p { m with frames := frame :: m.frames }).settle answer <;> rfl

theorem Plan.settle_ite (c : Prop) [Decidable c] (p q : Plan σ α) :
    (if c then p else q).settle answer = if c then p.settle answer else q.settle answer := by
  split <;> rfl

end Settling

section Fuel

variable [Console σ]

/-- The tasks themselves as answers, all with the same fuel. -/
def answers (fuel : Nat) (task : Task) : Action σ task.Answer :=
  task.run fuel

theorem Node.settle_evaluation (node : Node) (fuel : Nat) :
    (evaluate (fuel + 1) node : Action σ Value) = node.evaluation.settle (answers fuel) := by
  cases node <;> simp only [evaluate, Node.evaluation, Plan.settle_bind] <;> rfl

theorem Node.settle_execution (node : Node) (fuel : Nat) :
    (executeNode (fuel + 1) node : Action σ Flow) = node.execution.settle (answers fuel) := by
  cases node with
  | command command argument line =>
    cases command with
    | print => cases argument <;> simp only [executeNode, Node.execution, Plan.settle_bind] <;> rfl
    | read =>
      cases argument with
      | none => rfl
      | some node =>
        cases node <;> simp only [executeNode, Node.execution, Plan.settle_bind] <;> rfl
    | stop => rfl
  | condition test thenBlock elseBlock line =>
    simp only [executeNode, Node.execution, Plan.settle_bind, Plan.settle_ite]
    cases elseBlock <;> rfl
  | loop test body iterator line =>
    cases iterator with
    | none =>
      have h : (executeLoop fuel test body >>= fun flow => pure () >>= fun _ => pure flow)
          = (executeLoop fuel test body : Action σ Flow) := by simp
      exact h
    | some name => simp only [executeNode, Node.execution, Plan.settle_bind]; rfl
  | giveBack value line =>
    cases value with
    | none => rfl
    | some node =>
      simp only [executeNode, Node.execution, Plan.settle_bind, bind_map_left]
      rfl
  | _ =>
    simp only [executeNode, Node.execution, Plan.settle_bind]
    rfl

/-- **Fuel answers questions.**  A task with some fuel is its course, answered by the tasks it
asks for with one unit less. -/
theorem Task.run_succ (task : Task) (fuel : Nat) :
    (task.run (fuel + 1) : Action σ task.Answer) = task.plan.settle (answers fuel) := by
  cases task with
  | evaluate node => exact node.settle_evaluation fuel
  | perform node => exact node.settle_execution fuel
  | evaluateAll nodes =>
    cases nodes <;> simp only [run, plan, Tablica.evaluateAll, Plan.settle_bind] <;> rfl
  | keyOf name indices => simp only [run, plan, Tablica.keyOf, Plan.settle_bind]; rfl
  | call name arguments line =>
    simp only [run, plan, Tablica.call, Plan.settle_bind, Plan.settle_inFrame]; rfl
  | execute node =>
    simp only [run, plan, Tablica.execute, Plan.settle_bind, Plan.settle_catchStop]; rfl
  | block nodes =>
    cases nodes with
    | nil => rfl
    | cons node rest =>
      simp only [run, plan, executeBlock, Plan.settle_bind, Plan.settle_ite]
      refine congrArg (Tablica.execute fuel node >>= ·) (funext fun flow => ?_)
      cases flow <;> rfl
  | loop test body =>
    simp only [run, plan, executeLoop, Plan.settle_bind, Plan.settle_ite]
    refine congrArg (Tablica.evaluate fuel test >>= ·) (funext fun value => ?_)
    cases value.isTruthy with
    | false => rfl
    | true =>
      refine congrArg (executeBlock fuel body >>= ·) (funext fun flow => ?_)
      cases flow <;> rfl

/-- Without fuel a task ends only if it asks for nothing. -/
theorem Task.run_zero (task : Task) (m : Machine σ) :
    task.run 0 m = .error .outOfFuel m ∨ task.plan m = .ended (task.run 0 m) := by
  cases task with
  | evaluateAll nodes =>
    cases nodes with
    | nil => exact .inr rfl
    | cons => exact .inl rfl
  | block nodes =>
    cases nodes with
    | nil => exact .inr rfl
    | cons => exact .inl rfl
  | _ => exact .inl rfl

end Fuel

end Tablica
