import Tablica.Proofs.Execution.Cells
import Tablica.Proofs.Execution.Course

/-!
# What the actions do

Every action on a machine that is not a task has a short description: it leaves memory, routines
and frames alone, or it replaces the memory by the result of one operation.  The descriptions here
are all that is used of the actions later on.

* `Machine.Alike` — machines that differ in console and in later journal entries at most;
* `Action.store_cases`, `Action.increment_cases`, … — one description for each action;
* `Machine.conclude`, `Machine.run_eq_conclude` — how a run ends.
-/

namespace Tablica

variable {σ α β : Type}

/-- Machines that differ in the console at most, and in what was entered in the journal since. -/
structure Machine.Alike (m m' : Machine σ) : Prop where
  memory : m'.memory = m.memory
  routines : m'.routines = m.routines
  frames : m'.frames = m.frames
  journal : m.journal <:+ m'.journal

namespace Machine

theorem Alike.refl (m : Machine σ) : m.Alike m := ⟨rfl, rfl, rfl, List.suffix_refl _⟩

theorem Alike.record (m : Machine σ) (event : Event) : m.Alike (m.record event) :=
  ⟨rfl, rfl, rfl, List.suffix_cons _ _⟩

theorem Alike.trans {m m' m'' : Machine σ} (h : m.Alike m') (h' : m'.Alike m'') : m.Alike m'' :=
  ⟨h'.memory.trans h.memory, h'.routines.trans h.routines, h'.frames.trans h.frames,
    h.journal.trans h'.journal⟩

theorem Alike.scope {m m' : Machine σ} (h : m.Alike m') : m'.scope = m.scope := by
  simp only [Machine.scope, h.frames]

/-- The machine whose memory is replaced. -/
def withMemory (m : Machine σ) (memory : Memory) : Machine σ := { m with memory }

/-- The machine after an error of the program. -/
def failing (m : Machine σ) (error : RuntimeError) : Machine σ :=
  m.record (.failed (.runtime error))

/-- From a machine to one in which the body of a call begins. -/
structure Enters (m : Machine σ) (frame : Frame) (locals : List (String × Value))
    (m' : Machine σ) : Prop where
  scope : frame.scope = m.memory.nextScope
  frames : m'.frames = frame :: m.frames
  memory : m'.memory = m.memory.openWith locals
  routines : m'.routines = m.routines
  console : m'.console = m.console

theorem Enters.scope_eq {m m' : Machine σ} {frame : Frame} {locals : List (String × Value)}
    (h : m.Enters frame locals m') : m'.scope = some frame.scope := by
  simp [Machine.scope, h.frames]

end Machine

namespace Action

theorem get_bind (f : Machine σ → Action σ α) (m : Machine σ) : (get >>= f) m = f m m := rfl

theorem modify_bind (g : Machine σ → Machine σ) (f : PUnit → Action σ α) (m : Machine σ) :
    (modify g >>= f) m = f () (g m) := rfl

theorem bind_of_ok {action : Action σ α} {f : α → Action σ β} {a : α} {m m' : Machine σ}
    (h : action m = .ok a m') : (action >>= f) m = f a m' := by
  simp only [bind, EStateM.bind, h]

theorem remove_run (key : String) (m : Machine σ) :
    remove key m
      = .ok () ((m.withMemory (m.memory.delete key m.scope)).record (.removed key m.scope)) := rfl

/-- A result for a line is taken over, or the fault is an error of that line. -/
theorem ofExcept_cases (line : SourceLine) (result : Except RuntimeFault α) (m : Machine σ) :
    (∃ a, result = .ok a ∧ ofExcept line result m = .ok a m)
      ∨ ∃ kind, result = .error kind ∧ ofExcept line result m
          = .error (.failed (.runtime ⟨kind, line⟩)) (m.failing ⟨kind, line⟩) := by
  cases result with
  | ok a => exact .inl ⟨a, rfl, rfl⟩
  | error kind => exact .inr ⟨kind, rfl, rfl⟩

section Store

variable {key : String} {line : SourceLine} {m : Machine σ}
  {write : Memory → Option ScopeId → Except RuntimeFault Memory}

theorem store_of_ok {memory : Memory} (h : write m.memory m.scope = .ok memory) :
    store key line write m = .ok () ((m.withMemory memory).record (.assigned key m.scope)) := by
  rw [store, get_bind, h]
  rfl

theorem store_of_error {kind : RuntimeFault} (h : write m.memory m.scope = .error kind) :
    store key line write m
      = .error (.failed (.runtime ⟨kind, line⟩)) (m.failing ⟨kind, line⟩) := by
  rw [store, get_bind, h]
  rfl

end Store

/-- A write replaces the memory, or its fault is an error of the line. -/
theorem store_cases (key : String) (line : SourceLine)
    (write : Memory → Option ScopeId → Except RuntimeFault Memory) (m : Machine σ) :
    (∃ memory, write m.memory m.scope = .ok memory ∧ store key line write m
        = .ok () ((m.withMemory memory).record (.assigned key m.scope)))
      ∨ ∃ kind, write m.memory m.scope = .error kind ∧ store key line write m
          = .error (.failed (.runtime ⟨kind, line⟩)) (m.failing ⟨kind, line⟩) := by
  cases hwrite : write m.memory m.scope with
  | ok memory => exact .inl ⟨memory, rfl, store_of_ok hwrite⟩
  | error kind => exact .inr ⟨kind, rfl, store_of_error hwrite⟩

section Increment

variable {name : String} {line : SourceLine} {m : Machine σ}

theorem increment_of_ok {memory : Memory} (h : m.memory.increment name m.scope = .ok memory) :
    increment name line m
      = .ok .completed ((m.withMemory memory).record (.assigned name m.scope)) := by
  rw [increment, get_bind, h]
  rfl

theorem increment_of_overflow {operator : Operator}
    (h : m.memory.increment name m.scope = .error (.overflow operator)) :
    increment name line m = .ok .rangeExhausted (m.record (.exhausted name)) := by
  rw [increment, get_bind, h]
  rfl

end Increment

/-- An increment replaces the memory, exhausts its range, or fails. -/
theorem increment_cases (name : String) (line : SourceLine) (m : Machine σ) :
    (∃ memory, m.memory.increment name m.scope = .ok memory ∧ increment name line m
        = .ok .completed ((m.withMemory memory).record (.assigned name m.scope)))
      ∨ increment name line m = .ok .rangeExhausted (m.record (.exhausted name))
      ∨ ∃ kind, increment name line m
          = .error (.failed (.runtime ⟨kind, line⟩)) (m.failing ⟨kind, line⟩) := by
  cases hincrement : m.memory.increment name m.scope with
  | ok memory => exact .inl ⟨memory, rfl, increment_of_ok hincrement⟩
  | error kind =>
    cases kind with
    | overflow operator => exact .inr (.inl (increment_of_overflow hincrement))
    | _ =>
      rw [increment, get_bind, hincrement]
      exact .inr (.inr ⟨_, rfl⟩)

/-- A console operation changes the console and answers what the console answers. -/
theorem ofConsole_run (operation : σ → Except String α × σ) (m : Machine σ) :
    ofConsole operation m
      = match (operation m.console).1 with
        | .ok a => .ok a { m with console := (operation m.console).2 }
        | .error reason =>
          .error (.failed (.internal (.console reason)))
            (Machine.record { m with console := (operation m.console).2 }
              (.failed (.internal (.console reason)))) := by
  simp only [ofConsole, get_bind, modify_bind]
  cases (operation m.console).1 <;> rfl

/-- Looking up a routine finds one that fits the call, or fails. -/
theorem lookUp_cases (name : String) (arguments : Nat) (line : SourceLine) (m : Machine σ) :
    (∃ routine, m.routines[name]? = some routine ∧ arguments = routine.parameters.length
        ∧ m.frames.length < maxCallDepth ∧ lookUp name arguments line m = .ok routine m)
      ∨ ∃ kind, lookUp name arguments line m
          = .error (.failed (.runtime ⟨kind, line⟩)) (m.failing ⟨kind, line⟩) := by
  rw [lookUp, get_bind]
  cases hroutine : m.routines[name]? with
  | none => exact .inr ⟨_, rfl⟩
  | some routine =>
    by_cases hcount : arguments = routine.parameters.length
    · by_cases hdepth : maxCallDepth ≤ m.frames.length
      · exact .inr ⟨_, by simp only [ne_eq, hcount, not_true, if_false, hdepth, if_true]; rfl⟩
      · refine .inl ⟨routine, rfl, hcount, Nat.lt_of_not_le hdepth, ?_⟩
        simp only [ne_eq, hcount, not_true, if_false, hdepth]
        rfl
    · exact .inr ⟨_, by simp only [ne_eq, hcount, not_false_eq_true, if_true]; rfl⟩

theorem lookUp_eq_ok {name : String} {arguments : Nat} {line : SourceLine} {m m' : Machine σ}
    {routine : Routine} (h : lookUp name arguments line m = .ok routine m') :
    m.routines[name]? = some routine ∧ arguments = routine.parameters.length := by
  rcases lookUp_cases name arguments line m with ⟨_, hroutine, hcount, -, hrun⟩ | ⟨_, hrun⟩
  · cases h.symm.trans hrun
    exact ⟨hroutine, hcount⟩
  · cases h.symm.trans hrun

/-- Checking a value to return does nothing, or fails. -/
theorem checkReturn_cases (value : Option Value) (line : SourceLine) (m : Machine σ) :
    checkReturn value line m = .ok () m
      ∨ ∃ kind, checkReturn value line m
          = .error (.failed (.runtime ⟨kind, line⟩)) (m.failing ⟨kind, line⟩) := by
  cases value with
  | none => exact .inl rfl
  | some value =>
    simp only [checkReturn, get_bind, Option.isSome_some, if_true]
    cases m.frames with
    | nil => exact .inl rfl
    | cons frame frames =>
      cases hprocedure : frame.routine.isProcedure with
      | false => exact .inl (by simp [hprocedure]; rfl)
      | true => exact .inr ⟨_, by simp only [hprocedure, if_true]; rfl⟩

/-- A flow has a value, or it is the one of `koniec`. -/
theorem ofFlow_cases (flow : Flow) (m : Machine σ) :
    (∃ value, ofFlow flow m = .ok value m) ∨ ofFlow flow m = .error .stop m := by
  cases flow with
  | completed => exact .inl ⟨_, rfl⟩
  | rangeExhausted => exact .inl ⟨_, rfl⟩
  | returned value => exact .inl ⟨_, rfl⟩
  | exit => exact .inr rfl

/-- What the opening of a scope enters in the journal, the last event first. -/
def openingEvents (name : String) (locals : List (String × Value)) (scope : ScopeId) :
    List Event :=
  (locals.map fun entry => .assigned entry.1 (some scope)).reverse
    ++ [.called name scope, .opened scope]

/-- A call begins with a new scope. -/
theorem openScope_run (name : String) (locals : List (String × Value)) (m : Machine σ) :
    openScope name locals m
      = .ok m.memory.nextScope
        { m with
          memory := m.memory.openWith locals
          journal := openingEvents name locals m.memory.nextScope ++ m.journal } := by
  have hdefine : ∀ (locals : List (String × Value)) (m : Machine σ) (scope : ScopeId),
      (forIn locals PUnit.unit (fun entry _ => do
          modify fun m => { m with memory := m.memory.defineLocal entry.1 entry.2 scope }
          note (.assigned entry.1 (some scope))
          pure (ForInStep.yield PUnit.unit)) : Action σ PUnit) m
        = .ok PUnit.unit
          { m with
            memory := locals.foldl
              (fun memory entry => memory.defineLocal entry.1 entry.2 scope) m.memory
            journal :=
              (locals.map fun entry => .assigned entry.1 (some scope)).reverse ++ m.journal } := by
    intro locals
    induction locals with
    | nil => exact fun m scope => rfl
    | cons entry locals ih =>
      intro m scope
      have hrest := ih
        (Machine.record { m with memory := m.memory.defineLocal entry.1 entry.2 scope }
          (.assigned entry.1 (some scope))) scope
      simp only [List.forIn_cons, List.foldl_cons, List.map_cons, List.reverse_cons,
        List.append_assoc, List.singleton_append]
      exact hrest
  have hrun := hdefine locals
    (Machine.record (Machine.record { m with memory := m.memory.openScope.2 }
      (.opened m.memory.nextScope)) (.called name m.memory.nextScope)) m.memory.nextScope
  rw [openingEvents, List.append_assoc]
  exact bind_of_ok (f := fun _ => pure m.memory.nextScope) hrun

end Action

/-- The machine on which the body of a call begins: the scope is open and the frame there. -/
def Machine.entering (m : Machine σ) (routine : Routine) (locals : List (String × Value)) :
    Machine σ where
  console := m.console
  memory := m.memory.openWith locals
  routines := m.routines
  frames := ⟨m.memory.nextScope, routine⟩ :: m.frames
  journal := Action.openingEvents routine.name locals m.memory.nextScope ++ m.journal

theorem Machine.enters_entering (m : Machine σ) (routine : Routine)
    (locals : List (String × Value)) :
    m.Enters ⟨m.memory.nextScope, routine⟩ locals (m.entering routine locals) :=
  ⟨rfl, rfl, rfl, rfl, rfl⟩

namespace Action

theorem leave_frames (scope : ScopeId) (m : Machine σ) :
    (leave scope m).frames = m.frames.tail := by
  simp only [leave]
  split <;> rfl

theorem leave_routines (scope : ScopeId) (m : Machine σ) :
    (leave scope m).routines = m.routines := by
  simp only [leave]
  split <;> rfl

theorem leave_console (scope : ScopeId) (m : Machine σ) :
    (leave scope m).console = m.console := by
  simp only [leave]
  split <;> rfl

theorem leave_memory (scope : ScopeId) (m : Machine σ) :
    (leave scope m).memory = m.memory.closeScope scope := by
  simp only [leave]
  split
  · rename_i hscope
    have herase : m.memory.scopes.erase scope = m.memory.scopes := by
      apply Std.ExtTreeMap.ext_getElem?
      intro scope'
      rw [Std.ExtTreeMap.getElem?_erase]
      split
      · rename_i heq
        rw [← Std.LawfulEqCmp.eq_of_compare heq, hscope]
      · rfl
    simp [Memory.closeScope, herase]
  · rfl

theorem leave_journal (scope : ScopeId) (m : Machine σ) :
    m.journal <:+ (leave scope m).journal := by
  simp only [leave]
  split
  · exact List.suffix_refl _
  · exact List.suffix_cons _ _

/-! ### Actions that leave the memory alone -/

section Alike

variable (m : Machine σ)

theorem note_alike (event : Event) : m.Alike (note event m).machine :=
  .record m event

theorem fail_alike (error : ExecutionError) : m.Alike (fail error m : Conclusion σ α).machine :=
  .record m _

theorem load_alike (key : String) : m.Alike (load key m).machine :=
  .refl m

theorem ofExcept_alike (line : SourceLine) (result : Except RuntimeFault α) :
    m.Alike (ofExcept line result m).machine := by
  rcases ofExcept_cases line result m with ⟨a, -, h⟩ | ⟨kind, -, h⟩
  · rw [h]
    exact .refl m
  · rw [h]
    exact .record m _

theorem ofConsole_alike (operation : σ → Except String α × σ) :
    m.Alike (ofConsole operation m).machine := by
  rw [ofConsole_run]
  cases (operation m.console).1 with
  | ok a => exact ⟨rfl, rfl, rfl, List.suffix_refl _⟩
  | error reason => exact ⟨rfl, rfl, rfl, List.suffix_cons _ _⟩

theorem ask_alike [Console σ] (prompt : String) : m.Alike (ask prompt m).machine :=
  (Machine.Alike.record m _).trans (ofConsole_alike _ (Console.readLine prompt))

theorem write_alike [Console σ] (text : String) : m.Alike (write text m).machine :=
  (Machine.Alike.record m _).trans (ofConsole_alike _ (Console.write text))

theorem flush_alike [Console σ] : m.Alike (flush m : Conclusion σ Unit).machine :=
  (Machine.Alike.record m _).trans (ofConsole_alike _ Console.flush)

theorem checkReturn_alike (value : Option Value) (line : SourceLine) :
    m.Alike (checkReturn value line m).machine := by
  rcases checkReturn_cases value line m with h | ⟨kind, h⟩
  · rw [h]
    exact .refl m
  · rw [h]
    exact .record m _

theorem ofFlow_alike (flow : Flow) : m.Alike (ofFlow flow m).machine := by
  rcases ofFlow_cases flow m with ⟨value, h⟩ | h
  · rw [h]
    exact .refl m
  · rw [h]
    exact .refl m

end Alike

end Action

/-! ### The end of a run -/

/-- The end of a run: the console is flushed, and a refusal decides the verdict. -/
def Machine.conclude [Console σ] (ended : Machine σ) (verdict : Verdict) : Verdict × Machine σ :=
  match Console.flush ended.console with
  | (.ok _, console) => (verdict, { ended.record .flushed with console })
  | (.error reason, console) =>
    let error := .internal (.console reason)
    (.failed error, Machine.record { ended.record .flushed with console } (.failed error))

/-- The verdict of a block that is a whole program. -/
def Verdict.ofConclusion : Conclusion σ Flow → Verdict
  | .ok flow _ => .ofFlow flow
  | .error interruption _ => .ofInterruption interruption

namespace Machine

variable {ended : Machine σ} {verdict : Verdict}

theorem conclude_eq_flush [Console σ] (ended : Machine σ) (verdict : Verdict) :
    (match (Action.flush : Action σ Unit) ended with
      | .ok _ m => (verdict, m)
      | .error interruption m => (Verdict.ofInterruption interruption, m))
      = ended.conclude verdict := by
  have hrun : (Action.flush : Action σ Unit) ended
      = Action.ofConsole Console.flush (ended.record .flushed) := rfl
  rw [hrun, Action.ofConsole_run, conclude]
  cases hanswer : Console.flush ended.console with
  | mk answer console => cases answer <;> simp [record, hanswer, Verdict.ofInterruption]

/-- A flush that is not refused leaves the verdict as it is. -/
theorem conclude_verdict [Console σ] (h : (Console.flush ended.console).1 = .ok ()) :
    (ended.conclude verdict).1 = verdict := by
  rw [conclude]
  split
  · rfl
  · rename_i hflush
    rw [hflush] at h
    cases h

/-- A run is that of the block, and then it is concluded. -/
theorem run_eq_conclude [Console σ] {fuel : Nat} {program : List Node} {m : Machine σ}
    {outcome : Conclusion σ Flow} (h : executeBlock fuel program m = outcome) :
    run fuel program m =
      if Verdict.ofConclusion outcome = .unfinished then (.ofConclusion outcome, outcome.machine)
      else outcome.machine.conclude (.ofConclusion outcome) := by
  have hconclude : ∀ (verdict : Verdict) (ended : Machine σ),
      (if verdict = .unfinished then (verdict, ended)
        else match (Action.flush : Action σ Unit) ended with
          | .ok _ m => (verdict, m)
          | .error interruption m => (Verdict.ofInterruption interruption, m))
        = if verdict = .unfinished then (verdict, ended) else ended.conclude verdict :=
    fun verdict ended => by rw [← conclude_eq_flush]
  unfold run
  rw [h]
  cases outcome with
  | ok flow ended => exact hconclude _ ended
  | error interruption ended => exact hconclude _ ended

end Machine

end Tablica
