import Tablica.Proofs.Execution.Literals

/-!
# No dynamic scoping

A call sees the globals and its own scope, and nothing of the scopes of the calls around it.  So it
does the same on two machines that differ in those.

The two runs are followed side by side.  Since the call began, the same frames were put upon the
frames of both machines, and the scopes of these **inner** frames hold the same cells:

    inner          the same frames, the same tables
    outer          as many frames on both sides; nothing is known of their tables

Everything the body does, in loops and in further calls, resolves its names in the scope of the
first inner frame or among the globals, so it keeps the two machines in agreement, and both answer
the same.

* `Memory.Agree` — memories with the same globals and the same cells in some scopes;
* `Machine.Agrees` — machines with the same inner frames;
* `Course.InStep`, `Plan.IsInStep` — courses that ask for the same and end with the same;
* `Task.run_inStep` — every task inside of a call does the same on machines that agree;
* `calls_do_not_see_their_callers` — a call with literal arguments does the same on machines that
  look the same from outside of their calls.
-/

namespace Tablica

variable {σ α β : Type}

/-! ### Memories -/

/-- Two memories with the same globals, and with the same tables for the given scopes. -/
structure Memory.Agree (scopes : List ScopeId) (m m' : Memory) : Prop where
  globals : m'.globals = m.globals
  nextScope : m'.nextScope = m.nextScope
  tables : ∀ scope ∈ scopes, m'.scopes[scope]? = m.scopes[scope]?

namespace Memory.Agree

variable {scopes : List ScopeId} {m m' : Memory} {scope : ScopeId}

theorem scopeTable (h : Agree scopes m m') (hscope : scope ∈ scopes) :
    m'.scopeTable scope = m.scopeTable scope := by
  rw [Memory.scopeTable, Memory.scopeTable, h.tables scope hscope]

theorem local? (h : Agree scopes m m') (hscope : scope ∈ scopes) (key : String) :
    m'.local? key (some scope) = m.local? key (some scope) := by
  simp only [Memory.local?, Option.bind_some, h.scopeTable hscope]

theorem find? (h : Agree scopes m m') (hscope : scope ∈ scopes) (key : String) :
    m'.find? key (some scope) = m.find? key (some scope) := by
  rw [Memory.find?, Memory.find?, h.local? hscope, h.globals]

theorem get (h : Agree scopes m m') (hscope : scope ∈ scopes) (key : String) :
    m'.get key (some scope) = m.get key (some scope) := by
  rw [Memory.get, Memory.get, h.find? hscope]

/-- The same table in the place of the one of a scope. -/
theorem insert (h : Agree scopes m m') (scope : ScopeId) (table : Table) :
    Agree scopes { m with scopes := m.scopes.insert scope table }
      { m' with scopes := m'.scopes.insert scope table } where
  globals := h.globals
  nextScope := h.nextScope
  tables scope' hscope' := by
    simp only [Std.ExtTreeMap.getElem?_insert]
    split
    · rfl
    · exact h.tables scope' hscope'

theorem withGlobals (h : Agree scopes m m') (globals : Table) :
    Agree scopes { m with globals } { m' with globals } where
  globals := rfl
  nextScope := h.nextScope
  tables := h.tables

theorem putLocal (h : Agree scopes m m') (hscope : scope ∈ scopes) (key : String) (cell : Cell) :
    Agree scopes (m.putLocal key cell scope) (m'.putLocal key cell scope) := by
  rw [Memory.putLocal, Memory.putLocal, h.scopeTable hscope]
  exact h.insert scope _

theorem put (h : Agree scopes m m') (hscope : scope ∈ scopes) (key : String) (cell : Cell) :
    Agree scopes (m.put key cell (some scope)) (m'.put key cell (some scope)) := by
  simp only [Memory.put, h.local? hscope, h.globals]
  split
  · exact h.putLocal hscope key cell
  · rw [putGlobal, putGlobal, h.globals]
    exact h.withGlobals _

theorem delete (h : Agree scopes m m') (hscope : scope ∈ scopes) (key : String) :
    Agree scopes (m.delete key (some scope)) (m'.delete key (some scope)) := by
  simp only [Memory.delete, h.local? hscope, h.scopeTable hscope]
  split
  · exact h.insert scope _
  · rw [h.globals]
    exact h.withGlobals _

/-- The scopes that are opened next hold the same cells. -/
theorem openWith (h : Agree scopes m m') (locals : List (String × Value)) :
    Agree (m.nextScope :: scopes) (m.openWith locals) (m'.openWith locals) := by
  have hdefine : ∀ {scope : ScopeId} {m m' : Memory}, Agree (scope :: scopes) m m' →
      Agree (scope :: scopes)
        (locals.foldl (fun memory entry => memory.defineLocal entry.1 entry.2 scope) m)
        (locals.foldl (fun memory entry => memory.defineLocal entry.1 entry.2 scope) m') := by
    induction locals with
    | nil => exact id
    | cons entry locals ih =>
      exact fun hagree => ih (hagree.putLocal List.mem_cons_self entry.1 ⟨entry.2, false⟩)
  have hopen : Agree (m.nextScope :: scopes) m.openScope.2 m'.openScope.2 := by
    refine ⟨h.globals, congrArg (· + 1) h.nextScope, fun scope hscope => ?_⟩
    simp only [Memory.openScope, h.nextScope, Std.ExtTreeMap.getElem?_insert,
      Std.LawfulEqCmp.compare_eq_iff_eq]
    split
    · rfl
    · rename_i hne
      exact h.tables scope ((List.mem_cons.mp hscope).resolve_left (Ne.symm hne))
  rw [Memory.openWith, Memory.openWith, h.nextScope]
  exact hdefine hopen

theorem closeScope (h : Agree (scope :: scopes) m m') :
    Agree scopes (m.closeScope scope) (m'.closeScope scope) where
  globals := h.globals
  nextScope := h.nextScope
  tables scope' hscope' := by
    simp only [Memory.closeScope, Std.ExtTreeMap.getElem?_erase]
    split
    · rfl
    · exact h.tables scope' (List.mem_cons_of_mem _ hscope')

end Memory.Agree

/-! ### Machines -/

/-- Two machines that look the same from outside of their calls.  Nothing is said of the tables of
the scopes. -/
structure Machine.Resembles (m m' : Machine σ) : Prop where
  console : m'.console = m.console
  routines : m'.routines = m.routines
  globals : m'.memory.globals = m.memory.globals
  nextScope : m'.memory.nextScope = m.memory.nextScope
  depth : m'.frames.length = m.frames.length

theorem Machine.Resembles.symm {m m' : Machine σ} (h : m.Resembles m') : m'.Resembles m :=
  ⟨h.console.symm, h.routines.symm, h.globals.symm, h.nextScope.symm, h.depth.symm⟩

/-- The arguments of a call are not seen from outside of it. -/
theorem Machine.resembles_enter (m : Machine σ) (routine : Routine) (values values' : List Value) :
    (m.enter routine values).Resembles (m.enter routine values') where
  console := rfl
  routines := rfl
  globals := (Memory.globals_openWith _ _).trans (Memory.globals_openWith _ _).symm
  nextScope := (Memory.nextScope_openWith _ _).trans (Memory.nextScope_openWith _ _).symm
  depth := rfl

/-- Two machines upon whose frames the same inner frames were put since they had the given
journals. -/
structure Machine.Agrees (journal journal' : List Event) (inner : List Frame)
    (m m' : Machine σ) : Prop where
  console : m'.console = m.console
  routines : m'.routines = m.routines
  memory : Memory.Agree (inner.map Frame.scope) m.memory m'.memory
  depth : m'.frames.length = m.frames.length
  frames : ∃ outer outer', m.frames = inner ++ outer ∧ m'.frames = inner ++ outer'
  journals : ∃ events, m.journal = events ++ journal ∧ m'.journal = events ++ journal'

/-- Two outcomes with the same answer or interruption, on machines that are related. -/
inductive SameAnswer (R : Machine σ → Machine σ → Prop) : Conclusion σ α → Conclusion σ α → Prop
  | ok {m m' : Machine σ} (a : α) (hm : R m m') : SameAnswer R (.ok a m) (.ok a m')
  | error {m m' : Machine σ} (e : Interruption) (hm : R m m') :
    SameAnswer R (.error e m) (.error e m')

theorem SameAnswer.mono {R R' : Machine σ → Machine σ → Prop} {o o' : Conclusion σ α}
    (h : SameAnswer R o o') (himp : ∀ m m', R m m' → R' m m') : SameAnswer R' o o' := by
  cases h with
  | ok a hm => exact .ok a (himp _ _ hm)
  | error e hm => exact .error e (himp _ _ hm)

theorem SameAnswer.isUnfinished {R : Machine σ → Machine σ → Prop} {o o' : Conclusion σ α}
    (h : SameAnswer R o o') : o'.IsUnfinished ↔ o.IsUnfinished := by
  cases h with
  | ok a hm => exact Iff.rfl
  | error e hm => rw [EStateM.Result.isUnfinished_error, EStateM.Result.isUnfinished_error]

namespace Machine.Agrees

variable {journal journal' : List Event} {inner : List Frame} {frame : Frame} {m m' : Machine σ}

theorem of_resembles (h : m.Resembles m') : Agrees m.journal m'.journal [] m m' where
  console := h.console
  routines := h.routines
  memory := ⟨h.globals, h.nextScope, fun _ hscope => absurd hscope List.not_mem_nil⟩
  depth := h.depth
  frames := ⟨_, _, rfl, rfl⟩
  journals := ⟨[], rfl, rfl⟩

theorem resembles (h : Agrees journal journal' inner m m') : m.Resembles m' :=
  ⟨h.console, h.routines, h.memory.globals, h.memory.nextScope, h.depth⟩

theorem scopes (h : Agrees journal journal' (frame :: inner) m m') :
    m.scope = some frame.scope ∧ m'.scope = some frame.scope := by
  obtain ⟨outer, outer', hframes, hframes'⟩ := h.frames
  simp [Machine.scope, hframes, hframes']

theorem withMemory (h : Agrees journal journal' inner m m') {memory memory' : Memory}
    (hmemory : Memory.Agree (inner.map Frame.scope) memory memory') :
    Agrees journal journal' inner (m.withMemory memory) (m'.withMemory memory') :=
  { h with memory := hmemory }

theorem record (h : Agrees journal journal' inner m m') (event : Event) :
    Agrees journal journal' inner (m.record event) (m'.record event) := by
  obtain ⟨events, hevents, hevents'⟩ := h.journals
  refine { h with journals := ⟨event :: events, ?_, ?_⟩ }
  · rw [Machine.record, hevents, List.cons_append]
  · rw [Machine.record, hevents', List.cons_append]

/-- Two machines that enter the same call. -/
theorem enter (h : Agrees journal journal' inner m m') (routine : Routine) (values : List Value) :
    Agrees journal journal' (⟨m.memory.nextScope, routine⟩ :: inner) (m.enter routine values)
      (m'.enter routine values) := by
  obtain ⟨outer, outer', hframes, hframes'⟩ := h.frames
  obtain ⟨events, hevents, hevents'⟩ := h.journals
  let opening :=
    Action.openingEvents routine.name (routine.parameters.zip values) m.memory.nextScope
  refine ⟨h.console, h.routines, h.memory.openWith _, congrArg (· + 1) h.depth,
    ⟨outer, outer', ?_, ?_⟩, ⟨opening ++ events, ?_, ?_⟩⟩
  · rw [Machine.enter, hframes, List.cons_append]
  · rw [Machine.enter, hframes', h.memory.nextScope, List.cons_append]
  · rw [Machine.enter, hevents, List.append_assoc]
  · rw [Machine.enter, hevents', h.memory.nextScope, List.append_assoc]

/-- Two machines that leave a call. -/
theorem leave (h : Agrees journal journal' (frame :: inner) m m') :
    Agrees journal journal' inner (Action.leave frame.scope m) (Action.leave frame.scope m') := by
  obtain ⟨outer, outer', hframes, hframes'⟩ := h.frames
  have htables := h.memory.tables frame.scope List.mem_cons_self
  have hback : Agrees journal journal' inner { m with frames := m.frames.tail }
      { m' with frames := m'.frames.tail } := by
    refine ⟨h.console, h.routines, ⟨h.memory.globals, h.memory.nextScope, fun scope hscope =>
      h.memory.tables scope (List.mem_cons_of_mem _ hscope)⟩, ?_, ⟨outer, outer', ?_, ?_⟩,
      h.journals⟩
    · simp only [List.length_tail, h.depth]
    · simp only [hframes, List.cons_append, List.tail_cons]
    · simp only [hframes', List.cons_append, List.tail_cons]
  simp only [Action.leave, htables]
  split
  · exact hback
  · exact (hback.withMemory h.memory.closeScope).record _

end Machine.Agrees

/-- Machines that resemble each other find the same routine. -/
theorem Action.lookUp_cases_of_resembles {m m' : Machine σ} (h : m.Resembles m') (name : String)
    (arguments : Nat) (line : SourceLine) :
    (∃ routine, lookUp name arguments line m = .ok routine m
        ∧ lookUp name arguments line m' = .ok routine m')
      ∨ ∃ error, lookUp name arguments line m
          = .error (.failed (.runtime error)) (m.failing error)
        ∧ lookUp name arguments line m'
          = .error (.failed (.runtime error)) (m'.failing error) := by
  simp only [lookUp, get_bind, h.routines, h.depth]
  cases m.routines[name]? with
  | none => exact .inr ⟨_, rfl, rfl⟩
  | some routine =>
    dsimp only
    split
    · exact .inr ⟨_, rfl, rfl⟩
    · split
      · exact .inr ⟨_, rfl, rfl⟩
      · exact .inl ⟨routine, rfl, rfl⟩

/-! ### Courses in step -/

section InStep

variable {journal journal' : List Event}

/-- Two courses that ask for the same tasks inside of a call, on machines that agree, and that reach
the goal if the answers are the same. -/
inductive Course.InStep (journal journal' : List Event)
    (goal : Conclusion σ α → Conclusion σ α → Prop) : Course σ α → Course σ α → Prop
  | ended {o o' : Conclusion σ α} (h : goal o o') :
    InStep journal journal' goal (.ended o) (.ended o')
  | asking {task : Task} {inner : List Frame} {m m' : Machine σ}
      {next next' : Conclusion σ task.Answer → Course σ α} (hinner : inner ≠ [])
      (hm : m.Agrees journal journal' inner m')
      (hnext : ∀ o o', SameAnswer (Machine.Agrees journal journal' inner) o o' →
        InStep journal journal' goal (next o) (next' o')) :
    InStep journal journal' goal (.asking task m next) (.asking task m' next')

namespace Course.InStep

variable {goal goal' : Conclusion σ α → Conclusion σ α → Prop} {c c' : Course σ α}

theorem mono (h : c.InStep journal journal' goal c') (himp : ∀ o o', goal o o' → goal' o o') :
    c.InStep journal journal' goal' c' := by
  induction h with
  | ended h => exact .ended (himp _ _ h)
  | asking hinner hm _ ih => exact .asking hinner hm ih

theorem bind {goal : Conclusion σ β → Conclusion σ β → Prop}
    {f f' : Conclusion σ α → Course σ β}
    (h : c.InStep journal journal' (fun o o' => (f o).InStep journal journal' goal (f' o')) c') :
    (c.bind f).InStep journal journal' goal (c'.bind f') := by
  induction h with
  | ended h => exact h
  | asking hinner hm _ ih => exact .asking hinner hm ih

/-- Courses in step reach the goal if the answers to their questions are the same. -/
theorem settle {answer : (task : Task) → Action σ task.Answer}
    (h : c.InStep journal journal' goal c')
    (hanswer : ∀ task inner m m', inner ≠ [] → m.Agrees journal journal' inner m' →
      SameAnswer (Machine.Agrees journal journal' inner) (answer task m) (answer task m')) :
    goal (c.settle answer) (c'.settle answer) := by
  induction h with
  | ended h => exact h
  | asking hinner hm _ ih => exact ih _ _ (hanswer _ _ _ _ hinner hm)

end Course.InStep

/-- An action that answers the same on machines that agree. -/
def Action.IsInStep (journal journal' : List Event) (action : Action σ α) : Prop :=
  ∀ inner m m', inner ≠ [] → m.Agrees journal journal' inner m' →
    SameAnswer (Machine.Agrees journal journal' inner) (action m) (action m')

/-- A plan whose courses are in step inside of a call. -/
def Plan.IsInStep (journal journal' : List Event) (p : Plan σ α) : Prop :=
  ∀ inner m m', inner ≠ [] → m.Agrees journal journal' inner m' →
    (p m).InStep journal journal' (SameAnswer (Machine.Agrees journal journal' inner)) (p m')

namespace Plan.IsInStep

theorem pure (a : α) : IsInStep journal journal' (Pure.pure a : Plan σ α) :=
  fun _ _ _ _ h => .ended (.ok a h)

theorem act {action : Action σ α} (h : action.IsInStep journal journal') :
    IsInStep journal journal' (Plan.act action) := fun inner m m' hinner hm =>
  .ended (h inner m m' hinner hm)

theorem ask (task : Task) : IsInStep (σ := σ) journal journal' (Plan.ask task) :=
  fun _ _ _ hinner hm => .asking hinner hm fun _ _ => .ended

theorem bind {p : Plan σ α} {f : α → Plan σ β} (hp : IsInStep journal journal' p)
    (hf : ∀ a, IsInStep journal journal' (f a)) : IsInStep journal journal' (p >>= f) :=
  fun inner m m' hinner hm => Course.InStep.bind ((hp inner m m' hinner hm).mono
    fun o o' hsame => by
      cases hsame with
      | ok a hm => exact hf a inner _ _ hinner hm
      | error e hm => exact .ended (.error e hm))

theorem ite {c : Prop} [Decidable c] {p q : Plan σ α} (hp : IsInStep journal journal' p)
    (hq : IsInStep journal journal' q) : IsInStep journal journal' (if c then p else q) := by
  split
  · exact hp
  · exact hq

theorem catchStop {p : Plan σ Flow} (hp : IsInStep journal journal' p) :
    IsInStep journal journal' (Plan.catchStop p) :=
  fun inner m m' hinner hm => Course.InStep.bind ((hp inner m m' hinner hm).mono
    fun o o' hsame => by
      cases hsame with
      | ok flow hm => exact .ended (.ok flow hm)
      | error e hm =>
        cases e with
        | stop => exact .ended (.ok Flow.exit hm)
        | failed => exact .ended (.error _ hm)
        | outOfFuel => exact .ended (.error _ hm))

end Plan.IsInStep

/-! ### Actions in step -/

namespace Action.IsInStep

theorem note (event : Event) : IsInStep (σ := σ) journal journal' (Action.note event) :=
  fun _ _ _ _ h => .ok () (h.record event)

theorem fail (error : ExecutionError) :
    IsInStep (σ := σ) (α := α) journal journal' (Action.fail error) :=
  fun _ _ _ _ h => .error _ (h.record _)

theorem ofExcept (line : SourceLine) (result : Except RuntimeFault α) :
    IsInStep (σ := σ) journal journal' (Action.ofExcept line result) := by
  cases result with
  | ok a => exact fun _ _ _ _ h => .ok a h
  | error kind => exact fail _

theorem ofConsole (operation : σ → Except String α × σ) :
    IsInStep journal journal' (Action.ofConsole operation) := by
  intro inner m m' _ h
  rw [ofConsole_run, ofConsole_run, h.console]
  have hconsole : Machine.Agrees journal journal' inner
      { m with console := (operation m.console).2 }
      { m' with console := (operation m.console).2 } := { h with console := rfl }
  cases (operation m.console).1 with
  | ok a => exact .ok a hconsole
  | error reason => exact .error _ (hconsole.record _)

theorem ask [Console σ] (prompt : String) :
    IsInStep (σ := σ) journal journal' (Action.ask prompt) := fun inner _ _ hinner h =>
  ofConsole (Console.readLine prompt) inner _ _ hinner (h.record (.asked prompt))

theorem write [Console σ] (text : String) :
    IsInStep (σ := σ) journal journal' (Action.write text) := fun inner _ _ hinner h =>
  ofConsole (Console.write text) inner _ _ hinner (h.record (.wrote text))

theorem load (key : String) : IsInStep (σ := σ) journal journal' (Action.load key) := by
  intro inner m m' hinner h
  obtain ⟨frame, inner, rfl⟩ := List.exists_cons_of_ne_nil hinner
  have hvalue : m'.memory.get key m'.scope = m.memory.get key m.scope := by
    rw [h.scopes.1, h.scopes.2]
    exact h.memory.get List.mem_cons_self key
  have hrun : Action.load key m' = .ok (m.memory.get key m.scope) m' :=
    congrArg (EStateM.Result.ok · m') hvalue
  rw [hrun]
  exact .ok _ h

/-- A write that refuses iterators. -/
theorem store {key : String} {line : SourceLine} {cell : Cell}
    {write : Memory → Option ScopeId → Except RuntimeFault Memory}
    (hwrite : ∀ memory scope, write memory scope
      = if (memory.find? key scope).any Cell.isIterator then .error (.assignToIterator key)
        else .ok (memory.put key cell scope)) :
    IsInStep (σ := σ) journal journal' (Action.store key line write) := by
  intro inner m m' hinner h
  obtain ⟨frame, inner, rfl⟩ := List.exists_cons_of_ne_nil hinner
  obtain ⟨hscope, hscope'⟩ := h.scopes
  have hfind := h.memory.find? (List.mem_cons_self (a := frame.scope)) key
  have hwritten := hwrite m.memory m.scope
  have hwritten' := hwrite m'.memory m'.scope
  rw [hscope] at hwritten
  rw [hscope', hfind] at hwritten'
  split at hwritten
  · rename_i hiterator
    rw [if_pos hiterator] at hwritten'
    rw [store_of_error (hscope ▸ hwritten), store_of_error (hscope' ▸ hwritten')]
    exact .error _ (h.record _)
  · rename_i hiterator
    rw [if_neg hiterator] at hwritten'
    rw [store_of_ok (hscope ▸ hwritten), store_of_ok (hscope' ▸ hwritten'), hscope, hscope']
    exact .ok () ((h.withMemory (h.memory.put List.mem_cons_self key cell)).record _)

theorem increment (name : String) (line : SourceLine) :
    IsInStep (σ := σ) journal journal' (Action.increment name line) := by
  intro inner m m' hinner h
  obtain ⟨frame, inner, rfl⟩ := List.exists_cons_of_ne_nil hinner
  obtain ⟨hscope, hscope'⟩ := h.scopes
  have hfind := h.memory.find? (List.mem_cons_self (a := frame.scope)) name
  have hget := h.memory.get (List.mem_cons_self (a := frame.scope)) name
  rw [Action.increment, get_bind, get_bind, hscope, hscope', Memory.increment, Memory.increment,
    hfind, hget]
  cases Value.apply .add (m.memory.get name (some frame.scope)) (.number .one) with
  | ok value =>
    exact .ok Flow.completed ((h.withMemory (h.memory.put List.mem_cons_self name _)).record _)
  | error kind =>
    cases kind with
    | overflow operator => exact .ok Flow.rangeExhausted (h.record _)
    | _ => exact .error _ (h.record _)

theorem remove (key : String) : IsInStep (σ := σ) journal journal' (Action.remove key) := by
  intro inner m m' hinner h
  obtain ⟨frame, inner, rfl⟩ := List.exists_cons_of_ne_nil hinner
  rw [remove_run, remove_run, h.scopes.1, h.scopes.2]
  exact .ok () ((h.withMemory (h.memory.delete List.mem_cons_self key)).record _)

theorem lookUp (name : String) (arguments : Nat) (line : SourceLine) :
    IsInStep (σ := σ) journal journal' (Action.lookUp name arguments line) := by
  intro inner m m' _ h
  rcases lookUp_cases_of_resembles h.resembles name arguments line with
    ⟨routine, hrun, hrun'⟩ | ⟨error, hrun, hrun'⟩
  · rw [hrun, hrun']
    exact .ok routine h
  · rw [hrun, hrun']
    exact .error _ (h.record _)

theorem checkReturn (value : Option Value) (line : SourceLine) :
    IsInStep (σ := σ) journal journal' (Action.checkReturn value line) := by
  intro inner m m' hinner h
  obtain ⟨frame, inner, rfl⟩ := List.exists_cons_of_ne_nil hinner
  obtain ⟨outer, outer', hframes, hframes'⟩ := h.frames
  cases value with
  | none => exact .ok () h
  | some value =>
    simp only [Action.checkReturn, get_bind, Option.isSome_some, if_true, hframes, hframes',
      List.cons_append]
    split
    · exact .error _ (h.record _)
    · exact .ok () h

theorem ofFlow (flow : Flow) : IsInStep (σ := σ) journal journal' (Action.ofFlow flow) := by
  cases flow with
  | completed | rangeExhausted => exact fun _ _ _ _ h => .ok Value.nil h
  | returned value => exact fun _ _ _ _ h => .ok _ h
  | exit => exact fun _ _ _ _ h => .error .stop h

end Action.IsInStep

/-! ### Tasks in step -/

open Plan

theorem Node.evaluation_isInStep (node : Node) :
    Plan.IsInStep (σ := σ) journal journal' node.evaluation := by
  cases node with
  | number | text | boolean => exact .pure _
  | var name indices => exact .bind (.ask _) fun key => .act (.load key)
  | operation operator left right line =>
    exact .bind (.ask _) fun left => .bind (.ask _) fun right => .act (.ofExcept line _)
  | call name arguments line => exact .ask _
  | _ => exact .act (.fail _)

/-- The outcomes of a body are the same, and so is how the call ends. -/
theorem Action.answerCall_sameAnswer {inner : List Frame} {frame : Frame}
    {body body' : Conclusion σ Flow}
    (h : SameAnswer (Machine.Agrees journal journal' (frame :: inner)) body body') :
    SameAnswer (Machine.Agrees journal journal' inner) (answerCall frame.scope body)
      (answerCall frame.scope body') := by
  cases h with
  | ok flow hm =>
    cases flow with
    | completed | rangeExhausted => exact .ok Value.nil hm.leave
    | returned value => exact .ok _ hm.leave
    | exit => exact .error .stop hm.leave
  | error e hm => exact .error e hm.leave

/-- The part of a call that comes after its arguments. -/
theorem Plan.enter_isInStep (routine : Routine) (values : List Value) :
    Plan.IsInStep (σ := σ) journal journal' (do
      let scope ← act (Action.openScope routine.name (routine.parameters.zip values))
      let flow ← inFrame ⟨scope, routine⟩ (ask (.block routine.body))
      act (Action.ofFlow flow)) := by
  intro inner m m' _ h
  rw [enter_apply, enter_apply, h.memory.nextScope]
  refine .asking (List.cons_ne_nil _ _) (h.enter routine values) fun body body' hbody => .ended ?_
  exact Action.answerCall_sameAnswer hbody

variable [Console σ]

theorem Node.execution_isInStep (node : Node) :
    Plan.IsInStep (σ := σ) journal journal' node.execution := by
  cases node with
  | endOfLine => exact .pure _
  | assignment name indices value isIterator line =>
    refine .bind (.ask _) fun value => .bind (.ask _) fun key => ?_
    have hwrite : ∀ (memory : Memory) (scope : Option ScopeId),
        (if isIterator then memory.bindIterator key value scope else memory.save key value scope)
          = if (memory.find? key scope).any Cell.isIterator then .error (.assignToIterator key)
            else .ok (memory.put key ⟨value, isIterator⟩ scope) := by
      cases isIterator <;> exact fun _ _ => rfl
    exact .bind (.act (.store hwrite)) fun _ => .pure _
  | command command argument line =>
    cases command with
    | print =>
      cases argument with
      | none => exact .pure _
      | some node => exact .bind (.ask _) fun value => .bind (.act (.write _)) fun _ => .pure _
    | read =>
      cases argument with
      | none => exact .act (.fail _)
      | some node =>
        cases node with
        | var name indices =>
          refine .bind (.act (.ask _)) fun input => .bind (.ask _) fun key => ?_
          exact .bind (.act (.store fun _ _ => rfl)) fun _ => .pure _
        | _ => exact .act (.fail _)
    | stop => exact .pure _
  | condition test thenBlock elseBlock line =>
    refine .bind (.ask _) fun value => .ite (.ask _) ?_
    cases elseBlock with
    | none => exact .pure _
    | some block => exact .ask _
  | loop test body iterator line =>
    cases iterator with
    | none => exact .ask _
    | some name => exact .bind (.ask _) fun flow => .bind (.act (.remove name)) fun _ => .pure _
  | routine name parameters body isProcedure line =>
    refine .bind (.act fun inner m m' _ h => .ok _ ?_) fun _ => .pure _
    exact { h with routines := congrArg (Std.ExtTreeMap.insert · name _) h.routines }
  | giveBack value line =>
    cases value with
    | none => exact .pure _
    | some node =>
      exact .bind (.ask _) fun value => .bind (.act (.checkReturn _ line)) fun _ => .pure _
  | increment name line => exact .act (.increment name line)
  | _ => exact .bind (.ask _) fun _ => .pure _

theorem Task.call_isInStep (name : String) (arguments : List Node) (line : SourceLine) :
    Plan.IsInStep (σ := σ) journal journal' (Task.call name arguments line).plan :=
  .bind (.act (.lookUp name _ line)) fun routine =>
    .bind (.ask _) fun values => Plan.enter_isInStep routine values

theorem Task.plan_isInStep (task : Task) :
    Plan.IsInStep (σ := σ) journal journal' task.plan := by
  cases task with
  | evaluate node => exact node.evaluation_isInStep
  | evaluateAll nodes =>
    cases nodes with
    | nil => exact .pure _
    | cons node rest => exact .bind (.ask _) fun _ => .bind (.ask _) fun _ => .pure _
  | keyOf name indices => exact .bind (.ask _) fun _ => .pure _
  | call name arguments line => exact Task.call_isInStep name arguments line
  | execute node => exact .bind (.act (.note _)) fun _ => .catchStop (.ask _)
  | perform node => exact node.execution_isInStep
  | block nodes =>
    cases nodes with
    | nil => exact .pure _
    | cons node rest => exact .bind (.ask _) fun flow => .ite (.ask _) (.pure _)
  | loop test body =>
    refine .bind (.ask _) fun value => .ite ?_ (.pure _)
    exact .bind (.ask _) fun flow => .ite (.ask _) (.pure _)

/-- **Inside of a call every task does the same on machines that agree.** -/
theorem Task.run_inStep (fuel : Nat) (task : Task) {inner : List Frame} {m m' : Machine σ}
    (hinner : inner ≠ []) (h : m.Agrees journal journal' inner m') :
    SameAnswer (Machine.Agrees journal journal' inner) (task.run fuel m) (task.run fuel m') := by
  induction fuel generalizing task inner m m' with
  | zero =>
    cases task with
    | evaluateAll nodes =>
      cases nodes with
      | nil => exact .ok [] h
      | cons => exact .error .outOfFuel h
    | block nodes =>
      cases nodes with
      | nil => exact .ok Flow.completed h
      | cons => exact .error .outOfFuel h
    | _ => exact .error .outOfFuel h
  | succ fuel ih =>
    rw [Task.run_succ]
    exact (task.plan_isInStep inner m m' hinner h).settle fun task _ _ _ hinner hm =>
      ih task hinner hm

end InStep

/-! ### Calls -/

section Calls

variable [Console σ] {m m' : Machine σ} {name : String} {arguments : List Node}
  {line : SourceLine}

/-- What a call with literal arguments does on one machine it does on the other. -/
theorem Task.call_sameAnswer (h : m.Resembles m')
    (hliterals : ∀ argument ∈ arguments, argument.isLiteral) {o : Conclusion σ Value}
    (hyields : (Task.evaluate (.call name arguments line)).Yields m o) :
    ∃ o', (Task.evaluate (.call name arguments line)).Yields m' o'
      ∧ SameAnswer (Machine.Agrees m.journal m'.journal []) o o' := by
  obtain ⟨values, -, hvalues⟩ := Task.evaluateAll_literals (σ := σ) hliterals
  have hagrees := Machine.Agrees.of_resembles h
  simp only [Task.evaluate_call_yields, Task.call_yields_iff hvalues] at hyields ⊢
  rcases Action.lookUp_cases_of_resembles h name arguments.length line with
    ⟨routine, hrun, hrun'⟩ | ⟨error, hrun, hrun'⟩
  · rcases hyields with ⟨_, hlookUp, -⟩ | ⟨_, hlookUp, body, hbody, rfl⟩
    · cases hrun.symm.trans hlookUp
    · cases hrun.symm.trans hlookUp
      obtain ⟨hfinished, fuel, rfl⟩ := hbody
      have hsame := Task.run_inStep fuel (.block routine.body) (List.cons_ne_nil _ _)
        (hagrees.enter routine values)
      have hbody' : (Task.block routine.body).Yields (m'.enter routine values)
          ((Task.block routine.body).run fuel (m'.enter routine values)) :=
        Task.yields_of_run (mt hsame.isUnfinished.mp hfinished)
      refine ⟨_, .inr ⟨routine, hrun', _, hbody', rfl⟩, ?_⟩
      rw [h.nextScope]
      exact Action.answerCall_sameAnswer hsame
  · rcases hyields with ⟨_, hlookUp, rfl⟩ | ⟨_, hlookUp, -⟩
    · cases hrun.symm.trans hlookUp
      exact ⟨_, .inl ⟨error, hrun', rfl⟩, .error _ (hagrees.record _)⟩
    · cases hrun.symm.trans hlookUp

/-- **A call does not see its callers.**  On two machines that look the same from outside of their
calls, whatever the tables of the open scopes hold, a call with literal arguments ends on one if and
only if it ends on the other; it ends with the same value or the same interruption, the machines
look the same again, and since the beginning the same happened. -/
theorem calls_do_not_see_their_callers (h : m.Resembles m')
    (hliterals : ∀ argument ∈ arguments, argument.isLiteral) :
    ((∃ o, (Task.evaluate (.call name arguments line)).Yields m o)
        ↔ ∃ o', (Task.evaluate (.call name arguments line)).Yields m' o')
      ∧ ∀ o o', (Task.evaluate (.call name arguments line)).Yields m o →
        (Task.evaluate (.call name arguments line)).Yields m' o' →
          SameAnswer (fun m₁ m₁' => m₁.Resembles m₁' ∧ ∃ events,
            m₁.journal = events ++ m.journal ∧ m₁'.journal = events ++ m'.journal) o o' := by
  refine ⟨⟨fun hends => ?_, fun hends => ?_⟩, fun o o' ho ho' => ?_⟩
  · obtain ⟨o, ho⟩ := hends
    obtain ⟨o', ho', -⟩ := Task.call_sameAnswer h hliterals ho
    exact ⟨o', ho'⟩
  · obtain ⟨o', ho'⟩ := hends
    obtain ⟨o, ho, -⟩ := Task.call_sameAnswer h.symm hliterals ho'
    exact ⟨o, ho⟩
  · obtain ⟨o'', ho'', hsame⟩ := Task.call_sameAnswer h hliterals ho
    obtain rfl := ho''.unique ho'
    exact hsame.mono fun _ _ hagrees => ⟨hagrees.resembles, hagrees.journals⟩

end Calls

section Caller

/-- A function that writes a variable it does not have. -/
def callee : Routine where
  name := "g"
  parameters := []
  body := [.command .print (some (.var "x" [])) ⟨2, "\tpisz x"⟩, .endOfLine]
  isProcedure := false

/-- A function with a variable of this name that calls the other one. -/
def caller : Routine where
  name := "f"
  parameters := ["x"]
  body := [.call "g" [] ⟨4, "\tg()"⟩]
  isProcedure := false

/-- A call of the other function does the same whatever the variable of the caller holds. -/
theorem calls_do_not_see_the_variable :
    let program := [Node.routine callee.name [] callee.body false ⟨1, "funkcja g()"⟩,
      .routine caller.name caller.parameters caller.body false ⟨3, "funkcja f(x)"⟩]
    let m : Machine Transcript := (run 10 program { console := {} }).2
    let m₁ := m.enter caller [.number .one]
    let m₂ := m.enter caller [.text "a"]
    let call := Task.evaluate (.call "g" [] ⟨4, "\tg()"⟩)
    m₁.memory.get "x" m₁.scope = .number .one ∧ m₂.memory.get "x" m₂.scope = .text "a"
      ∧ m₁.Resembles m₂ ∧ (∃ o, call.Yields m₁ o) ∧ (∃ o', call.Yields m₂ o')
      ∧ ∀ o o', call.Yields m₁ o → call.Yields m₂ o' →
        o'.machine.console = o.machine.console := by
  intro program m m₁ m₂ call
  have hresembles : m₁.Resembles m₂ := m.resembles_enter caller _ _
  have hcall : ((∃ o, call.Yields m₁ o) ↔ ∃ o', call.Yields m₂ o')
      ∧ ∀ o o', call.Yields m₁ o → call.Yields m₂ o' →
        SameAnswer (fun m m' => m.Resembles m' ∧ ∃ events,
          m.journal = events ++ m₁.journal ∧ m'.journal = events ++ m₂.journal) o o' :=
    calls_do_not_see_their_callers hresembles nofun
  have hyields : call.Yields m₁ (.ok Value.nil (call.run 10 m₁).machine) :=
    Task.yields_of_answer (by decide +kernel)
  refine ⟨by decide +kernel, by decide +kernel, hresembles, ⟨_, hyields⟩,
    hcall.1.mp ⟨_, hyields⟩, fun o o' ho ho' => ?_⟩
  cases hcall.2 o o' ho ho' with
  | ok _ hm => exact hm.1.console
  | error _ hm => exact hm.1.console

end Caller

end Tablica
