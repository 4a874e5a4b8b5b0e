import Tablica.Proofs.Execution.Guard

/-!
# Stopping is immediate

Three things **halt** a run: the start of a `koniec`, an error of the program, and a refusal of the
console.  Each of them is an event of the journal, and each decides the verdict at once.  From
there on the run only unwinds: the calls under way are left, which closes their scopes, and loops
whose body was halted remove their iterators.

    machine ──quiet──▸ ●  event  ──unwinding──▸ the end of the block ──▸ flush

`koniec` changes its shape on the way.  It is a flow in blocks and loops and an interruption in
expressions, and every call and every statement turns the one into the other.  So the contract says
of each task what it leads to: to a machine on which nothing has halted the run, if its outcome lets
the next task begin, and otherwise to one that unwinds from a halt.  The run of a whole program is
the task of its block.

* `Event.verdict?` — the events that halt a run;
* `Machine.Quiet`, `Machine.Unwinds`, `Machine.Halts` — the parts of the picture;
* `stopping`, `stopping_valid` — the contract, and that every task keeps it;
* `stopping_is_immediate` — what follows for runs.
-/

namespace Tablica

variable {σ : Type}

/-! ### Halts -/

/-- The verdict that an event decides, if it halts the run. -/
def Event.verdict? : Event → Option Verdict
  | started (.command .stop _ _) => some .exited
  | failed error => some (.failed error)
  | _ => none

/-- What may happen to a run that was halted. -/
def Event.IsUnwinding : Event → Prop
  | closed _ _ | removed _ _ => True
  | _ => False

theorem Event.verdict?_eq_exited {event : Event} (h : event.verdict? = some .exited) :
    ∃ argument line, event = .started (.command .stop argument line) := by
  unfold verdict? at h
  split at h
  · exact ⟨_, _, rfl⟩
  · cases h
  · cases h

theorem Event.verdict?_eq_failed {event : Event} {error : ExecutionError}
    (h : event.verdict? = some (.failed error)) : event = .failed error := by
  unfold verdict? at h
  split at h
  · cases h
  · cases h
    rfl
  · cases h

/-- Only `koniec` halts a run by its start. -/
theorem Event.verdict?_started (node : Node) :
    (started node).verdict? = none ∨ ∃ argument line, node = .command .stop argument line := by
  unfold verdict?
  split
  · rename_i heq
    cases heq
    exact .inr ⟨_, _, rfl⟩
  · rename_i heq
    cases heq
  · exact .inl rfl

theorem Event.verdict?_of_isUnwinding {event : Event} (h : event.IsUnwinding) :
    event.verdict? = none := by
  cases event <;> first | rfl | exact h.elim

namespace Machine

variable {m m₁ m₂ : Machine σ} {verdict : Verdict}

/-- From the first machine to the second one nothing halts the run. -/
def Quiet (m m' : Machine σ) : Prop :=
  ∃ events, m'.journal = events ++ m.journal ∧ ∀ event ∈ events, event.verdict? = none

/-- From the first machine to the second one calls are left and iterators are removed. -/
inductive Unwinds (m : Machine σ) : Machine σ → Prop
  | here : Unwinds m m
  | leave {m' : Machine σ} {frame : Frame} {frames : List Frame} (h : Unwinds m m')
      (hframes : m'.frames = frame :: frames) : Unwinds m (Action.leave frame.scope m')
  | remove {m' : Machine σ} {key : String} (h : Unwinds m m') (hkey : m'.Binds key) :
      Unwinds m ((m'.withMemory (m'.memory.delete key m'.scope)).record (.removed key m'.scope))

/-- On the way from the first machine to the second one the run is halted, with a verdict, and all
that follows is unwinding. -/
def Halts (m : Machine σ) (verdict : Verdict) (m' : Machine σ) : Prop :=
  ∃ halted event, m.Quiet halted ∧ event.verdict? = some verdict
    ∧ (halted.record event).Unwinds m'

namespace Quiet

theorem of_journal (h : m₁.journal = m.journal) : m.Quiet m₁ := ⟨[], h, nofun⟩

theorem refl (m : Machine σ) : m.Quiet m := of_journal rfl

theorem of_event {event : Event} (h : m₁.journal = event :: m.journal)
    (hevent : event.verdict? = none) : m.Quiet m₁ :=
  ⟨[event], h, by simpa using hevent⟩

theorem trans (h : m.Quiet m₁) (h' : m₁.Quiet m₂) : m.Quiet m₂ := by
  obtain ⟨events, hjournal, hevents⟩ := h
  obtain ⟨events', hjournal', hevents'⟩ := h'
  refine ⟨events' ++ events, by rw [hjournal', hjournal, List.append_assoc], fun event hevent => ?_⟩
  rcases List.mem_append.mp hevent with hevent | hevent
  · exact hevents' event hevent
  · exact hevents event hevent

theorem halts (h : m.Quiet m₁) (h' : m₁.Halts verdict m₂) : m.Halts verdict m₂ := by
  obtain ⟨halted, event, hquiet, hevent, hunwinds⟩ := h'
  exact ⟨halted, event, h.trans hquiet, hevent, hunwinds⟩

/-- Leaving a call does not halt a run. -/
theorem leave (h : m.Quiet m₁) (scope : ScopeId) : m.Quiet (Action.leave scope m₁) := by
  refine h.trans ?_
  simp only [Action.leave]
  split
  · exact of_journal rfl
  · exact of_event rfl rfl

/-- Nothing halts the run before the body of a call. -/
theorem entering (m : Machine σ) (routine : Routine) (locals : List (String × Value)) :
    m.Quiet (m.entering routine locals) := by
  refine ⟨Action.openingEvents _ _ _, rfl, fun event hevent => ?_⟩
  simp only [Action.openingEvents, List.mem_append, List.mem_reverse, List.mem_map, List.mem_cons,
    List.not_mem_nil, or_false] at hevent
  rcases hevent with ⟨_, -, rfl⟩ | rfl | rfl <;> rfl

end Quiet

namespace Halts

/-- An event that halts the run is the end of what is not unwinding. -/
theorem of_event {event : Event} (h : m.Quiet m₁) (hevent : event.verdict? = some verdict) :
    m.Halts verdict (m₁.record event) := ⟨m₁, event, h, hevent, .here⟩

theorem fail (h : m.Quiet m₁) (error : ExecutionError) :
    m.Halts (.failed error) (m₁.record (.failed error)) := of_event h rfl

theorem leave (h : m.Halts verdict m₁) {frame : Frame} {frames : List Frame}
    (hframes : m₁.frames = frame :: frames) :
    m.Halts verdict (Action.leave frame.scope m₁) := by
  obtain ⟨halted, event, hquiet, hevent, hunwinds⟩ := h
  exact ⟨halted, event, hquiet, hevent, hunwinds.leave hframes⟩

theorem remove (h : m.Halts verdict m₁) {key : String} (hkey : m₁.Binds key) :
    m.Halts verdict
      ((m₁.withMemory (m₁.memory.delete key m₁.scope)).record (.removed key m₁.scope)) := by
  obtain ⟨halted, event, hquiet, hevent, hunwinds⟩ := h
  exact ⟨halted, event, hquiet, hevent, hunwinds.remove hkey⟩

end Halts

namespace Unwinds

/-- Unwinding leaves the console alone. -/
theorem console (h : m.Unwinds m₁) : m₁.console = m.console := by
  induction h with
  | here => rfl
  | leave _ _ ih => rw [Action.leave_console, ih]
  | remove _ _ ih => exact ih

/-- Unwinding leaves the routines alone. -/
theorem routines (h : m.Unwinds m₁) : m₁.routines = m.routines := by
  induction h with
  | here => rfl
  | leave _ _ ih => rw [Action.leave_routines, ih]
  | remove _ _ ih => exact ih

/-- The events of unwinding. -/
theorem journal (h : m.Unwinds m₁) :
    ∃ events, m₁.journal = events ++ m.journal ∧ ∀ event ∈ events, event.IsUnwinding := by
  induction h with
  | here => exact ⟨[], rfl, nofun⟩
  | @leave m' frame _ _ _ ih =>
    simp only [Action.leave]
    split
    · exact ih
    · rename_i table _
      obtain ⟨events, hjournal, hevents⟩ := ih
      refine ⟨.closed frame.scope table.size :: events, ?_,
        List.forall_mem_cons.mpr ⟨trivial, hevents⟩⟩
      exact congrArg (Event.closed frame.scope table.size :: ·) hjournal
  | @remove m' key _ _ ih =>
    obtain ⟨events, hjournal, hevents⟩ := ih
    refine ⟨.removed key m'.scope :: events, ?_, List.forall_mem_cons.mpr ⟨trivial, hevents⟩⟩
    exact congrArg (Event.removed key m'.scope :: ·) hjournal

/-- Unwinding assigns to nothing: every cell is as it was, or gone. -/
theorem cells (h : m.Unwinds m₁) (place : Option ScopeId) (key : String) :
    m₁.memory.cellAt place key = m.memory.cellAt place key
      ∨ m₁.memory.cellAt place key = none := by
  induction h with
  | here => exact .inl rfl
  | @leave m' frame _ _ _ ih =>
    rw [Action.leave_memory]
    cases place with
    | none => exact ih
    | some scope =>
      by_cases heq : frame.scope = scope
      · refine .inr ?_
        simp [Memory.cellAt, Memory.local?, Memory.scopeTable, Memory.closeScope, heq]
      · have htable : (m'.memory.closeScope frame.scope).scopes[scope]?
            = m'.memory.scopes[scope]? := by
          rw [Memory.closeScope, Std.ExtTreeMap.getElem?_erase, if_neg (by simpa using heq)]
        rw [Memory.cellAt_congr htable]
        exact ih
  | @remove m' key' _ _ ih =>
    show (m'.memory.delete key' m'.scope).cellAt place key = _
      ∨ (m'.memory.delete key' m'.scope).cellAt place key = none
    rw [Memory.cellAt_delete]
    split
    · exact .inr rfl
    · exact ih

end Unwinds

end Machine

/-! ### The contract -/

/-- What the outcome of a computation that began on a machine says about the way there.  Some of
the results mean that the run was halted by `koniec`.  A run whose fuel ended was halted at most by
a `koniec` that had no fuel to take effect. -/
def Machine.LeadsTo {α : Type} (m : Machine σ) (stops : α → Prop) : Conclusion σ α → Prop
  | .ok a m' => (stops a → m.Halts .exited m') ∧ (¬ stops a → m.Quiet m')
  | .error .outOfFuel m' => m.Quiet m' ∨ m.Halts .exited m'
  | .error .stop m' => m.Halts .exited m'
  | .error (.failed error) m' => m.Halts (.failed error) m'

/-- The answers of a task that mean that the run was halted. -/
def Task.Stops : (task : Task) → task.Answer → Prop
  | evaluate _, _ | evaluateAll _, _ | keyOf _ _, _ | call _ _ _, _ => False
  | execute _, flow | perform _, flow | block _, flow | loop _ _, flow => flow = .exit

/-- Where the account of a task begins: a statement that is performed has been started. -/
def Task.Begins : Task → Machine σ → Machine σ → Prop
  | perform node, m, m' => m' = m.record (.started node)
  | _, m, m' => m' = m

/-- Stopping is immediate for every task. -/
def stopping : Contract σ where
  before _ _ := True
  after task m' outcome := ∀ m, task.Begins m m' → m.LeadsTo task.Stops outcome

/-- What is known of every task besides: it is balanced, sound, and spares iterators. -/
abbrev guarded : Contract σ :=
  conduct.and (guarding {})

/-- A plan that can be halted only in the end, and then answers accordingly. -/
def Plan.IsImmediate {α : Type} (stops : α → Prop) (p : Plan σ α) : Prop :=
  ∀ m, (p m).Keeps (guarded.under stopping) (m.LeadsTo stops)

namespace Machine.LeadsTo

variable {α : Type} {m m₁ : Machine σ} {stops : α → Prop}

theorem of_quiet (h : m.Quiet m₁) {outcome : Conclusion σ α} (h' : m₁.LeadsTo stops outcome) :
    m.LeadsTo stops outcome := by
  cases outcome with
  | ok a m' => exact ⟨fun hstops => h.halts (h'.1 hstops), fun hgoes => h.trans (h'.2 hgoes)⟩
  | error e m' =>
    cases e with
    | outOfFuel => exact h'.imp h.trans h.halts
    | stop => exact h.halts h'
    | failed => exact h.halts h'

theorem ok (h : m.Quiet m₁) {a : α} (hgoes : ¬ stops a) : m.LeadsTo stops (.ok a m₁) :=
  ⟨fun hstops => absurd hstops hgoes, fun _ => h⟩

theorem stop (h : m.Halts .exited m₁) {a : α} (hstops : stops a) : m.LeadsTo stops (.ok a m₁) :=
  ⟨fun _ => h, fun hgoes => absurd hstops hgoes⟩

/-- Interruptions are told alike by all plans. -/
theorem error {β : Type} {stops' : β → Prop} {e : Interruption}
    (h : m.LeadsTo stops' (.error e m₁)) : m.LeadsTo stops (.error e m₁) := by
  cases e <;> exact h

end Machine.LeadsTo

namespace Plan.IsImmediate

variable {α β : Type} {stops : α → Prop} {stops' : β → Prop}

theorem pure {a : α} (h : ¬ stops a) : IsImmediate stops (Pure.pure a : Plan σ α) := fun m =>
  .ok (.refl m) h

/-- An action that halts the run by an error at most. -/
theorem act {action : Action σ α} (hstops : ∀ a, ¬ stops a)
    (h : ∀ m : Machine σ, (∃ a m', action m = .ok a m' ∧ m.Quiet m')
      ∨ ∃ error m', action m = .error (.failed error) (m'.record (.failed error)) ∧ m.Quiet m') :
    IsImmediate stops (Plan.act action) := fun m => by
  show m.LeadsTo stops (action m)
  rcases h m with ⟨a, m', hrun, hquiet⟩ | ⟨error, m', hrun, hquiet⟩
  · rw [hrun]
    exact .ok hquiet (hstops a)
  · rw [hrun]
    exact .fail hquiet error

theorem ask {task : Task} {stops : task.Answer → Prop}
    (hbegins : ∀ m : Machine σ, task.Begins m m) (hstops : ∀ a, stops a ↔ task.Stops a) :
    IsImmediate (σ := σ) stops (Plan.ask task) := fun m =>
  keeps_ask (fun _ => trivial) fun outcome houtcome => by
    obtain rfl : stops = task.Stops := funext fun a => propext (hstops a)
    exact houtcome.2 m (hbegins m)

/-- A plan goes on after results that do not halt the run, and does no more than unwind after the
others. -/
theorem bind_stop {p : Plan σ β} {f : β → Plan σ α} (hp : IsImmediate stops' p)
    (hgoes : ∀ b, ¬ stops' b → IsImmediate stops (f b))
    (hstops : ∀ b, stops' b → ∀ m m' : Machine σ, m.Halts .exited m' →
      (f b m').Keeps (guarded.under stopping) (m.LeadsTo stops)) :
    IsImmediate stops (p >>= f) := fun m =>
  keeps_bind ((hp m).mono fun outcome houtcome => by
    cases outcome with
    | ok b m' =>
      by_cases hb : stops' b
      · exact hstops b hb m m' (houtcome.1 hb)
      · exact (hgoes b hb m').mono fun _ h => .of_quiet (houtcome.2 hb) h
    | error e m' => exact houtcome.error)

/-- The first part of a plan cannot be halted with a result. -/
theorem bind {p : Plan σ β} {f : β → Plan σ α} (hp : IsImmediate (fun _ => False) p)
    (hf : ∀ b, IsImmediate stops (f b)) : IsImmediate stops (p >>= f) :=
  bind_stop hp (fun b _ => hf b) fun _ => False.elim

theorem ite {c : Prop} [Decidable c] {p q : Plan σ α} (hp : IsImmediate stops p)
    (hq : IsImmediate stops q) : IsImmediate stops (if c then p else q) := by
  split
  · exact hp
  · exact hq

/-- The value of an expression, and other tasks that do not execute statements. -/
theorem askValue {task : Task} (hbegins : ∀ m : Machine σ, task.Begins m m)
    (hstops : ∀ a, ¬ task.Stops a) :
    IsImmediate (σ := σ) (fun _ => False) (Plan.ask task) :=
  ask hbegins fun a => ⟨False.elim, hstops a⟩

end Plan.IsImmediate

/-! ### The actions -/

namespace Plan.IsImmediate

variable {α : Type} {stops : α → Prop}

theorem fail {error : ExecutionError} (hstops : ∀ a, ¬ stops a) :
    IsImmediate (σ := σ) stops (Plan.act (Action.fail error)) :=
  act hstops fun m => .inr ⟨error, m, rfl, .refl m⟩

theorem load {key : String} :
    IsImmediate (σ := σ) (fun _ => False) (Plan.act (Action.load key)) :=
  act (fun _ => id) fun m => .inl ⟨_, m, rfl, .refl m⟩

theorem ofExcept {line : SourceLine} {result : Except RuntimeFault α} :
    IsImmediate (σ := σ) (fun _ => False) (Plan.act (Action.ofExcept line result)) :=
  act (fun _ => id) fun m => by
    rcases Action.ofExcept_cases line result m with ⟨a, -, h⟩ | ⟨kind, -, h⟩
    · exact .inl ⟨a, m, h, .refl m⟩
    · exact .inr ⟨_, m, h, .refl m⟩

theorem store {key : String} {line : SourceLine}
    {write : Memory → Option ScopeId → Except RuntimeFault Memory} :
    IsImmediate (σ := σ) (fun _ => False) (Plan.act (Action.store key line write)) :=
  act (fun _ => id) fun m => by
    rcases Action.store_cases key line write m with ⟨memory, -, h⟩ | ⟨kind, -, h⟩
    · exact .inl ⟨_, _, h, .of_event rfl rfl⟩
    · exact .inr ⟨_, m, h, .refl m⟩

/-- A read or a write: what the console refuses halts the run. -/
theorem ofConsole {operation : σ → Except String α × σ} {event : Event}
    (hevent : event.verdict? = none) :
    IsImmediate (σ := σ) (fun _ => False)
      (Plan.act (do Action.note event; Action.ofConsole operation)) :=
  act (fun _ => id) fun m => by
    have hrun : (do Action.note event; Action.ofConsole operation : Action σ α) m
        = Action.ofConsole operation (m.record event) := rfl
    rw [hrun, Action.ofConsole_run]
    cases hanswer : (operation (m.record event).console).1 with
    | ok a => exact .inl ⟨a, _, rfl, .of_event rfl hevent⟩
    | error reason => exact .inr ⟨_, _, rfl, .of_event rfl hevent⟩

theorem checkReturn {value : Option Value} {line : SourceLine} :
    IsImmediate (σ := σ) (fun _ => False) (Plan.act (Action.checkReturn value line)) :=
  act (fun _ => id) fun m => by
    rcases Action.checkReturn_cases value line m with h | ⟨kind, h⟩
    · exact .inl ⟨_, m, h, .refl m⟩
    · exact .inr ⟨_, m, h, .refl m⟩

theorem lookUp {name : String} {arguments : Nat} {line : SourceLine} :
    IsImmediate (σ := σ) (fun _ => False) (Plan.act (Action.lookUp name arguments line)) :=
  act (fun _ => id) fun m => by
    rcases Action.lookUp_cases name arguments line m with ⟨routine, -, -, -, h⟩ | ⟨kind, h⟩
    · exact .inl ⟨routine, m, h, .refl m⟩
    · exact .inr ⟨_, m, h, .refl m⟩

/-- The overflow of an increment ends its loop and does not halt the run. -/
theorem increment {name : String} {line : SourceLine} :
    IsImmediate (σ := σ) (· = Flow.exit) (Plan.act (Action.increment name line)) := fun m => by
  show m.LeadsTo _ (Action.increment name line m)
  rcases Action.increment_cases name line m with ⟨memory, -, hrun⟩ | hrun | ⟨kind, hrun⟩
  · rw [hrun]
    exact .ok (.of_event rfl rfl) nofun
  · rw [hrun]
    exact .ok (.of_event rfl rfl) nofun
  · rw [hrun]
    exact .fail (.refl m) (.runtime ⟨kind, line⟩)

end Plan.IsImmediate

/-! ### Every task keeps the contract -/

section Valid

open Plan

theorem Node.evaluation_isImmediate (node : Node) :
    IsImmediate (σ := σ) (fun _ => False) node.evaluation := by
  cases node with
  | number | text | boolean => exact .pure id
  | var name indices => exact .bind (.askValue (fun _ => rfl) fun _ => id) fun key => .load
  | operation operator left right line =>
    refine .bind (.askValue (fun _ => rfl) fun _ => id) fun left => ?_
    exact .bind (.askValue (fun _ => rfl) fun _ => id) fun right => .ofExcept
  | call name arguments line => exact .askValue (fun _ => rfl) fun _ => id
  | _ => exact .fail fun _ => id

variable [Console σ]

/-- Every statement but `koniec` and the rounds of a `dla` loop. -/
theorem Node.execution_isImmediate {node : Node}
    (hstop : ∀ argument line, node ≠ .command .stop argument line)
    (hrounds : ∀ test body name line, node ≠ .loop test body (some name) line) :
    IsImmediate (σ := σ) (· = .exit) node.execution := by
  have hvalue : ∀ node : Node, IsImmediate (σ := σ) (fun _ => False) (Plan.ask (.evaluate node)) :=
    fun node => .askValue (fun _ => rfl) fun _ => id
  have hkey : ∀ name indices, IsImmediate (σ := σ) (fun _ => False)
      (Plan.ask (.keyOf name indices)) := fun _ _ => .askValue (fun _ => rfl) fun _ => id
  have hblock : ∀ nodes, IsImmediate (σ := σ) (· = .exit) (Plan.ask (.block nodes)) :=
    fun nodes => .ask (fun _ => rfl) fun _ => Iff.rfl
  cases node with
  | endOfLine => exact .pure nofun
  | assignment name indices value isIterator line =>
    refine .bind (hvalue value) fun value => .bind (hkey name indices) fun key => ?_
    exact .bind .store fun _ => .pure nofun
  | command command argument line =>
    cases command with
    | print =>
      cases argument with
      | none => exact .pure nofun
      | some node =>
        exact .bind (hvalue node) fun value => .bind (.ofConsole rfl) fun _ => .pure nofun
    | read =>
      have hfail : IsImmediate (σ := σ) (· = Flow.exit)
          (act (Action.fail (.runtime ⟨.readTargetNotVariable, line⟩))) := fun m =>
        .fail (.refl m) _
      cases argument with
      | none => exact hfail
      | some node =>
        cases node with
        | var name indices =>
          refine .bind (.ofConsole rfl) fun input => .bind (hkey name indices) fun key => ?_
          exact .bind .store fun _ => .pure nofun
        | _ => exact hfail
    | stop => exact absurd rfl (hstop argument line)
  | condition test thenBlock elseBlock line =>
    refine .bind (hvalue test) fun value => .ite (hblock thenBlock) ?_
    cases elseBlock with
    | none => exact .pure nofun
    | some block => exact hblock block
  | loop test body iterator line =>
    cases iterator with
    | none => exact .ask (fun _ => rfl) fun _ => Iff.rfl
    | some name => exact absurd rfl (hrounds test body name line)
  | routine name parameters body isProcedure line =>
    have hdefine : IsImmediate (σ := σ) (fun _ => False) (act (modify fun m =>
        { m with routines := m.routines.insert name ⟨name, parameters, body, isProcedure⟩ })) :=
      .act (fun _ => id) fun m => .inl ⟨_, _, rfl, .of_journal rfl⟩
    exact .bind hdefine fun _ => .pure nofun
  | giveBack value line =>
    cases value with
    | none => exact .pure nofun
    | some node => exact .bind (hvalue node) fun value => .bind .checkReturn fun _ => .pure nofun
  | increment name line => exact .increment
  | _ => exact .bind (hvalue _) fun _ => .pure nofun

/-- The rounds of a `dla` loop: however they end, removing the iterator halts nothing, and after a
halt it is unwinding. -/
theorem Task.rounds_isImmediate {test : Node} {body : List Node} {name : String}
    {line : SourceLine} {m : Machine σ}
    (hm : guarded.before (.perform (.loop test body (some name) line)) m) :
    ((Task.perform (.loop test body (some name) line)).plan m).Keeps (guarded.under stopping)
      (m.LeadsTo (· = .exit)) := by
  have hbinds : m.Binds name := (hm.2.finishes name ⟨test, body, line, rfl⟩).1
  refine keeps_ask_bind (fun _ => trivial) (fun flow m₁ hrounds => ?_)
    fun e m₁ hrounds => (hrounds.2 m rfl).error
  have hspares := hrounds.1.2.1
  have hbinds₁ : m₁.Binds name := hspares.binds hbinds fun hremoves => hremoves.2
  have hleads : m.LeadsTo (· = .exit) (.ok flow m₁) := hrounds.2 m rfl
  refine keeps_act_bind ?_
  rw [Action.remove_run]
  exact ⟨fun hexit => (hleads.1 hexit).remove hbinds₁,
    fun hgoes => (hleads.2 hgoes).trans (.of_event rfl rfl)⟩

theorem Task.perform_isImmediate {node : Node} {m : Machine σ}
    (hm : guarded.before (.perform node) m) :
    ((Task.perform node).plan m).Keeps (guarded.under stopping)
      (stopping.after (.perform node) m) := by
  by_cases hstop : ∃ argument line, node = .command .stop argument line
  · obtain ⟨argument, line, rfl⟩ := hstop
    intro m₀ hbegins
    obtain rfl : m = m₀.record (.started (.command .stop argument line)) := hbegins
    exact .stop (.of_event (.refl m₀) rfl) rfl
  · have hquiet : ∀ m₀, (Task.perform node).Begins m₀ m → m₀.Quiet m := by
      intro m₀ hbegins
      obtain rfl : m = m₀.record (.started node) := hbegins
      exact .of_event rfl ((Event.verdict?_started node).resolve_right hstop)
    have hleads : ((Task.perform node).plan m).Keeps (guarded.under stopping)
        (m.LeadsTo (· = .exit)) := by
      by_cases hrounds : ∃ test body name line, node = .loop test body (some name) line
      · obtain ⟨test, body, name, line, rfl⟩ := hrounds
        exact Task.rounds_isImmediate hm
      · exact Node.execution_isImmediate (fun argument line h => hstop ⟨argument, line, h⟩)
          (fun test body name line h => hrounds ⟨test, body, name, line, h⟩) m
    exact hleads.mono fun outcome houtcome m₀ hbegins => .of_quiet (hquiet m₀ hbegins) houtcome

/-- An interruption by `koniec` becomes a flow, and stays a halt. -/
theorem Task.execute_isImmediate {node : Node} :
    IsImmediate (σ := σ) (· = .exit) (Task.execute node).plan := fun m => by
  refine keeps_act_bind (Course.Keeps.bind ⟨fun _ => trivial, fun outcome houtcome => ?_⟩)
  have hleads : m.LeadsTo (· = .exit) outcome := houtcome.2 m rfl
  cases outcome with
  | ok flow m' => exact hleads
  | error e m' =>
    cases e with
    | stop => exact .stop hleads rfl
    | failed => exact hleads
    | outOfFuel => exact hleads

/-- A call is left whatever its outcome is, and the flow of `koniec` interrupts the caller. -/
theorem Task.call_isImmediate {name : String} {arguments : List Node} {line : SourceLine} :
    IsImmediate (σ := σ) (fun _ => False) (Task.call name arguments line).plan := by
  refine .bind .lookUp fun routine => ?_
  refine .bind (.askValue (fun _ => rfl) fun _ => id) fun values m => ?_
  refine keeps_entering_bind (fun _ => trivial) fun outcome houtcome => ?_
  have hleads : m.LeadsTo (· = .exit) outcome :=
    .of_quiet (.entering m routine _) (houtcome.2 _ rfl)
  have hframes : outcome.machine.frames = ⟨m.memory.nextScope, routine⟩ :: m.frames :=
    houtcome.1.1.1.frames
  cases outcome with
  | ok flow m' =>
    show m.LeadsTo _ (Action.ofFlow flow (Action.leave m.memory.nextScope m'))
    cases flow with
    | exit => exact (hleads.1 rfl).leave hframes
    | completed | rangeExhausted | returned => exact .ok ((hleads.2 nofun).leave _) id
  | error e m' =>
    cases e with
    | stop => exact Machine.Halts.leave hleads hframes
    | failed => exact Machine.Halts.leave hleads hframes
    | outOfFuel => exact hleads.imp (·.leave _) (·.leave hframes)

/-- **Stopping is immediate for every task.** -/
theorem stopping_valid : (guarded.and stopping : Contract σ).Valid := by
  refine (guarding_valid {}).and fun task m hm _ => ?_
  have hplan : ∀ {α : Type} {stops : α → Prop} {p : Plan σ α}, IsImmediate stops p →
      (p m).Keeps (guarded.under stopping) fun outcome =>
        ∀ m₀, m = m₀ → m₀.LeadsTo stops outcome := by
    intro α stops p hp
    refine (hp m).mono fun outcome houtcome m₀ hbegins => ?_
    subst hbegins
    exact houtcome
  have hflow : ∀ (task : Task) (hbegins : ∀ m : Machine σ, task.Begins m m),
      IsImmediate (σ := σ) task.Stops (Plan.ask task) :=
    fun _ hbegins => .ask hbegins fun _ => Iff.rfl
  cases task with
  | evaluate node => exact hplan node.evaluation_isImmediate
  | evaluateAll nodes =>
    cases nodes with
    | nil => exact hplan (.pure id)
    | cons node rest =>
      refine hplan (.bind (.askValue (fun _ => rfl) fun _ => id) fun value => ?_)
      exact .bind (.askValue (fun _ => rfl) fun _ => id) fun values => .pure id
  | keyOf name indices =>
    exact hplan (.bind (.askValue (fun _ => rfl) fun _ => id) fun values => .pure id)
  | call name arguments line => exact hplan Task.call_isImmediate
  | execute node => exact hplan Task.execute_isImmediate
  | perform node => exact Task.perform_isImmediate hm
  | block nodes =>
    cases nodes with
    | nil => exact hplan (.pure nofun)
    | cons node rest =>
      refine hplan (.bind_stop (hflow (.execute node) fun _ => rfl) (fun flow hgoes => ?_)
        fun flow hexit m m' hhalts => ?_)
      · exact .ite (hflow (.block rest) fun _ => rfl) (.pure hgoes)
      · obtain rfl : flow = .exit := hexit
        exact .stop hhalts rfl
  | loop test body =>
    refine hplan (.bind (.askValue (fun _ => rfl) fun _ => id) fun value => .ite ?_ (.pure nofun))
    refine .bind_stop (hflow (.block body) fun _ => rfl) (fun flow hgoes => ?_)
      fun flow hexit m m' hhalts => ?_
    · refine .ite (hflow (.loop test body) fun _ => rfl) (.pure fun hexit => ?_)
      split at hexit
      · cases hexit
      · exact hgoes hexit
    · obtain rfl : flow = .exit := hexit
      exact .stop hhalts rfl

end Valid

/-! ### Runs -/

/-- An account of a run from the first machine up to its last flush: what happened, the oldest event
first, which verdict follows, and that after an event that halts the run nothing happens but
unwinding.  When the fuel ended no error had happened. -/
structure Machine.RunsTo (m : Machine σ) (events : List Event) (verdict : Verdict)
    (ended : Machine σ) : Prop where
  journal : ended.journal = events.reverse ++ m.journal
  decided : verdict ≠ .unfinished → verdict = (events.findSome? Event.verdict?).getD .finished
  unfinished : verdict = .unfinished → ∀ error, .failed error ∉ events
  immediate : ∀ earlier event later, events = earlier ++ event :: later → event.verdict?.isSome →
    (∀ event ∈ later, event.IsUnwinding) ∧ ∃ halted : Machine σ,
      halted.journal = event :: earlier.reverse ++ m.journal ∧ halted.Unwinds ended
        ∧ ended.console = halted.console
        ∧ ∀ place key, ended.memory.cellAt place key = halted.memory.cellAt place key
          ∨ ended.memory.cellAt place key = none

namespace Machine

variable {m ended : Machine σ} {verdict : Verdict}

theorem Quiet.runsTo (h : m.Quiet ended) (hverdict : verdict = .unfinished ∨ verdict = .finished) :
    ∃ events, m.RunsTo events verdict ended := by
  obtain ⟨events, hjournal, hquiet⟩ := h
  have hnone : ∀ event ∈ events.reverse, event.verdict? = none := fun event hevent =>
    hquiet event (List.mem_reverse.mp hevent)
  refine ⟨events.reverse, by rw [List.reverse_reverse, hjournal], fun hended => ?_,
    fun _ error herror => (nomatch hnone _ herror), fun earlier event later hevents hsome => ?_⟩
  · rw [List.findSome?_eq_none_iff.mpr hnone]
    exact hverdict.resolve_left hended
  · rw [hnone event (by rw [hevents]; exact List.mem_append_right _ List.mem_cons_self)] at hsome
    cases hsome

/-- The place of the only member of a list that has some property. -/
private theorem eq_of_append_cons {α : Type} {p : α → Prop} {xs xs' ys ys' : List α} {a a' : α}
    (heq : xs ++ a :: ys = xs' ++ a' :: ys') (hxs : ∀ x ∈ xs, ¬ p x) (hys : ∀ y ∈ ys, ¬ p y)
    (ha' : p a') : xs' = xs ∧ a' = a ∧ ys' = ys := by
  induction xs generalizing xs' with
  | nil =>
    cases xs' with
    | nil =>
      obtain ⟨rfl, rfl⟩ := List.cons.inj heq
      exact ⟨rfl, rfl, rfl⟩
    | cons x xs' =>
      obtain ⟨-, rfl⟩ := List.cons.inj heq
      exact absurd ha' (hys a' (List.mem_append_right _ List.mem_cons_self))
  | cons x xs ih =>
    cases xs' with
    | nil =>
      obtain ⟨rfl, -⟩ := List.cons.inj heq
      exact absurd ha' (hxs x List.mem_cons_self)
    | cons x' xs' =>
      obtain ⟨rfl, hrest⟩ := List.cons.inj heq
      obtain ⟨hxs', hrest⟩ := ih hrest fun x hx => hxs x (List.mem_cons_of_mem _ hx)
      exact ⟨congrArg _ hxs', hrest⟩

theorem Halts.runsTo {verdict' : Verdict} (h : m.Halts verdict' ended)
    (hverdict : verdict = .unfinished ∧ verdict' = .exited ∨ verdict = verdict') :
    ∃ events, m.RunsTo events verdict ended := by
  obtain ⟨halted, event, ⟨earlier, hearlier, hquiet⟩, hevent, hunwinds⟩ := h
  obtain ⟨later, hlater, hunwinding⟩ := hunwinds.journal
  have hearlier_none : ∀ event ∈ earlier.reverse, event.verdict? = none := fun event hmem =>
    hquiet event (List.mem_reverse.mp hmem)
  have hlater_none : ∀ event ∈ later.reverse, event.verdict? = none := fun event hmem =>
    Event.verdict?_of_isUnwinding (hunwinding event (List.mem_reverse.mp hmem))
  refine ⟨earlier.reverse ++ event :: later.reverse, ?_, fun hended => ?_,
    fun hunfinished error herror => ?_, fun earlier' event' later' hevents hsome => ?_⟩
  · rw [hlater, Machine.record, hearlier]
    simp
  · rw [List.findSome?_append, List.findSome?_eq_none_iff.mpr hearlier_none, Option.none_or,
      List.findSome?_cons, hevent]
    exact hverdict.resolve_left fun hunfinished => hended hunfinished.1
  · simp only [List.mem_append, List.mem_cons] at herror
    rcases herror with herror | rfl | herror
    · cases hearlier_none _ herror
    · obtain rfl : verdict' = .failed error := (Option.some.inj hevent).symm
      rcases hverdict with ⟨-, hexited⟩ | hfailed
      · cases hexited
      · rw [hunfinished] at hfailed
        cases hfailed
    · cases hlater_none _ herror
  · obtain ⟨rfl, rfl, rfl⟩ := eq_of_append_cons (p := fun event => event.verdict?.isSome) hevents
      (fun e he => by simp [hearlier_none e he]) (fun e he => by simp [hlater_none e he]) hsome
    refine ⟨fun e he => hunwinding e (List.mem_reverse.mp he), halted.record event', ?_, hunwinds,
      hunwinds.console, hunwinds.cells⟩
    rw [List.reverse_reverse]
    exact congrArg (event' :: ·) hearlier

namespace RunsTo

variable {events : List Event}

/-- Whatever event halts a run decides its verdict. -/
theorem verdict_of_mem (h : m.RunsTo events verdict ended) (hended : verdict ≠ .unfinished)
    {event : Event} {verdict' : Verdict} (hmem : event ∈ events)
    (hevent : event.verdict? = some verdict') : verdict = verdict' := by
  obtain ⟨earlier, later, hevents⟩ := List.append_of_mem hmem
  cases hfirst : earlier.findSome? Event.verdict? with
  | none =>
    rw [h.decided hended, hevents, List.findSome?_append, hfirst, Option.none_or,
      List.findSome?_cons, hevent, Option.getD_some]
  | some first =>
    -- an earlier event would leave nothing but unwinding behind it
    obtain ⟨event', hevent', hsome⟩ := List.exists_of_findSome?_eq_some hfirst
    obtain ⟨before, after, rfl⟩ := List.append_of_mem hevent'
    have hunwinding := (h.immediate before event' (after ++ event :: later)
      (by rw [hevents, List.append_assoc, List.cons_append]) (by simp [hsome])).1
    have hnone := Event.verdict?_of_isUnwinding
      (hunwinding event (List.mem_append_right _ List.mem_cons_self))
    rw [hnone] at hevent
    cases hevent

/-- A run that ended has the verdict of the event that halted it, and is finished if there is
none. -/
theorem verdict_iff (h : m.RunsTo events verdict ended) (hended : verdict ≠ .unfinished)
    {verdict' : Verdict} (hne : verdict' ≠ .finished) :
    verdict = verdict' ↔ ∃ event ∈ events, event.verdict? = some verdict' := by
  constructor
  · intro heq
    subst heq
    have hfirst := h.decided hended
    cases hsome : events.findSome? Event.verdict? with
    | none =>
      rw [hsome] at hfirst
      exact absurd hfirst hne
    | some first =>
      rw [hsome] at hfirst
      obtain rfl : verdict = first := hfirst
      exact List.exists_of_findSome?_eq_some hsome
  · intro hhalts
    obtain ⟨event, hmem, hevent⟩ := hhalts
    exact h.verdict_of_mem hended hmem hevent

theorem exited_iff (h : m.RunsTo events verdict ended) (hended : verdict ≠ .unfinished) :
    verdict = .exited ↔ ∃ argument line, .started (.command .stop argument line) ∈ events := by
  have hne : Verdict.exited ≠ .finished := nofun
  rw [h.verdict_iff hended hne]
  constructor
  · intro hhalts
    obtain ⟨event, hmem, hevent⟩ := hhalts
    obtain ⟨argument, line, rfl⟩ := Event.verdict?_eq_exited hevent
    exact ⟨argument, line, hmem⟩
  · exact fun ⟨_, _, hmem⟩ => ⟨_, hmem, rfl⟩

theorem failed_iff (h : m.RunsTo events verdict ended) (hended : verdict ≠ .unfinished)
    (error : ExecutionError) : verdict = .failed error ↔ .failed error ∈ events := by
  have hne : Verdict.failed error ≠ .finished := nofun
  rw [h.verdict_iff hended hne]
  constructor
  · intro hhalts
    obtain ⟨event, hmem, hevent⟩ := hhalts
    exact Event.verdict?_eq_failed hevent ▸ hmem
  · exact fun hmem => ⟨_, hmem, rfl⟩

theorem finished_iff (h : m.RunsTo events verdict ended) (hended : verdict ≠ .unfinished) :
    verdict = .finished ↔ ∀ event ∈ events, event.verdict? = none := by
  constructor
  · intro heq event hmem
    cases hevent : event.verdict? with
    | none => rfl
    | some verdict' =>
      have hverdict' := h.verdict_of_mem hended hmem hevent
      rw [heq] at hverdict'
      subst hverdict'
      unfold Event.verdict? at hevent
      split at hevent <;> cases hevent
  · intro hquiet
    rw [h.decided hended, List.findSome?_eq_none_iff.mpr hquiet, Option.getD_none]

end RunsTo

end Machine

/-- A task that is not even begun keeps the contracts. -/
theorem guarded_of_outOfFuel {task : Task} {m : Machine σ} (h : guarded.before task m) :
    guarded.after task m (.error .outOfFuel m) :=
  ⟨⟨.refl h.1.1, trivial, h.1.2.2⟩, .of_alike (.refl m), by cases task <;> first | trivial | nofun⟩

theorem stopping_of_outOfFuel (task : Task) (m : Machine σ) :
    stopping.after task m (.error .outOfFuel m) := by
  intro m₀ hbegins
  cases task with
  | perform node =>
    obtain rfl : m = m₀.record (.started node) := hbegins
    rcases Event.verdict?_started node with hnone | ⟨argument, line, rfl⟩
    · exact .inl (.of_event rfl hnone)
    · exact .inr (.of_event (.refl m₀) rfl)
  | _ =>
    obtain rfl : m = m₀ := hbegins
    exact .inl (.refl m)

section Runs

variable [Console σ]

/-- What is known of a block that is a program, wherever a program can be run. -/
theorem AtRest.isGuarded {console : σ} {m : Machine σ} (hm : AtRest IsParsed console m)
    {program : List Node} (hprogram : IsParsed program) :
    guarded.before (.block program) m :=
  ⟨⟨hm.disciplined, ⟨false, hprogram.isBlock.isPart⟩, hm.isSound Console.refuses_any trivial⟩,
    hprogram.isBlock.isFree.isReady fun _ _ hkey => absurd hkey Memory.not_isIteratorAt_empty⟩

/-- The account of the block of a program, and that its verdict is no internal fault but a refusal
of the console. -/
theorem IsBlock.exists_runsTo {m : Machine σ} {program : List Node} (h : IsBlock false program)
    (hm : guarded.before (.block program) m) (fuel : Nat) :
    let outcome := executeBlock fuel program m
    (∃ events, m.RunsTo events (.ofConclusion outcome) outcome.machine)
      ∧ (Verdict.ofConclusion outcome).IsSound fun _ => True := by
  have hafter : (guarded.and stopping).after (.block program) m (executeBlock fuel program m) :=
    stopping_valid.after_run
      (fun task m hb => ⟨guarded_of_outOfFuel hb.1, stopping_of_outOfFuel task m⟩)
      ⟨hm, trivial⟩ fuel
  have hsound : EStateM.Result.IsSound (fun _ => True) (fun _ => True) (Task.block program).Allows
      (executeBlock fuel program m) := hafter.1.1.2
  have hleads : m.LeadsTo (· = .exit) (executeBlock fuel program m) := hafter.2 m rfl
  cases houtcome : executeBlock fuel program m with
  | ok flow ended =>
    rw [houtcome] at hsound hleads
    rcases flow_of_isBlock h hsound.1 with rfl | rfl
    · exact ⟨(hleads.2 nofun).runsTo (.inr rfl), trivial⟩
    · exact ⟨(hleads.1 rfl).runsTo (.inr rfl), trivial⟩
  | error interruption ended =>
    rw [houtcome] at hsound hleads
    refine ⟨?_, Verdict.isSound_ofInterruption hsound.1⟩
    cases interruption with
    | stop => exact Machine.Halts.runsTo hleads (.inr rfl)
    | failed error => exact Machine.Halts.runsTo hleads (.inr rfl)
    | outOfFuel =>
      rcases hleads with hquiet | hhalts
      · exact hquiet.runsTo (.inl rfl)
      · exact hhalts.runsTo (.inl ⟨rfl, rfl⟩)

/-- **Stopping is immediate**, in every run of a program that was read, however long it is.  The
event that halts the run, if there is one, decides the verdict.  All that follows it are closed
scopes and removed iterators, which leaves the console alone and assigns to nothing; and then the
console is flushed.  Only `koniec`, an error of the program and a refusal of the console halt a
run. -/
theorem stopping_is_immediate {console : σ} {m : Machine σ} (hm : AtRest IsParsed console m)
    {program : List Node} (hprogram : IsParsed program) (fuel : Nat) :
    ∃ events verdict ended, m.RunsTo events verdict ended
      ∧ run fuel program m
        = (if verdict = .unfinished then (verdict, ended) else ended.conclude verdict)
      ∧ (verdict ≠ .unfinished → (Console.flush ended.console).1 = .ok () →
        ((run fuel program m).1 = .exited
            ↔ ∃ argument line, .started (.command .stop argument line) ∈ events)
          ∧ (∀ error, (run fuel program m).1 = .failed error ↔ .failed error ∈ events)
          ∧ ((run fuel program m).1 = .finished ↔ ∀ event ∈ events, event.verdict? = none))
      ∧ ∀ error, .failed error ∈ events →
        (∃ fault, error = .runtime fault) ∨ ∃ reason, error = .internal (.console reason) := by
  obtain ⟨⟨events, hruns⟩, hsound⟩ := hprogram.isBlock.exists_runsTo (hm.isGuarded hprogram) fuel
  have hrun : run fuel program m = _ := Machine.run_eq_conclude rfl
  generalize Verdict.ofConclusion (executeBlock fuel program m) = verdict at hruns hrun hsound
  generalize (executeBlock fuel program m).machine = ended at hruns hrun
  refine ⟨events, verdict, ended, hruns, hrun, fun hended hflush => ?_, fun error herror => ?_⟩
  · have hverdict : (run fuel program m).1 = verdict := by
      rw [hrun, if_neg hended, Machine.conclude_verdict hflush]
    rw [hverdict]
    exact ⟨hruns.exited_iff hended, hruns.failed_iff hended, hruns.finished_iff hended⟩
  · have hended : verdict ≠ .unfinished := fun hunfinished =>
      hruns.unfinished hunfinished error herror
    rw [(hruns.failed_iff hended error).mpr herror] at hsound
    cases error with
    | runtime fault => exact .inl ⟨fault, rfl⟩
    | internal fault =>
      obtain ⟨reason, rfl, -⟩ := hsound
      exact .inr ⟨reason, rfl⟩

end Runs

/-- `koniec` in a call ends the loop around the call, before the operand behind the call and the
second round.  Nothing was written. -/
theorem stopping_is_immediate_in_a_call :
    ∃ program, Program.parse Token.defaultRange
        "funkcja f()\n\tkoniec\ndla i := 1 ... 2 wykonuj\n\tpisz f() + 1\n" = .ok program
      ∧ ∃ events ended, Machine.RunsTo ({ console := {} } : Machine Transcript) events .exited ended
        ∧ run 30 program { console := {} } = ended.conclude .exited
        ∧ ∃ argument line, .started (.command .stop argument line) ∈ events := by
  have hcomputed : ((Program.parse Token.defaultRange
      "funkcja f()\n\tkoniec\ndla i := 1 ... 2 wykonuj\n\tpisz f() + 1\n").toOption.map
      fun program => (run 30 program ({ console := {} } : Machine Transcript)).1)
      = some .exited := by decide +kernel
  cases hparse : Program.parse Token.defaultRange
      "funkcja f()\n\tkoniec\ndla i := 1 ... 2 wykonuj\n\tpisz f() + 1\n" with
  | error e =>
    rw [hparse] at hcomputed
    cases hcomputed
  | ok program =>
    rw [hparse] at hcomputed
    have hexited : (run 30 program ({ console := {} } : Machine Transcript)).1 = .exited :=
      Option.some.inj hcomputed
    have hfresh : AtRest IsParsed {} ({ console := {} } : Machine Transcript) := .fresh
    obtain ⟨events, verdict, ended, hruns, hrun, hends, -⟩ :=
      stopping_is_immediate hfresh ⟨_, _, hparse⟩ 30
    have hended : verdict ≠ .unfinished := by
      rintro rfl
      rw [hrun] at hexited
      cases hexited
    rw [if_neg hended] at hrun
    have hflush : (Console.flush ended.console).1 = .ok () := by
      rw [hrun, Machine.conclude] at hexited
      split at hexited
      · rename_i heq
        rw [heq]
      · cases hexited
    obtain rfl : verdict = .exited := by
      rw [← hexited, hrun, Machine.conclude_verdict hflush]
    exact ⟨program, rfl, events, ended, hruns, hrun, (hends hended hflush).1.mp hexited⟩

end Tablica
