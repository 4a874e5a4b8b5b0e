import Tablica.Proofs.Execution.Blocks

/-!
# Calls with literal arguments

The arguments of a call are evaluated where the call stands.  Literals have the same value
everywhere and leave the machine as it is, so a call whose arguments are literals does nothing
before its body begins: either its routine is not found, or the body is executed on the machine
that the call enters, and with the body the call ends.

* `Node.isLiteral`, `Task.evaluateAll_literals` — literals;
* `Machine.enter` — the machine on which the body of a call begins;
* `Action.answerCall` — how a call ends when its body has ended;
* `Task.call_yields_iff` — what a call with literal arguments yields.
-/

namespace Tablica

variable {σ : Type}

/-- Whether a node is a number, a text or a boolean. -/
def Node.isLiteral : Node → Bool
  | number _ | text _ | boolean _ => true
  | _ => false

/-- The machine on which the body of a call begins. -/
def Machine.enter (m : Machine σ) (routine : Routine) (values : List Value) : Machine σ :=
  let locals := routine.parameters.zip values
  { m with
    memory := m.memory.openWith locals
    frames := ⟨m.memory.nextScope, routine⟩ :: m.frames
    journal := Action.openingEvents routine.name locals m.memory.nextScope ++ m.journal }

theorem Machine.journal_enter (m : Machine σ) (routine : Routine) (values : List Value) :
    m.journal <:+ (m.enter routine values).journal :=
  List.suffix_append _ _

/-- How a call ends when its body has ended: its scope is left, and the flow of the body decides the
value. -/
def Action.answerCall (scope : ScopeId) : Conclusion σ Flow → Conclusion σ Value
  | .ok flow m => ofFlow flow (leave scope m)
  | .error e m => .error e (leave scope m)

theorem Action.answerCall_isUnfinished {scope : ScopeId} {body : Conclusion σ Flow} :
    (answerCall scope body).IsUnfinished ↔ body.IsUnfinished := by
  cases body with
  | ok flow m => cases flow <;> exact Iff.rfl
  | error e m => cases e <;> exact Iff.rfl

/-- At the end of a call its scope is closed, and nothing else happens to the memory. -/
theorem Action.answerCall_alike (scope : ScopeId) (body : Conclusion σ Flow) :
    body.machine.journal <:+ (answerCall scope body).machine.journal
      ∧ (answerCall scope body).machine.memory = body.machine.memory.closeScope scope := by
  cases body with
  | ok flow m =>
    have halike := ofFlow_alike (leave scope m) flow
    exact ⟨(leave_journal scope m).trans halike.journal,
      halike.memory.trans (leave_memory scope m)⟩
  | error e m => exact ⟨leave_journal scope m, leave_memory scope m⟩

/-- A call asks for its body, and with its body it ends. -/
theorem Plan.enter_apply (routine : Routine) (values : List Value) (m : Machine σ) :
    (do
      let scope ← act (Action.openScope routine.name (routine.parameters.zip values))
      let flow ← inFrame ⟨scope, routine⟩ (ask (.block routine.body))
      act (Action.ofFlow flow) : Plan σ Value) m
      = .asking (.block routine.body) (m.enter routine values)
        fun body => .ended (Action.answerCall m.memory.nextScope body) := by
  simp only [bind, act, Course.bind, Action.openScope_run, inFrame, ask]
  refine congrArg _ (funext fun body => ?_)
  cases body <;> rfl

variable [Console σ]

namespace Task

/-- Literals have the same values everywhere. -/
theorem evaluateAll_literals {nodes : List Node} (h : ∀ node ∈ nodes, node.isLiteral) :
    ∃ values : List Value, values.length = nodes.length
      ∧ ∀ m : Machine σ, (evaluateAll nodes).Yields m (.ok values m) := by
  induction nodes with
  | nil => exact ⟨[], rfl, fun m => ⟨id, 0, rfl⟩⟩
  | cons node rest ih =>
    obtain ⟨values, hlength, hrest⟩ := ih fun node hnode => h node (List.mem_cons_of_mem _ hnode)
    have hnode : ∃ value : Value, ∀ m : Machine σ, (evaluate node).Yields m (.ok value m) := by
      have hliteral := h node List.mem_cons_self
      cases node with
      | number n => exact ⟨.number n, fun m => evaluate_number_yields n⟩
      | text s => exact ⟨.text s, fun m => ⟨id, 1, rfl⟩⟩
      | boolean b => exact ⟨.ofBool b, fun m => ⟨id, 1, rfl⟩⟩
      | _ => cases hliteral
    obtain ⟨value, hvalue⟩ := hnode
    refine ⟨value :: values, congrArg (· + 1) hlength, fun m => yields_iff.mpr ⟨id, ?_⟩⟩
    exact Plan.ends_ask_bind (hvalue m) (Plan.ends_ask_bind (hrest m) (Plan.ends_pure.mpr rfl))

variable {m : Machine σ} {name : String} {arguments : List Node} {line : SourceLine}
  {outcome : Conclusion σ Value}

theorem evaluate_call_yields :
    (evaluate (.call name arguments line)).Yields m outcome
      ↔ (call name arguments line).Yields m outcome := by
  rw [yields_iff]
  exact ⟨fun h => Plan.ends_ask.mp h.2, fun h => ⟨h.1, Plan.ends_ask.mpr h⟩⟩

/-- A call asks for the body of its routine when the arguments have been evaluated. -/
theorem call_asks_block {routine : Routine} {values : List Value} {m₁ : Machine σ}
    (hlookUp : Action.lookUp name arguments.length line m = .ok routine m)
    (hvalues : (evaluateAll arguments).Yields m (.ok values m₁)) :
    (call name arguments line).Asks m (block routine.body) (m₁.enter routine values) := by
  refine Plan.asks_act_bind_of hlookUp (Plan.asks_ask_bind.mpr (.inr ⟨values, m₁, hvalues, ?_⟩))
  rw [Plan.enter_apply]
  exact .now

/-- **What a call with literal arguments yields:** its routine is not found, or its body is
executed. -/
theorem call_yields_iff {values : List Value}
    (hvalues : ∀ m : Machine σ, (evaluateAll arguments).Yields m (.ok values m)) :
    (call name arguments line).Yields m outcome ↔
      (∃ error, Action.lookUp name arguments.length line m
          = .error (.failed (.runtime error)) (m.failing error)
        ∧ outcome = .error (.failed (.runtime error)) (m.failing error))
      ∨ ∃ routine, Action.lookUp name arguments.length line m = .ok routine m
        ∧ ∃ body, (block routine.body).Yields (m.enter routine values) body
          ∧ outcome = Action.answerCall m.memory.nextScope body := by
  rw [yields_iff]
  constructor
  · intro hends
    rcases Action.lookUp_cases name arguments.length line m with
      ⟨routine, -, -, -, hlookUp⟩ | ⟨kind, hlookUp⟩
    · rcases Plan.ends_bind.mp hends.2 with ⟨_, m₁, hrun, hrest⟩ | ⟨e, m₁, hrun, -⟩
      · cases (Plan.ends_act.mp hrun).trans hlookUp
        rcases Plan.ends_bind.mp hrest with ⟨_, m₂, harguments, henter⟩ | ⟨e, m₂, harguments, -⟩
        · cases (Plan.ends_ask.mp harguments).unique (hvalues m)
          rw [Plan.enter_apply] at henter
          cases henter with
          | asking hbody hend =>
            exact .inr ⟨routine, hlookUp, _, hbody, Course.ends_ended.mp hend⟩
        · cases (Plan.ends_ask.mp harguments).unique (hvalues m)
      · cases (Plan.ends_act.mp hrun).trans hlookUp
    · rcases Plan.ends_bind.mp hends.2 with ⟨_, m₁, hrun, -⟩ | ⟨e, m₁, hrun, rfl⟩
      · cases (Plan.ends_act.mp hrun).trans hlookUp
      · cases (Plan.ends_act.mp hrun).trans hlookUp
        exact .inl ⟨⟨kind, line⟩, hlookUp, rfl⟩
  · intro hcases
    rcases hcases with ⟨error, hlookUp, rfl⟩ | ⟨routine, hlookUp, body, hbody, rfl⟩
    · exact ⟨id, Plan.ends_act_bind_of_error hlookUp⟩
    · refine ⟨mt Action.answerCall_isUnfinished.mp hbody.1, ?_⟩
      refine Plan.ends_act_bind hlookUp (Plan.ends_ask_bind (hvalues m) ?_)
      rw [Plan.enter_apply]
      exact .asking hbody (.ended _)

end Task

end Tablica
