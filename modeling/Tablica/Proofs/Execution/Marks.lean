import Tablica.Proofs.Execution.Blocks
import Tablica.Proofs.Syntax.Sameness

/-!
# Marks mean nothing

Two programs that are the same apart from marks and the texts and numbers of their lines do the
same.  Their runs are followed side by side.  A task of the one program is answered by the same task
of the other, except where a block is executed: marks are executed first, of which each completes
and leaves nothing behind but an entry in the journal.

    one program      ───────────── statement ──▸ rest
    the other        ── marks ──▸  statement ──▸ rest

What a machine keeps of a program are the bodies of its routines, so the machines of both runs
**mirror** each other: they have one console and one memory, and routines that are the same apart
from marks and lines.

* `Machine.Mirrors`, `Mirrored` — machines and outcomes;
* `Plan.Follows` — a plan that ends as an action does;
* `Followed`, `followed` — each task is followed by that of the other program;
* `run_mirrored` — so is the run of a program;
* `blank_lines_mean_nothing` — a text with a blank line more is read as a program that runs alike.
-/

namespace Tablica

variable {σ α β : Type} {f g : SourceLine → SourceLine}

/-! ### Machines and outcomes -/

/-- An interruption whose error has another line. -/
def Interruption.mapLines (f : SourceLine → SourceLine) : Interruption → Interruption
  | failed (.runtime error) => failed (.runtime ⟨error.kind, f error.line⟩)
  | e => e

/-- A verdict whose error has another line. -/
def Verdict.mapLines (f : SourceLine → SourceLine) : Verdict → Verdict
  | failed (.runtime error) => failed (.runtime ⟨error.kind, f error.line⟩)
  | verdict => verdict

section Mirrors

variable (f g : SourceLine → SourceLine)

/-- Routines that are the same apart from lines and marks. -/
structure Routine.Mirrors (routine routine' : Routine) : Prop where
  name : routine'.name = routine.name
  parameters : routine'.parameters = routine.parameters
  body : Node.SameBlock f g routine.body routine'.body
  isProcedure : routine'.isProcedure = routine.isProcedure

/-- Calls of such routines. -/
structure Frame.Mirrors (frame frame' : Frame) : Prop where
  scope : frame'.scope = frame.scope
  routine : Routine.Mirrors f g frame.routine frame'.routine

/-- Machines of programs that are the same apart from lines and marks.  Nothing is said of their
journals. -/
structure Machine.Mirrors (m m' : Machine σ) : Prop where
  console : m'.console = m.console
  memory : m'.memory = m.memory
  routines : ∀ name : String,
    Option.Rel (Routine.Mirrors f g) m.routines[name]? m'.routines[name]?
  frames : List.Forall₂ (Frame.Mirrors f g) m.frames m'.frames

/-- Outcomes with the same answer or the same interruption, apart from the line of an error. -/
inductive Mirrored : Conclusion σ α → Conclusion σ α → Prop
  | ok {m m' : Machine σ} (a : α) (hm : m.Mirrors f g m') : Mirrored (.ok a m) (.ok a m')
  | error {m m' : Machine σ} {e e' : Interruption} (he : e.mapLines f = e'.mapLines g)
    (hm : m.Mirrors f g m') : Mirrored (.error e m) (.error e' m')

end Mirrors

theorem Interruption.eq_of_mapLines {e e' : Interruption} (h : e.mapLines f = e'.mapLines g) :
    (e' = .stop ↔ e = .stop) ∧ (e' = .outOfFuel ↔ e = .outOfFuel) := by
  cases e with
  | failed error =>
    cases e' with
    | failed => simp
    | _ => cases error <;> cases h
  | _ =>
    cases e' with
    | failed error => cases error <;> cases h
    | _ => cases h <;> simp

namespace Machine.Mirrors

variable {m m' : Machine σ} {frame frame' : Frame}

theorem scope (h : m.Mirrors f g m') : m'.scope = m.scope := by
  have hframes := h.frames
  unfold Machine.scope
  generalize m.frames = frames at hframes ⊢
  generalize m'.frames = frames' at hframes ⊢
  cases hframes with
  | nil => rfl
  | cons hframe _ => simp only [List.head?_cons, Option.map_some, hframe.scope]

theorem withConsole (h : m.Mirrors f g m') (console : σ) :
    Mirrors f g { m with console } { m' with console } := { h with console := rfl }

theorem withMemory (h : m.Mirrors f g m') (memory : Memory) :
    Mirrors f g (m.withMemory memory) (m'.withMemory memory) := { h with memory := rfl }

/-- The journals do not matter. -/
theorem record (h : m.Mirrors f g m') (event event' : Event) :
    Mirrors f g (m.record event) (m'.record event') :=
  ⟨h.console, h.memory, h.routines, h.frames⟩

theorem record_right (h : m.Mirrors f g m') (event : Event) : m.Mirrors f g (m'.record event) :=
  ⟨h.console, h.memory, h.routines, h.frames⟩

theorem record_left (h : m.Mirrors f g m') (event : Event) : (m.record event).Mirrors f g m' :=
  ⟨h.console, h.memory, h.routines, h.frames⟩

theorem enter (h : m.Mirrors f g m') (hframe : frame.Mirrors f g frame') :
    Mirrors f g { m with frames := frame :: m.frames } { m' with frames := frame' :: m'.frames } :=
  ⟨h.console, h.memory, h.routines, .cons hframe h.frames⟩

theorem leave (h : m.Mirrors f g m') (scope : ScopeId) :
    Mirrors f g (Action.leave scope m) (Action.leave scope m') where
  console := by rw [Action.leave_console, Action.leave_console, h.console]
  memory := by rw [Action.leave_memory, Action.leave_memory, h.memory]
  routines := by
    rw [Action.leave_routines, Action.leave_routines]
    exact h.routines
  frames := by
    have hframes := h.frames
    rw [Action.leave_frames, Action.leave_frames]
    generalize m.frames = frames at hframes
    generalize m'.frames = frames' at hframes
    cases hframes with
    | nil => exact .nil
    | cons _ hframes => exact hframes

/-- The same routine is defined on both machines. -/
theorem define (h : m.Mirrors f g m') {routine routine' : Routine}
    (hroutine : routine.Mirrors f g routine') (name : String) :
    Mirrors f g { m with routines := m.routines.insert name routine }
      { m' with routines := m'.routines.insert name routine' } := by
  refine ⟨h.console, h.memory, fun name' => ?_, h.frames⟩
  simp only [Std.ExtTreeMap.getElem?_insert]
  split
  · exact .some hroutine
  · exact h.routines name'

end Machine.Mirrors

/-! ### Plans that follow actions -/

theorem Mirrored.machines {o o' : Conclusion σ α} (h : Mirrored f g o o') :
    o.machine.Mirrors f g o'.machine := by
  cases h with
  | ok _ hm => exact hm
  | error _ hm => exact hm

theorem Action.isUnfinished_bind {x : Action σ α} {y : α → Action σ β} {m : Machine σ}
    (h : (x m).IsUnfinished) : ((x >>= y) m).IsUnfinished := by
  simp only [Bind.bind, EStateM.bind]
  cases hrun : x m with
  | ok a => rw [hrun] at h; exact h.elim
  | error e =>
    rw [hrun] at h
    exact EStateM.Result.isUnfinished_error.mpr (EStateM.Result.isUnfinished_error.mp h)

theorem Mirrored.isUnfinished_iff {o o' : Conclusion σ α} (h : Mirrored f g o o') :
    o'.IsUnfinished ↔ o.IsUnfinished := by
  cases h with
  | ok => exact Iff.rfl
  | error he =>
    rw [EStateM.Result.isUnfinished_error, EStateM.Result.isUnfinished_error]
    exact (Interruption.eq_of_mapLines he).2

section Actions

variable {m m' : Machine σ}

/-- The same error on a line of either program. -/
theorem mirrored_failing {line line' : SourceLine} (hm : m.Mirrors f g m')
    (hline : f line = g line') (kind : RuntimeFault) :
    Mirrored f g
      (.error (.failed (.runtime ⟨kind, line⟩)) (m.failing ⟨kind, line⟩) : Conclusion σ α)
      (.error (.failed (.runtime ⟨kind, line'⟩)) (m'.failing ⟨kind, line'⟩)) :=
  .error (by simp [Interruption.mapLines, hline]) (hm.record _ _)

/-- A console operation does the same on both machines. -/
theorem mirrored_ofConsole (hm : m.Mirrors f g m') (operation : σ → Except String α × σ) :
    Mirrored f g (Action.ofConsole operation m) (Action.ofConsole operation m') := by
  rw [Action.ofConsole_run, Action.ofConsole_run, hm.console]
  cases (operation m.console).1 with
  | ok a => exact .ok a (hm.withConsole _)
  | error reason => exact .error rfl ((hm.withConsole _).record _ _)

/-- Both machines find a routine of a name that fits the call, or neither does. -/
theorem lookUp_mirrored (hm : m.Mirrors f g m') (name : String) (arguments : Nat)
    (line line' : SourceLine) :
    (∃ routine routine', routine.Mirrors f g routine'
        ∧ Action.lookUp name arguments line m = .ok routine m
        ∧ Action.lookUp name arguments line' m' = .ok routine' m')
      ∨ ∃ kind, Action.lookUp name arguments line m
          = .error (.failed (.runtime ⟨kind, line⟩)) (m.failing ⟨kind, line⟩)
        ∧ Action.lookUp name arguments line' m'
          = .error (.failed (.runtime ⟨kind, line'⟩)) (m'.failing ⟨kind, line'⟩) := by
  have hroutines := hm.routines name
  simp only [Action.lookUp, Action.get_bind, ← hm.frames.length_eq]
  generalize m.routines[name]? = found at hroutines ⊢
  generalize m'.routines[name]? = found' at hroutines ⊢
  cases hroutines with
  | none => exact .inr ⟨_, rfl, rfl⟩
  | @some routine routine' hroutine =>
    dsimp only
    rw [hroutine.parameters]
    split
    · exact .inr ⟨_, rfl, rfl⟩
    · split
      · exact .inr ⟨_, rfl, rfl⟩
      · exact .inl ⟨routine, routine', hroutine, rfl, rfl⟩

end Actions

/-- A plan that ends as an action does, on a machine that mirrors that of the action, if the action
does not run out of fuel. -/
def Plan.Follows [Console σ] (f g : SourceLine → SourceLine) (p : Plan σ α) (x : Action σ α) :
    Prop :=
  ∀ m m', m.Mirrors f g m' → ¬ (x m).IsUnfinished → ∃ o', (p m').Ends o' ∧ Mirrored f g (x m) o'

section Follows

variable [Console σ]

namespace Plan.Follows

theorem pure (a : α) : Follows f g (Pure.pure a : Plan σ α) (Pure.pure a) := fun _ _ hm _ =>
  ⟨_, ends_pure.mpr rfl, .ok a hm⟩

theorem act {x y : Action σ α} (h : ∀ m m', m.Mirrors f g m' → Mirrored f g (x m) (y m')) :
    Follows f g (Plan.act y) x := fun m m' hm _ => ⟨_, ends_act.mpr rfl, h m m' hm⟩

theorem unfinished {p : Plan σ α} {x : Action σ α} (h : ∀ m, (x m).IsUnfinished) :
    Follows f g p x := fun m _ _ hfinished => absurd (h m) hfinished

theorem ask {task : Task} {x : Action σ task.Answer} (h : Follows f g task.plan x) :
    Follows f g (Plan.ask task) x := by
  intro m m' hm hfinished
  obtain ⟨o', hends, hmirrored⟩ := h m m' hm hfinished
  have hfinished' := mt hmirrored.isUnfinished_iff.mp hfinished
  exact ⟨o', ends_ask.mpr (Task.yields_iff.mpr ⟨hfinished', hends⟩), hmirrored⟩

theorem bind {p : Plan σ α} {q : α → Plan σ β} {x : Action σ α} {y : α → Action σ β}
    (hp : Follows f g p x) (hq : ∀ a, Follows f g (q a) (y a)) :
    Follows f g (p >>= q) (x >>= y) := by
  intro m m' hm hfinished
  have hx := hp m m' hm
  simp only [Bind.bind, EStateM.bind] at hfinished ⊢
  cases hrun : x m with
  | ok a m₁ =>
    rw [hrun] at hx hfinished
    obtain ⟨o', hends, hmirrored⟩ := hx id
    cases hmirrored with
    | ok _ hm₁ =>
      obtain ⟨o'', hends', hmirrored'⟩ := hq a _ _ hm₁ hfinished
      exact ⟨o'', ends_bind.mpr (.inl ⟨_, _, hends, hends'⟩), hmirrored'⟩
  | error e m₁ =>
    rw [hrun] at hx hfinished
    obtain ⟨o', hends, hmirrored⟩ := hx fun hunfinished => hfinished
      (EStateM.Result.isUnfinished_error.mpr (EStateM.Result.isUnfinished_error.mp hunfinished))
    cases hmirrored with
    | error he hm₁ =>
      exact ⟨_, ends_bind.mpr (.inr ⟨_, _, hends, rfl⟩), .error he hm₁⟩

theorem ite {c : Prop} [Decidable c] {p q : Plan σ α} {x y : Action σ α} (hp : Follows f g p x)
    (hq : Follows f g q y) : Follows f g (if c then p else q) (if c then x else y) := by
  split
  · exact hp
  · exact hq

theorem catchStop {p : Plan σ Flow} {x : Action σ Flow} (hp : Follows f g p x) :
    Follows f g (Plan.catchStop p) (Action.catchStop x) := by
  intro m m' hm hfinished
  have hx := hp m m' hm
  unfold Action.catchStop at hfinished ⊢
  cases hrun : x m with
  | ok flow m₁ =>
    rw [hrun] at hx
    obtain ⟨o', hends, hmirrored⟩ := hx id
    cases hmirrored with
    | ok _ hm₁ => exact ⟨_, Course.ends_bind.mpr ⟨_, hends, .ended _⟩, .ok flow hm₁⟩
  | error e m₁ =>
    rw [hrun] at hx hfinished
    cases e with
    | outOfFuel => exact absurd trivial hfinished
    | stop =>
      obtain ⟨o', hends, hmirrored⟩ := hx id
      cases hmirrored with
      | error he hm₁ =>
        obtain rfl := (Interruption.eq_of_mapLines he).1.mpr rfl
        exact ⟨_, Course.ends_bind.mpr ⟨_, hends, .ended _⟩, .ok Flow.exit hm₁⟩
    | failed error =>
      obtain ⟨o', hends, hmirrored⟩ := hx id
      cases hmirrored with
      | @error _ _ _ e' he hm₁ =>
        cases e' with
        | failed error' => exact ⟨_, Course.ends_bind.mpr ⟨_, hends, .ended _⟩, .error he hm₁⟩
        | stop => cases (Interruption.eq_of_mapLines he).1.mp rfl
        | outOfFuel => cases (Interruption.eq_of_mapLines he).2.mp rfl

theorem inFrame {frame frame' : Frame} (hframe : frame.Mirrors f g frame') {p : Plan σ α}
    {x : Action σ α} (hp : Follows f g p x) :
    Follows f g (Plan.inFrame frame' p) (Action.inFrame frame x) := by
  intro m m' hm hfinished
  have hx := hp _ _ (hm.enter hframe)
  unfold Action.inFrame at hfinished ⊢
  cases hrun : x { m with frames := frame :: m.frames } with
  | ok a m₁ =>
    rw [hrun] at hx
    obtain ⟨o', hends, hmirrored⟩ := hx id
    cases hmirrored with
    | ok _ hm₁ =>
      refine ⟨_, Course.ends_bind.mpr ⟨_, hends, .ended _⟩, ?_⟩
      rw [hframe.scope]
      exact .ok a (hm₁.leave frame.scope)
  | error e m₁ =>
    rw [hrun] at hx hfinished
    obtain ⟨o', hends, hmirrored⟩ := hx fun hunfinished => hfinished
      (EStateM.Result.isUnfinished_error.mpr (EStateM.Result.isUnfinished_error.mp hunfinished))
    cases hmirrored with
    | error he hm₁ =>
      refine ⟨_, Course.ends_bind.mpr ⟨_, hends, .ended _⟩, ?_⟩
      rw [hframe.scope]
      exact .error he (hm₁.leave frame.scope)

/-! Actions of both programs. -/

variable {line line' : SourceLine}

theorem failRuntime (hline : f line = g line') (kind : RuntimeFault) :
    Follows f g (Plan.act (Action.fail (.runtime ⟨kind, line'⟩)) : Plan σ α)
      (Action.fail (.runtime ⟨kind, line⟩)) :=
  act fun _ _ hm => mirrored_failing hm hline kind

theorem failInternal (fault : InternalFault) :
    Follows f g (Plan.act (Action.fail (.internal fault)) : Plan σ α)
      (Action.fail (.internal fault)) :=
  act fun _ _ hm => .error rfl (hm.record _ _)

theorem note (event event' : Event) :
    Follows (σ := σ) f g (Plan.act (Action.note event')) (Action.note event) :=
  act fun _ _ hm => .ok () (hm.record event event')

theorem load (key : String) :
    Follows (σ := σ) f g (Plan.act (Action.load key)) (Action.load key) := by
  refine act fun m m' hm => ?_
  have hrun : Action.load key m' = .ok (m.memory.get key m.scope) m' := by
    rw [← hm.memory, ← hm.scope]
    rfl
  rw [hrun]
  exact .ok _ hm

theorem ofExcept (hline : f line = g line') (result : Except RuntimeFault α) :
    Follows (σ := σ) f g (Plan.act (Action.ofExcept line' result))
      (Action.ofExcept line result) := by
  cases result with
  | ok a => exact act fun _ _ hm => .ok a hm
  | error kind => exact failRuntime hline kind

theorem store (key : String) (hline : f line = g line')
    (write : Memory → Option ScopeId → Except RuntimeFault Memory) :
    Follows (σ := σ) f g (Plan.act (Action.store key line' write))
      (Action.store key line write) := by
  refine act fun m m' hm => ?_
  cases hwrite : write m.memory m.scope with
  | ok memory =>
    have hwrite' : write m'.memory m'.scope = .ok memory := by rw [hm.memory, hm.scope, hwrite]
    rw [Action.store_of_ok hwrite, Action.store_of_ok hwrite']
    exact .ok () ((hm.withMemory memory).record _ _)
  | error kind =>
    have hwrite' : write m'.memory m'.scope = .error kind := by rw [hm.memory, hm.scope, hwrite]
    rw [Action.store_of_error hwrite, Action.store_of_error hwrite']
    exact mirrored_failing hm hline kind

theorem remove (key : String) :
    Follows (σ := σ) f g (Plan.act (Action.remove key)) (Action.remove key) := by
  refine act fun m m' hm => ?_
  rw [Action.remove_run, Action.remove_run, hm.memory, hm.scope]
  exact .ok () ((hm.withMemory _).record _ _)

theorem increment (name : String) (hline : f line = g line') :
    Follows (σ := σ) f g (Plan.act (Action.increment name line'))
      (Action.increment name line) := by
  refine act fun m m' hm => ?_
  rw [Action.increment, Action.increment, Action.get_bind, Action.get_bind, hm.memory, hm.scope]
  cases m.memory.increment name m.scope with
  | ok memory => exact .ok Flow.completed ((hm.withMemory memory).record _ _)
  | error kind =>
    cases kind with
    | overflow operator => exact .ok Flow.rangeExhausted (hm.record _ _)
    | _ => exact mirrored_failing hm hline _

theorem askConsole (prompt : String) :
    Follows (σ := σ) f g (Plan.act (Action.ask prompt)) (Action.ask prompt) :=
  act fun _ _ hm => mirrored_ofConsole (hm.record (.asked prompt) (.asked prompt)) _

theorem write (text : String) :
    Follows (σ := σ) f g (Plan.act (Action.write text)) (Action.write text) :=
  act fun _ _ hm => mirrored_ofConsole (hm.record (.wrote text) (.wrote text)) _

theorem checkReturn (value : Option Value) (hline : f line = g line') :
    Follows (σ := σ) f g (Plan.act (Action.checkReturn value line'))
      (Action.checkReturn value line) := by
  refine act fun m m' hm => ?_
  cases value with
  | none => exact .ok () hm
  | some value =>
    have hframes := hm.frames
    simp only [Action.checkReturn, Action.get_bind, Option.isSome_some, if_true]
    generalize m.frames = frames at hframes ⊢
    generalize m'.frames = frames' at hframes ⊢
    cases hframes with
    | nil => exact .ok () hm
    | cons hframe _ =>
      simp only [hframe.routine.isProcedure, hframe.routine.name]
      split
      · exact mirrored_failing hm hline _
      · exact .ok () hm

theorem ofFlow (flow : Flow) :
    Follows (σ := σ) f g (Plan.act (Action.ofFlow flow)) (Action.ofFlow flow) := by
  cases flow with
  | completed | rangeExhausted => exact act fun _ _ hm => .ok Value.nil hm
  | returned value => exact act fun _ _ hm => .ok _ hm
  | exit => exact act fun _ _ hm => .error rfl hm

theorem openScope (name : String) (locals : List (String × Value)) :
    Follows (σ := σ) f g (Plan.act (Action.openScope name locals))
      (Action.openScope name locals) := by
  refine act fun m m' hm => ?_
  rw [Action.openScope_run, Action.openScope_run, hm.memory]
  exact .ok _ ⟨hm.console, rfl, hm.routines, hm.frames⟩

/-- Both programs go on with their routine of a name, or neither does. -/
theorem lookUp_bind (name : String) (arguments : Nat) (hline : f line = g line')
    {q : Routine → Plan σ α} {y : Routine → Action σ α}
    (hq : ∀ routine routine', routine.Mirrors f g routine' →
      Follows f g (q routine') (y routine)) :
    Follows f g (Plan.act (Action.lookUp name arguments line') >>= q)
      (Action.lookUp name arguments line >>= y) := by
  intro m m' hm hfinished
  rcases lookUp_mirrored hm name arguments line line' with
    ⟨routine, routine', hroutine, hrun, hrun'⟩ | ⟨kind, hrun, hrun'⟩
  · simp only [Bind.bind, EStateM.bind, hrun] at hfinished ⊢
    obtain ⟨o', hends, hmirrored⟩ := hq routine routine' hroutine m m' hm hfinished
    exact ⟨o', ends_act_bind hrun' hends, hmirrored⟩
  · refine ⟨_, ends_act_bind_of_error hrun', ?_⟩
    simp only [Bind.bind, EStateM.bind, hrun]
    exact mirrored_failing hm hline kind

end Plan.Follows

/-! ### Every task is followed -/

/-- Each task, with the given fuel, is followed by the task of a program that is the same. -/
structure Followed (σ : Type) [Console σ] (f g : SourceLine → SourceLine) (fuel : Nat) : Prop where
  evaluate {node node' : Node} (h : node.SameOn f g node') :
    (Plan.ask (.evaluate node') : Plan σ Value).Follows f g (Tablica.evaluate fuel node)
  evaluateAll {nodes nodes' : List Node} (h : Node.SameListOn f g nodes nodes') :
    (Plan.ask (.evaluateAll nodes') : Plan σ (List Value)).Follows f g
      (Tablica.evaluateAll fuel nodes)
  keyOf (name : String) {indices indices' : List Node} (h : Node.SameListOn f g indices indices') :
    (Plan.ask (.keyOf name indices') : Plan σ String).Follows f g
      (Tablica.keyOf fuel name indices)
  call (name : String) {arguments arguments' : List Node} {line line' : SourceLine}
    (h : Node.SameListOn f g arguments arguments') (hline : f line = g line') :
    (Plan.ask (.call name arguments' line') : Plan σ Value).Follows f g
      (Tablica.call fuel name arguments line)
  execute {node node' : Node} (h : node.SameStatement f g node') :
    (Plan.ask (.execute node') : Plan σ Flow).Follows f g (Tablica.execute fuel node)
  perform {node node' : Node} (h : node.SameStatement f g node') :
    (Plan.ask (.perform node') : Plan σ Flow).Follows f g (executeNode fuel node)
  block {nodes nodes' : List Node} (h : Node.SameBlock f g nodes nodes') :
    (Plan.ask (.block nodes') : Plan σ Flow).Follows f g (executeBlock fuel nodes)
  loop {test test' : Node} {body body' : List Node} (htest : test.SameOn f g test')
    (hbody : Node.SameBlock f g body body') :
    (Plan.ask (.loop test' body') : Plan σ Flow).Follows f g (executeLoop fuel test body)

omit [Console σ] in
theorem Node.evaluation_of_not_isPlain {node : Node} (h : node.isPlain = false) :
    (node.evaluation : Plan σ Value)
      = Plan.act (Action.fail (.internal (.notAnExpression node.name))) := by
  cases node <;> first | rfl | cases h

theorem Node.execution_of_isPlain {node : Node} (h : node.isPlain = true) :
    (node.execution : Plan σ Flow) = do
      let _ ← Plan.ask (.evaluate node)
      return .completed := by
  cases node <;> first | rfl | cases h

theorem Node.execution_read_of_not_isVariable {node : Node} {line : SourceLine}
    (h : node.isVariable = false) :
    ((Node.command .read (some node) line).execution : Plan σ Flow)
      = Plan.act (Action.fail (.runtime ⟨.readTargetNotVariable, line⟩)) := by
  cases node <;> first | rfl | cases h

theorem executeBlock_cons (fuel : Nat) (node : Node) (rest : List Node) :
    (executeBlock (fuel + 1) (node :: rest) : Action σ Flow) = do
      let flow ← execute fuel node
      if flow = .completed then executeBlock fuel rest else return flow := by
  rw [executeBlock]
  refine congrArg (execute fuel node >>= ·) (funext fun flow => ?_)
  cases flow <;> rfl

theorem executeLoop_succ (fuel : Nat) (test : Node) (body : List Node) :
    (executeLoop (fuel + 1) test body : Action σ Flow) = do
      let value ← evaluate fuel test
      if value.isTruthy then
        let flow ← executeBlock fuel body
        if flow = .completed then executeLoop fuel test body
        else return if flow = .rangeExhausted then .completed else flow
      else return .completed := by
  rw [executeLoop]
  refine congrArg (evaluate fuel test >>= ·) (funext fun value => ?_)
  cases value.isTruthy with
  | false => rfl
  | true =>
    refine congrArg (executeBlock fuel body >>= ·) (funext fun flow => ?_)
    cases flow <;> rfl

/-- Marks are executed and leave nothing behind but entries in the journal. -/
theorem Task.block_marks_yields {marks : List Node} (hmarks : marks.all Node.isEndOfLine = true)
    {m m' : Machine σ} (hm : m.Mirrors f g m') :
    ∃ m₁', (Task.block marks).Yields m' (.ok .completed m₁') ∧ m.Mirrors f g m₁' := by
  induction marks generalizing m' with
  | nil => exact ⟨m', block_nil_yields.mpr rfl, hm⟩
  | cons node marks ih =>
    rw [List.all_cons, Bool.and_eq_true] at hmarks
    obtain rfl := Node.eq_endOfLine hmarks.1
    have hmark : (Task.execute .endOfLine).Yields m'
        (.ok Flow.completed (m'.record (.started .endOfLine))) := ⟨id, 2, rfl⟩
    obtain ⟨m₁', hrest, hm₁⟩ := ih hmarks.2 (hm.record_right (.started .endOfLine))
    exact ⟨m₁', (block_cons_yields hmark).mpr hrest, hm₁⟩

/-- A block without statements. -/
theorem Plan.Follows.block_nil {nodes' : List Node} (h : Node.SameBlock f g [] nodes') :
    Follows (σ := σ) f g (Plan.ask (.block nodes')) (Pure.pure Flow.completed : Action σ Flow) :=
  fun _ _ hm _ => by
    obtain ⟨m₁', hyields, hm₁⟩ := Task.block_marks_yields h.nil hm
    exact ⟨_, ends_ask.mpr hyields, .ok Flow.completed hm₁⟩

namespace Followed

variable {fuel : Nat}

/-- A mark in front of a block. -/
theorem mark (h : Followed σ f g fuel) {rest nodes' : List Node}
    (hsame : Node.SameBlock f g rest nodes') :
    (Plan.ask (.block nodes') : Plan σ Flow).Follows f g
      (executeBlock (fuel + 1) (.endOfLine :: rest)) := by
  intro m m' hm hfinished
  have hmark : (Task.execute .endOfLine).Yields m
      (.ok Flow.completed (m.record (.started .endOfLine))) := ⟨id, 2, rfl⟩
  rw [executeBlock_cons] at hfinished ⊢
  have hexecuted : ¬ (Tablica.execute fuel .endOfLine m).IsUnfinished :=
    fun hunfinished => hfinished (Action.isUnfinished_bind hunfinished)
  have hyields : (Task.execute .endOfLine).Yields m (Tablica.execute fuel .endOfLine m) :=
    ⟨hexecuted, fuel, rfl⟩
  rw [Action.bind_of_ok (hyields.unique hmark), if_pos rfl] at hfinished ⊢
  exact h.block hsame _ _ (hm.record_left _) hfinished

/-- A statement in front of a block, before which there may be marks in the other block. -/
theorem statement (h : Followed σ f g fuel) {node node' : Node} {marks rest rest' : List Node}
    (hmarks : marks.all Node.isEndOfLine = true) (hnode : node.SameStatement f g node')
    (hrest : Node.SameBlock f g rest rest') :
    (Plan.ask (.block (marks ++ node' :: rest')) : Plan σ Flow).Follows f g
      (executeBlock (fuel + 1) (node :: rest)) := by
  intro m m' hm hfinished
  obtain ⟨m₁', hcompleted, hm₁⟩ := Task.block_marks_yields hmarks hm
  have hfollows : (Plan.ask (.block (node' :: rest')) : Plan σ Flow).Follows f g
      (executeBlock (fuel + 1) (node :: rest)) := by
    rw [executeBlock_cons]
    exact .ask ((h.execute hnode).bind fun flow => .ite (h.block hrest) (.pure flow))
  obtain ⟨o', hends, hmirrored⟩ := hfollows m m₁' hm₁ hfinished
  have hyields := (Task.block_append_yields hcompleted).mpr (Plan.ends_ask.mp hends)
  exact ⟨o', Plan.ends_ask.mpr hyields, hmirrored⟩

theorem evaluate_succ (h : Followed σ f g fuel) {node node' : Node}
    (hnode : node.SameOn f g node') :
    (node'.evaluation : Plan σ Value).Follows f g (Tablica.evaluate (fuel + 1) node) := by
  cases node with
  | number n =>
    obtain rfl := hnode.number
    exact .pure _
  | text s =>
    obtain rfl := hnode.text
    exact .pure _
  | boolean b =>
    obtain rfl := hnode.boolean
    exact .pure _
  | var name indices =>
    obtain ⟨indices', rfl, hindices⟩ := hnode.var
    exact (h.keyOf name hindices).bind fun key => .load key
  | operation operator left right line =>
    obtain ⟨left', right', line', rfl, hleft, hright, hline⟩ := hnode.operation
    exact (h.evaluate hleft).bind fun left => (h.evaluate hright).bind fun right =>
      .ofExcept hline _
  | call name arguments line =>
    obtain ⟨arguments', line', rfl, harguments, hline⟩ := hnode.call
    exact h.call name harguments hline
  | _ =>
    rw [Node.evaluation_of_not_isPlain hnode.kind_eq.2, hnode.kind_eq.1]
    exact .failInternal _

theorem execution_succ (h : Followed σ f g fuel) {node node' : Node}
    (hnode : node.SameStatement f g node') :
    (node'.execution : Plan σ Flow).Follows f g (executeNode (fuel + 1) node) := by
  cases node with
  | endOfLine =>
    obtain rfl := hnode.endOfLine
    exact .pure _
  | assignment name indices value isIterator line =>
    obtain ⟨indices', value', line', rfl, hindices, hvalue, hline⟩ := hnode.assignment
    exact (h.evaluate hvalue).bind fun value => (h.keyOf name hindices).bind fun key =>
      (Plan.Follows.store key hline _).bind fun _ => .pure _
  | command c argument line =>
    obtain ⟨argument', line', rfl, hargument, hline⟩ := hnode.command
    cases c with
    | print =>
      cases argument with
      | none =>
        obtain rfl : argument' = none := by simpa using hargument.symm
        exact .pure _
      | some node =>
        obtain ⟨node', rfl, hsame⟩ := Option.map_eq_some_iff.mp hargument.symm
        exact (h.evaluate hsame.symm).bind fun value => (Plan.Follows.write _).bind fun _ => .pure _
    | read =>
      cases argument with
      | none =>
        obtain rfl : argument' = none := by simpa using hargument.symm
        exact .failRuntime hline _
      | some node =>
        obtain ⟨node', rfl, hsame⟩ := Option.map_eq_some_iff.mp hargument.symm
        have hsame : node.SameOn f g node' := hsame.symm
        cases node with
        | var name indices =>
          obtain ⟨indices', rfl, hindices⟩ := hsame.var
          exact (Plan.Follows.askConsole _).bind fun input =>
            (h.keyOf name hindices).bind fun key =>
              (Plan.Follows.store key hline _).bind fun _ => .pure _
        | _ =>
          rw [Node.execution_read_of_not_isVariable hsame.isVariable_eq]
          exact .failRuntime hline _
    | stop => exact .pure _
  | condition test thenBlock elseBlock line =>
    obtain ⟨test', thenBlock', elseBlock', line', rfl, htest, hthen, helse⟩ := hnode.condition
    refine (h.evaluate htest).bind fun value => .ite (h.block hthen) ?_
    cases helse with
    | none => exact .pure _
    | some helse => exact h.block helse
  | loop test body iterator line =>
    obtain ⟨test', body', line', rfl, htest, hbody⟩ := hnode.loop
    cases iterator with
    | none =>
      have hloop : executeNode (fuel + 1) (.loop test body none line)
          = (executeLoop fuel test body : Action σ Flow) := by simp [executeNode]
      rw [hloop]
      exact h.loop htest hbody
    | some name =>
      exact (h.loop htest hbody).bind fun flow => (Plan.Follows.remove name).bind fun _ => .pure _
  | routine name parameters body isProcedure line =>
    obtain ⟨body', line', rfl, hbody⟩ := hnode.routine
    have hroutine : Routine.Mirrors f g ⟨name, parameters, body, isProcedure⟩
        ⟨name, parameters, body', isProcedure⟩ := ⟨rfl, rfl, hbody, rfl⟩
    exact Plan.Follows.bind (.act fun _ _ hm => .ok PUnit.unit (hm.define hroutine name))
      fun _ => .pure _
  | giveBack value line =>
    obtain ⟨value', line', rfl, hvalue, hline⟩ := hnode.giveBack
    cases value with
    | none =>
      obtain rfl : value' = none := by simpa using hvalue.symm
      exact .pure _
    | some node =>
      obtain ⟨node', rfl, hsame⟩ := Option.map_eq_some_iff.mp hvalue.symm
      simp only [executeNode, bind_map_left]
      exact (h.evaluate hsame.symm).bind fun value =>
        (Plan.Follows.checkReturn (some value) hline).bind fun _ => .pure _
  | increment name line =>
    obtain ⟨line', rfl, hline⟩ := hnode.increment
    exact .increment name hline
  | _ =>
    rw [Node.execution_of_isPlain hnode.isPlain_eq]
    exact (h.evaluate (hnode.sameOn rfl)).bind fun _ => .pure _

theorem call_succ (h : Followed σ f g fuel) (name : String) {arguments arguments' : List Node}
    {line line' : SourceLine} (harguments : Node.SameListOn f g arguments arguments')
    (hline : f line = g line') :
    ((Task.call name arguments' line').plan : Plan σ Value).Follows f g
      (Tablica.call (fuel + 1) name arguments line) := by
  have hplan : ((Task.call name arguments' line').plan : Plan σ Value) = (do
      let routine ← Plan.act (Action.lookUp name arguments.length line')
      let values ← Plan.ask (.evaluateAll arguments')
      let scope ← Plan.act (Action.openScope routine.name (routine.parameters.zip values))
      let flow ← Plan.inFrame ⟨scope, routine⟩ (Plan.ask (.block routine.body))
      Plan.act (Action.ofFlow flow)) := by
    rw [← harguments.length_eq]
    rfl
  rw [hplan]
  refine Plan.Follows.lookUp_bind name _ hline fun routine routine' hroutine => ?_
  rw [hroutine.name, hroutine.parameters]
  refine (h.evaluateAll harguments).bind fun values => (Plan.Follows.openScope _ _).bind
    fun scope => ?_
  have hframe : Frame.Mirrors f g ⟨scope, routine⟩ ⟨scope, routine'⟩ := ⟨rfl, hroutine⟩
  exact (Plan.Follows.inFrame hframe (h.block hroutine.body)).bind fun flow => .ofFlow flow

/-- A list of expressions needs no fuel if it is empty. -/
theorem evaluateAll_nil {nodes' : List Node} (h : Node.SameListOn f g [] nodes') (fuel : Nat) :
    (Plan.ask (.evaluateAll nodes') : Plan σ (List Value)).Follows f g
      (Tablica.evaluateAll fuel []) := by
  obtain rfl := h.nil
  cases fuel <;> exact .ask (.pure [])

theorem zero : Followed σ f g 0 where
  evaluate _ := .unfinished fun _ => trivial
  evaluateAll {nodes _} h := by
    cases nodes with
    | nil => exact evaluateAll_nil h 0
    | cons => exact .unfinished fun _ => trivial
  keyOf _ _ _ _ := .unfinished fun _ => trivial
  call _ _ _ _ _ _ _ := .unfinished fun _ => trivial
  execute _ := .unfinished fun _ => trivial
  perform _ := .unfinished fun _ => trivial
  block {nodes _} h := by
    cases nodes with
    | nil => exact .block_nil h
    | cons => exact .unfinished fun _ => trivial
  loop _ _ := .unfinished fun _ => trivial

theorem succ (h : Followed σ f g fuel) : Followed σ f g (fuel + 1) where
  evaluate hnode := .ask (h.evaluate_succ hnode)
  evaluateAll {nodes _} hnodes := by
    cases nodes with
    | nil => exact evaluateAll_nil hnodes _
    | cons node rest =>
      obtain ⟨node', rest', rfl, hnode, hrest⟩ := hnodes.cons
      exact .ask ((h.evaluate hnode).bind fun value => (h.evaluateAll hrest).bind fun values =>
        .pure _)
  keyOf name _ _ hindices := .ask ((h.evaluateAll hindices).bind fun _ => .pure _)
  call name _ _ _ _ harguments hline := .ask (h.call_succ name harguments hline)
  execute {node node'} hnode := .ask ((Plan.Follows.note (.started node) (.started node')).bind
    fun _ => .catchStop (h.perform hnode))
  perform hnode := .ask (h.execution_succ hnode)
  block {nodes _} hnodes := by
    cases nodes with
    | nil => exact .block_nil hnodes
    | cons node rest =>
      cases hmark : node.isEndOfLine with
      | true =>
        obtain rfl := Node.eq_endOfLine hmark
        exact h.mark hnodes.mark
      | false =>
        obtain ⟨marks, node', rest', rfl, hmarks, hnode, hrest⟩ := hnodes.cons hmark
        exact h.statement hmarks hnode hrest
  loop {test _ body _} htest hbody := by
    rw [executeLoop_succ]
    exact .ask ((h.evaluate htest).bind fun value => .ite ((h.block hbody).bind fun flow =>
      .ite (h.loop htest hbody) (.pure _)) (.pure _))

end Followed

/-- **Every task is followed** by the task of a program that is the same. -/
theorem followed (f g : SourceLine → SourceLine) (fuel : Nat) : Followed σ f g fuel := by
  induction fuel with
  | zero => exact .zero
  | succ fuel ih => exact ih.succ

end Follows

/-! ### Runs -/

theorem Verdict.ofConclusion_eq_unfinished_iff {o : Conclusion σ Flow} :
    Verdict.ofConclusion o = .unfinished ↔ o.IsUnfinished := by
  rcases o with ⟨_ | _ | _ | _, _⟩ | ⟨_ | _ | _, _⟩ <;>
    simp [ofConclusion, ofFlow, ofInterruption, EStateM.Result.IsUnfinished]

theorem Verdict.ofConclusion_mirrored {o o' : Conclusion σ Flow} (h : Mirrored f g o o') :
    (Verdict.ofConclusion o).mapLines f = (Verdict.ofConclusion o').mapLines g := by
  have hmap : ∀ (f : SourceLine → SourceLine) (e : Interruption),
      (Verdict.ofInterruption e).mapLines f = Verdict.ofInterruption (e.mapLines f) := by
    intro f e
    rcases e with _ | ⟨_ | _⟩ | _ <;> rfl
  cases h with
  | ok flow => cases flow <;> rfl
  | error he => rw [Verdict.ofConclusion, Verdict.ofConclusion, hmap, hmap, he]

theorem Machine.Mirrors.conclude [Console σ] {m m' : Machine σ} (hm : m.Mirrors f g m')
    {verdict verdict' : Verdict} (hverdict : verdict.mapLines f = verdict'.mapLines g) :
    (m.conclude verdict).1.mapLines f = (m'.conclude verdict').1.mapLines g
      ∧ (m.conclude verdict).2.Mirrors f g (m'.conclude verdict').2 := by
  unfold Machine.conclude
  rw [hm.console]
  split
  · exact ⟨hverdict, (hm.record _ _).withConsole _⟩
  · exact ⟨rfl, ((hm.record _ _).withConsole _).record _ _⟩

/-- **The run of a program** is followed by that of a program that is the same. -/
theorem run_mirrored [Console σ] {nodes nodes' : List Node}
    (hsame : Node.SameBlock f g nodes nodes') {m m' : Machine σ} (hm : m.Mirrors f g m')
    {fuel : Nat} (hended : (run fuel nodes m).1 ≠ .unfinished) :
    ∃ fuel', (run fuel nodes m).1.mapLines f = (run fuel' nodes' m').1.mapLines g
      ∧ (run fuel nodes m).2.Mirrors f g (run fuel' nodes' m').2 := by
  have hrun := Machine.run_eq_conclude (show executeBlock fuel nodes m = _ from rfl)
  have hfinished : ¬ (executeBlock fuel nodes m).IsUnfinished := by
    intro hunfinished
    have hverdict := Verdict.ofConclusion_eq_unfinished_iff.mpr hunfinished
    rw [hrun, if_pos hverdict] at hended
    exact hended hverdict
  obtain ⟨o', hends, hmirrored⟩ := (followed f g fuel).block hsame m m' hm hfinished
  obtain ⟨hfinished', fuel', hblock'⟩ := Plan.ends_ask.mp hends
  have hrun' := Machine.run_eq_conclude (show executeBlock fuel' nodes' m' = o' from hblock')
  rw [if_neg (mt Verdict.ofConclusion_eq_unfinished_iff.mp hfinished)] at hrun
  rw [if_neg (mt Verdict.ofConclusion_eq_unfinished_iff.mp hfinished')] at hrun'
  refine ⟨fuel', ?_⟩
  rw [hrun, hrun']
  exact hmirrored.machines.conclude (Verdict.ofConclusion_mirrored hmirrored)

/-- Two runs that ended alike: the verdicts differ in the line of an error at most, and the consoles
and the memories are the same. -/
structure EndAlike (f : SourceLine → SourceLine) (ended ended' : Verdict × Machine σ) : Prop where
  verdict : ended'.1 = ended.1.mapLines f
  console : ended'.2.console = ended.2.console
  memory : ended'.2.memory = ended.2.memory

/-- Two programs that run alike: on every console one of them ends if and only if the other one
does, and they end alike. -/
structure RunAlike (σ : Type) [Console σ] (f : SourceLine → SourceLine)
    (nodes nodes' : List Node) : Prop where
  follows (console : σ) (fuel : Nat) (h : (run fuel nodes { console }).1 ≠ .unfinished) :
    ∃ fuel', EndAlike f (run fuel nodes { console }) (run fuel' nodes' { console })
  reflects (console : σ) (fuel' : Nat) (h : (run fuel' nodes' { console }).1 ≠ .unfinished) :
    ∃ fuel, EndAlike f (run fuel nodes { console }) (run fuel' nodes' { console })

theorem Verdict.mapLines_id (verdict : Verdict) : verdict.mapLines id = verdict := by
  rcases verdict with _ | _ | ⟨_ | _⟩ | _ <;> rfl

theorem Machine.mirrors_fresh (console : σ) :
    Mirrors f g ({ console } : Machine σ) ({ console } : Machine σ) := by
  refine ⟨rfl, rfl, fun name => ?_, .nil⟩
  rw [Std.ExtTreeMap.getElem?_empty]
  exact .none

/-- Programs that are the same apart from marks and lines run alike. -/
theorem runAlike_of_bareBlock_eq [Console σ] {nodes nodes' : List Node}
    (h : Node.bareBlock nodes' = Node.bareBlock (nodes.map (Node.mapLines f))) :
    RunAlike σ f nodes nodes' := by
  have hsame : Node.SameBlock f id nodes nodes' := by
    have hid : nodes'.map (Node.mapLines id) = nodes' :=
      List.map_id'' Node.mapLines_id nodes'
    rw [Node.SameBlock, hid, h]
  refine ⟨fun console fuel hended => ?_, fun console fuel' hended => ?_⟩
  · obtain ⟨fuel', hverdict, hm⟩ := run_mirrored hsame (Machine.mirrors_fresh console) hended
    rw [Verdict.mapLines_id] at hverdict
    exact ⟨fuel', hverdict.symm, hm.console, hm.memory⟩
  · obtain ⟨fuel, hverdict, hm⟩ := run_mirrored hsame.symm (Machine.mirrors_fresh console) hended
    rw [Verdict.mapLines_id] at hverdict
    exact ⟨fuel, hverdict, hm.console.symm, hm.memory.symm⟩

/-- **Blank lines and comments mean nothing.**  A text with a line more, at any place, that is blank
but for a comment, is read if and only if the text itself is.  The programs are then the same, apart
from marks and the numbers of lines, and they run alike; otherwise both texts are at fault for the
same reason. -/
theorem blank_lines_mean_nothing (σ : Type) [Console σ] (symbol : List Char) (text : String)
    (count : Nat) {line : List Char} (hfeed : '\n' ∉ line)
    (hline : Source.holdsNothing (Source.dropReturn line) = true) :
    Relates (fun e e' => e'.kind.ctorIdx = e.kind.ctorIdx)
      (fun nodes nodes' =>
        Node.bareBlock nodes'
            = Node.bareBlock (nodes.map (Node.mapLines (Source.shiftLine count)))
          ∧ RunAlike σ (Source.shiftLine count) nodes nodes')
      (Program.parse symbol text) (Program.parse symbol (Source.insertLine count line text)) :=
  (Program.parse_insertLine hfeed hline symbol count text).mono (fun _ _ => id)
    fun _ _ hbare => ⟨hbare, runAlike_of_bareBlock_eq hbare⟩

/-- A comment before `wpp`. -/
theorem blank_lines_mean_nothing_before_wpp :
    let text := "jeżeli x to\n\tpisz 1\nwpp\n\tpisz 2"
    let line := "  # inaczej"
    Source.insertLine 2 line.toList text = "jeżeli x to\n\tpisz 1\n  # inaczej\nwpp\n\tpisz 2"
      ∧ ∃ nodes nodes', Program.parse Token.defaultRange text = .ok nodes
        ∧ Program.parse Token.defaultRange (Source.insertLine 2 line.toList text) = .ok nodes'
        ∧ Node.bareBlock nodes' = Node.bareBlock (nodes.map (Node.mapLines (Source.shiftLine 2)))
        ∧ RunAlike Transcript (Source.shiftLine 2) nodes nodes' := by
  intro text line
  refine ⟨by decide +kernel, ?_⟩
  have hfeed : '\n' ∉ line.toList := by decide +kernel
  have hline : Source.holdsNothing (Source.dropReturn line.toList) = true := by decide +kernel
  have hrelates := blank_lines_mean_nothing Transcript Token.defaultRange text 2 hfeed hline
  have hparses : (Program.parse Token.defaultRange text).toOption.isSome = true := by
    decide +kernel
  cases hparse : Program.parse Token.defaultRange text with
  | error e =>
    rw [hparse] at hparses
    cases hparses
  | ok nodes =>
    rw [hparse] at hrelates
    obtain ⟨nodes', hparse', hbare, halike⟩ := hrelates.exists_of_ok
    exact ⟨nodes, nodes', rfl, hparse', hbare, halike⟩

end Tablica
