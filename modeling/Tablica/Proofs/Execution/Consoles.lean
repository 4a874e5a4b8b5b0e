import Tablica.Proofs.Execution.Actions

/-!
# Programs do not see their console

A program learns nothing of its console but the answers that it gets.  Let two consoles, of one type
or of two, be related in such a way that they answer every question alike and are related again
afterwards.  Then the program runs on the one console as it does on the other.

    machine, console c     ── task ──▸   outcome, console c′
       │       │ R                          │          │ R
    machine, console d     ── task ──▸   outcome, console d′

Memory, routines, calls and journal are the same on both sides throughout.

* `Console.Alike` — consoles that answer alike;
* `Machine.onConsole`, `Exchanged` — machines and outcomes with the console exchanged;
* `Action.Matches`, `Plan.Matches` — what does the same on either console;
* `Task.run_matches` — all tasks do;
* `run_matches` — and so do runs.
-/

namespace Tablica

variable {σ τ α β : Type}

/-- The same answer of two consoles, which are related afterwards. -/
structure Console.AnswersAlike (R : σ → τ → Prop) (x : Except String α × σ)
    (y : Except String α × τ) : Prop where
  answer : y.1 = x.1
  console : R x.2 y.2

/-- Related consoles answer alike and stay related. -/
structure Console.Alike [Console σ] [Console τ] (R : σ → τ → Prop) : Prop where
  readLine {c : σ} {d : τ} (h : R c d) (prompt : String) :
    AnswersAlike R (readLine prompt c) (readLine prompt d)
  write {c : σ} {d : τ} (h : R c d) (text : String) :
    AnswersAlike R (write text c) (write text d)
  flush {c : σ} {d : τ} (h : R c d) : AnswersAlike R (flush c) (flush d)

/-- The machine with its console exchanged. -/
def Machine.onConsole (m : Machine σ) (console : τ) : Machine τ where
  console
  memory := m.memory
  routines := m.routines
  frames := m.frames
  journal := m.journal

namespace Machine

variable (m : Machine σ) (d : τ)

theorem onConsole_console : (m.onConsole d).console = d := rfl

theorem onConsole_memory : (m.onConsole d).memory = m.memory := rfl

theorem onConsole_routines : (m.onConsole d).routines = m.routines := rfl

theorem onConsole_frames : (m.onConsole d).frames = m.frames := rfl

theorem onConsole_scope : (m.onConsole d).scope = m.scope := rfl

theorem onConsole_enter (frame : Frame) :
    ({ m.onConsole d with frames := frame :: (m.onConsole d).frames } : Machine τ)
      = onConsole { m with frames := frame :: m.frames } d := rfl

end Machine

/-- The same outcome on related consoles. -/
inductive Exchanged (R : σ → τ → Prop) : Conclusion σ α → Conclusion τ α → Prop
  | ok (a : α) (m : Machine σ) {d : τ} (h : R m.console d) :
    Exchanged R (.ok a m) (.ok a (m.onConsole d))
  | error (e : Interruption) (m : Machine σ) {d : τ} (h : R m.console d) :
    Exchanged R (.error e m) (.error e (m.onConsole d))

/-! ### Actions -/

/-- Actions that do the same on related consoles. -/
def Action.Matches (R : σ → τ → Prop) (x : Action σ α) (y : Action τ α) : Prop :=
  ∀ (m : Machine σ) (d : τ), R m.console d → Exchanged R (x m) (y (m.onConsole d))

theorem Action.leave_onConsole (scope : ScopeId) (m : Machine σ) (d : τ) :
    leave scope (m.onConsole d) = (leave scope m).onConsole d := by
  unfold leave Machine.onConsole
  dsimp only
  split <;> rfl

namespace Action.Matches

variable {R : σ → τ → Prop}

theorem pure (a : α) : Matches R (Pure.pure a) (Pure.pure a) := fun m _ h => .ok a m h

theorem bind {x : Action σ α} {y : Action τ α} {f : α → Action σ β} {g : α → Action τ β}
    (hx : Matches R x y) (hf : ∀ a, Matches R (f a) (g a)) : Matches R (x >>= f) (y >>= g) := by
  intro m d h
  have hfirst := hx m d h
  simp only [Bind.bind, EStateM.bind]
  generalize x m = o at hfirst ⊢
  generalize y (m.onConsole d) = o' at hfirst ⊢
  cases hfirst with
  | ok a m' h' => exact hf a m' _ h'
  | error e m' h' => exact .error e m' h'

theorem ite {c : Prop} [Decidable c] {x x' : Action σ α} {y y' : Action τ α}
    (hx : Matches R x y) (hx' : Matches R x' y') :
    Matches R (if c then x else x') (if c then y else y') := by
  split
  · exact hx
  · exact hx'

theorem catchStop {x : Action σ Flow} {y : Action τ Flow} (hx : Matches R x y) :
    Matches R (Action.catchStop x) (Action.catchStop y) := by
  intro m d h
  have hbody := hx m d h
  unfold Action.catchStop
  generalize x m = o at hbody ⊢
  generalize y (m.onConsole d) = o' at hbody ⊢
  cases hbody with
  | ok flow m' h' => exact .ok flow m' h'
  | error e m' h' =>
    cases e with
    | stop => exact .ok Flow.exit m' h'
    | _ => exact .error _ m' h'

theorem inFrame (frame : Frame) {x : Action σ α} {y : Action τ α} (hx : Matches R x y) :
    Matches R (Action.inFrame frame x) (Action.inFrame frame y) := by
  intro m d h
  have hbody := hx { m with frames := frame :: m.frames } d h
  have hleave : ∀ {m' : Machine σ} {d' : τ}, R m'.console d' →
      R (Action.leave frame.scope m').console d' := fun h' => by rwa [Action.leave_console]
  unfold Action.inFrame
  rw [Machine.onConsole_enter]
  generalize x { m with frames := frame :: m.frames } = o at hbody ⊢
  generalize y (Machine.onConsole { m with frames := frame :: m.frames } d) = o' at hbody ⊢
  cases hbody with
  | ok a m' h' =>
    simp only [Action.leave_onConsole]
    exact .ok a _ (hleave h')
  | error e m' h' =>
    simp only [Action.leave_onConsole]
    exact .error e _ (hleave h')

/-! The console takes no part in most actions. -/

theorem note (event : Event) : Matches R (Action.note event) (Action.note event) :=
  fun m _ h => .ok () (m.record event) h

theorem fail (error : ExecutionError) :
    Matches (α := α) R (Action.fail error) (Action.fail error) :=
  fun m _ h => .error (.failed error) (m.record (.failed error)) h

theorem ofExcept (line : SourceLine) (result : Except RuntimeFault α) :
    Matches R (Action.ofExcept line result) (Action.ofExcept line result) := by
  cases result with
  | ok a => exact pure a
  | error kind => exact fail _

theorem load (key : String) : Matches R (Action.load key) (Action.load key) :=
  fun m _ h => .ok (m.memory.get key m.scope) m h

theorem store (key : String) (line : SourceLine)
    (write : Memory → Option ScopeId → Except RuntimeFault Memory) :
    Matches R (Action.store key line write) (Action.store key line write) := by
  intro m d h
  have hsame : write (m.onConsole d).memory (m.onConsole d).scope = write m.memory m.scope := rfl
  cases hwrite : write m.memory m.scope with
  | ok memory =>
    rw [Action.store_of_ok hwrite, Action.store_of_ok (hsame.trans hwrite)]
    exact .ok () ((m.withMemory memory).record _) h
  | error kind =>
    rw [Action.store_of_error hwrite, Action.store_of_error (hsame.trans hwrite)]
    exact .error _ (m.failing ⟨kind, line⟩) h

theorem remove (key : String) : Matches R (Action.remove key) (Action.remove key) :=
  fun m _ h => .ok () ((m.withMemory (m.memory.delete key m.scope)).record _) h

theorem increment (name : String) (line : SourceLine) :
    Matches R (Action.increment name line) (Action.increment name line) := by
  intro m d h
  rw [Action.increment, Action.increment, Action.get_bind, Action.get_bind,
    Machine.onConsole_memory, Machine.onConsole_scope]
  cases m.memory.increment name m.scope with
  | ok memory => exact .ok Flow.completed ((m.withMemory memory).record _) h
  | error kind =>
    cases kind with
    | overflow operator => exact .ok Flow.rangeExhausted (m.record _) h
    | _ => exact .error _ (m.failing ⟨_, line⟩) h

theorem lookUp (name : String) (arguments : Nat) (line : SourceLine) :
    Matches R (Action.lookUp name arguments line) (Action.lookUp name arguments line) := by
  intro m d h
  simp only [Action.lookUp, Action.get_bind, Machine.onConsole_routines, Machine.onConsole_frames]
  cases m.routines[name]? with
  | none => exact fail _ m d h
  | some routine => exact ite (fail _) (ite (fail _) (pure routine)) m d h

theorem checkReturn (value : Option Value) (line : SourceLine) :
    Matches R (Action.checkReturn value line) (Action.checkReturn value line) := by
  intro m d h
  cases value with
  | none => exact pure () m d h
  | some value =>
    simp only [Action.checkReturn, Action.get_bind, Option.isSome_some, if_true,
      Machine.onConsole_frames]
    cases m.frames with
    | nil => exact pure () m d h
    | cons frame frames => exact ite (fail _) (pure ()) m d h

theorem ofFlow (flow : Flow) : Matches R (Action.ofFlow flow) (Action.ofFlow flow) := by
  cases flow with
  | exit => exact fun m _ h => .error .stop m h
  | _ => exact pure _

theorem openScope (name : String) (locals : List (String × Value)) :
    Matches R (Action.openScope name locals) (Action.openScope name locals) := by
  intro m d h
  rw [Action.openScope_run, Action.openScope_run]
  exact .ok m.memory.nextScope { m with
    memory := m.memory.openWith locals
    journal := Action.openingEvents name locals m.memory.nextScope ++ m.journal } h

theorem define (name : String) (routine : Routine) :
    Matches R (modify fun m => { m with routines := m.routines.insert name routine })
      (modify fun m => { m with routines := m.routines.insert name routine }) :=
  fun m _ h => .ok PUnit.unit { m with routines := m.routines.insert name routine } h

/-! Where it does, it answers alike. -/

theorem ofConsole {operation : σ → Except String α × σ} {operation' : τ → Except String α × τ}
    (halike : ∀ {c d}, R c d → Console.AnswersAlike R (operation c) (operation' d)) :
    Matches R (Action.ofConsole operation) (Action.ofConsole operation') := by
  intro m d h
  obtain ⟨hanswer, hconsole⟩ := halike h
  rw [Action.ofConsole_run, Action.ofConsole_run, Machine.onConsole_console, hanswer]
  cases (operation m.console).1 with
  | ok a => exact .ok a { m with console := (operation m.console).2 } hconsole
  | error reason =>
    exact .error _ (Machine.record { m with console := (operation m.console).2 } _) hconsole

variable [Console σ] [Console τ] (hR : Console.Alike R)

include hR

theorem ask (prompt : String) : Matches R (Action.ask prompt) (Action.ask prompt) :=
  (note _).bind fun _ => ofConsole fun h => hR.readLine h prompt

theorem write (text : String) : Matches R (Action.write text) (Action.write text) :=
  (note _).bind fun _ => ofConsole fun h => hR.write h text

theorem flush : Matches R (Action.flush : Action σ Unit) Action.flush :=
  (note _).bind fun _ => ofConsole hR.flush

end Action.Matches

/-! ### Plans -/

/-- Plans that do the same on related consoles, if the tasks that they ask for do. -/
def Plan.Matches (R : σ → τ → Prop) (p : Plan σ α) (q : Plan τ α) : Prop :=
  ∀ (answer : (task : Task) → Action σ task.Answer)
    (answer' : (task : Task) → Action τ task.Answer),
    (∀ task, Action.Matches R (answer task) (answer' task)) →
      Action.Matches R (p.settle answer) (q.settle answer')

namespace Plan.Matches

variable {R : σ → τ → Prop}

theorem act {x : Action σ α} {y : Action τ α} (h : Action.Matches R x y) :
    Matches R (Plan.act x) (Plan.act y) := fun _ _ _ => h

theorem pure (a : α) : Matches R (Pure.pure a) (Pure.pure a) := act (.pure a)

theorem ask (task : Task) : Matches R (Plan.ask task) (Plan.ask task) := fun _ _ h => h task

theorem bind {p : Plan σ α} {q : Plan τ α} {f : α → Plan σ β} {g : α → Plan τ β}
    (hp : Matches R p q) (hf : ∀ a, Matches R (f a) (g a)) : Matches R (p >>= f) (q >>= g) := by
  intro answer answer' h
  rw [Plan.settle_bind, Plan.settle_bind]
  exact (hp answer answer' h).bind fun a => hf a answer answer' h

theorem ite {c : Prop} [Decidable c] {p p' : Plan σ α} {q q' : Plan τ α} (hp : Matches R p q)
    (hp' : Matches R p' q') : Matches R (if c then p else p') (if c then q else q') := by
  split
  · exact hp
  · exact hp'

theorem catchStop {p : Plan σ Flow} {q : Plan τ Flow} (hp : Matches R p q) :
    Matches R (Plan.catchStop p) (Plan.catchStop q) := by
  intro answer answer' h
  rw [Plan.settle_catchStop, Plan.settle_catchStop]
  exact (hp answer answer' h).catchStop

theorem inFrame (frame : Frame) {p : Plan σ α} {q : Plan τ α} (hp : Matches R p q) :
    Matches R (Plan.inFrame frame p) (Plan.inFrame frame q) := by
  intro answer answer' h
  rw [Plan.settle_inFrame, Plan.settle_inFrame]
  exact (hp answer answer' h).inFrame frame

end Plan.Matches

section Tasks

open Plan.Matches

variable {R : σ → τ → Prop}

theorem Node.evaluation_matches (node : Node) :
    Plan.Matches R (node.evaluation : Plan σ Value) node.evaluation := by
  cases node with
  | number | text | boolean => exact pure _
  | var => exact (ask _).bind fun _ => act (.load _)
  | operation => exact (ask _).bind fun _ => (ask _).bind fun _ => act (.ofExcept _ _)
  | call => exact ask _
  | _ => exact act (.fail _)

variable [Console σ] [Console τ] (hR : Console.Alike R)

include hR

theorem Node.execution_matches (node : Node) :
    Plan.Matches R (node.execution : Plan σ Flow) node.execution := by
  cases node with
  | endOfLine => exact pure _
  | assignment =>
    exact (ask _).bind fun _ => (ask _).bind fun _ => (act (.store _ _ _)).bind fun _ => pure _
  | command command argument line =>
    cases command with
    | print =>
      cases argument with
      | none => exact pure _
      | some => exact (ask _).bind fun _ => (act (.write hR _)).bind fun _ => pure _
    | read =>
      cases argument with
      | none => exact act (.fail _)
      | some node =>
        cases node with
        | var =>
          exact (act (.ask hR _)).bind fun _ => (ask _).bind fun _ =>
            (act (.store _ _ _)).bind fun _ => pure _
        | _ => exact act (.fail _)
    | stop => exact pure _
  | condition test thenBlock elseBlock line =>
    refine (ask _).bind fun _ => ite (ask _) ?_
    cases elseBlock with
    | none => exact pure _
    | some => exact ask _
  | loop test body iterator line =>
    cases iterator with
    | none => exact ask _
    | some => exact (ask _).bind fun _ => (act (.remove _)).bind fun _ => pure _
  | routine => exact (act (.define _ _)).bind fun _ => pure _
  | giveBack value line =>
    cases value with
    | none => exact pure _
    | some => exact (ask _).bind fun _ => (act (.checkReturn _ _)).bind fun _ => pure _
  | increment => exact act (.increment _ _)
  | _ => exact (ask _).bind fun _ => pure _

/-- The course of every task is the same on both consoles. -/
theorem Task.plan_matches (task : Task) :
    Plan.Matches R (task.plan : Plan σ task.Answer) task.plan := by
  cases task with
  | evaluate node => exact node.evaluation_matches
  | evaluateAll nodes =>
    cases nodes with
    | nil => exact pure _
    | cons => exact (ask _).bind fun _ => (ask _).bind fun _ => pure _
  | keyOf => exact (ask _).bind fun _ => pure _
  | call =>
    exact (act (.lookUp _ _ _)).bind fun _ => (ask _).bind fun _ =>
      (act (.openScope _ _)).bind fun _ => ((ask _).inFrame _).bind fun _ => act (.ofFlow _)
  | execute => exact (act (.note _)).bind fun _ => (ask _).catchStop
  | perform node => exact node.execution_matches hR
  | block nodes =>
    cases nodes with
    | nil => exact pure _
    | cons => exact (ask _).bind fun _ => ite (ask _) (pure _)
  | loop => exact (ask _).bind fun _ => ite ((ask _).bind fun _ => ite (ask _) (pure _)) (pure _)

/-- **A task does the same on both consoles**, with any fuel. -/
theorem Task.run_matches (fuel : Nat) (task : Task) :
    Action.Matches R (task.run fuel : Action σ task.Answer) (task.run fuel) := by
  induction fuel generalizing task with
  | zero =>
    have hunfinished : ∀ {α : Type},
        Action.Matches (α := α) R (throw .outOfFuel) (throw .outOfFuel) :=
      fun m _ h => .error .outOfFuel m h
    cases task with
    | evaluateAll nodes =>
      cases nodes with
      | nil => exact .pure []
      | cons => exact hunfinished
    | block nodes =>
      cases nodes with
      | nil => exact .pure Flow.completed
      | cons => exact hunfinished
    | _ => exact hunfinished
  | succ fuel ih =>
    rw [run_succ, run_succ]
    exact task.plan_matches hR _ _ ih

/-- The same verdict, and the same machine on a related console. -/
def Verdict.Matches (R : σ → τ → Prop) (r : Verdict × Machine σ) (r' : Verdict × Machine τ) :
    Prop :=
  ∃ d, r' = (r.1, r.2.onConsole d) ∧ R r.2.console d

theorem Machine.conclude_matches {m : Machine σ} {d : τ} (h : R m.console d) (verdict : Verdict) :
    Verdict.Matches R (m.conclude verdict) ((m.onConsole d).conclude verdict) := by
  rw [← conclude_eq_flush, ← conclude_eq_flush]
  have hflush := Action.Matches.flush hR m d h
  generalize (Action.flush : Action σ Unit) m = o at hflush ⊢
  generalize (Action.flush : Action τ Unit) (m.onConsole d) = o' at hflush ⊢
  cases hflush with
  | ok _ m' h' => exact ⟨_, rfl, h'⟩
  | error e m' h' => exact ⟨_, rfl, h'⟩

/-- **A program does not see its console**: on a console that is related to another one its run
comes to the same. -/
theorem run_matches {m : Machine σ} {d : τ} (h : R m.console d) (fuel : Nat)
    (program : List Node) :
    Verdict.Matches R (run fuel program m) (run fuel program (m.onConsole d)) := by
  have hblock : Exchanged R (executeBlock fuel program m)
      (executeBlock fuel program (m.onConsole d)) :=
    Task.run_matches hR fuel (.block program) m d h
  have hend : ∀ {verdict : Verdict} {m : Machine σ} {d : τ}, R m.console d →
      Verdict.Matches R (if verdict = .unfinished then (verdict, m) else m.conclude verdict)
        (if verdict = .unfinished then (verdict, m.onConsole d)
          else (m.onConsole d).conclude verdict) := by
    intro verdict m d h
    split
    · exact ⟨d, rfl, h⟩
    · exact Machine.conclude_matches hR h verdict
  rw [Machine.run_eq_conclude rfl, Machine.run_eq_conclude rfl]
  generalize executeBlock fuel program m = o at hblock ⊢
  generalize executeBlock fuel program (m.onConsole d) = o' at hblock ⊢
  cases hblock with
  | ok flow m' h' => exact hend h'
  | error e m' h' => exact hend h'

end Tasks

end Tablica
