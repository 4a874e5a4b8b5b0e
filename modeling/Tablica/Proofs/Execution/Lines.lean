import Tablica.Proofs.Execution.Stopping
import Tablica.Proofs.Syntax.Positions

/-!
# Errors of a run point at the program

An error of a run holds the line of the node that met it.  A task hands the lines of its nodes on to
the tasks that it asks for, and the body of a call was put into the machine by a definition, with
the lines that its nodes had.  So the lines of the errors are lines of the program, and these are
lines of its text.

* `Task.sourceLines` — the lines of a task;
* `Machine.HoldsLines` — what is known of a machine while a program runs;
* `lining`, `lining_valid` — the contract, and that every task keeps it;
* `errors_and_nodes_point_at_the_text` — what follows for texts and fresh machines.
-/

namespace Tablica

variable {σ : Type}

/-- The lines of the nodes of a task, and of a call that is one. -/
def Task.sourceLines : Task → List SourceLine
  | evaluate node | execute node | perform node => node.sourceLines
  | evaluateAll nodes | keyOf _ nodes | block nodes => Node.sourceLinesOfList nodes
  | call _ arguments line => line :: Node.sourceLinesOfList arguments
  | loop test body => test.sourceLines ++ Node.sourceLinesOfList body

/-- A machine whose routines hold such lines only, and on which only errors of such lines
happened. -/
structure Machine.HoldsLines (P : SourceLine → Prop) (m : Machine σ) : Prop where
  routines : ∀ (name : String) (routine : Routine), m.routines[name]? = some routine →
    ∀ line ∈ Node.sourceLinesOfList routine.body, P line
  errors : ∀ error, .failed (.runtime error) ∈ m.journal → P error.line

/-- An interruption that is no error of another line. -/
def Interruption.HoldsLine (P : SourceLine → Prop) : Interruption → Prop
  | failed (.runtime error) => P error.line
  | _ => True

/-- An outcome on such a machine, with such an error or with a result of the given kind. -/
def HoldsLines {α : Type} (P : SourceLine → Prop) (V : α → Prop) : Conclusion σ α → Prop
  | .ok a m => V a ∧ m.HoldsLines P
  | .error e m => e.HoldsLine P ∧ m.HoldsLines P

/-- Tasks with such lines meet errors of such lines. -/
def lining (P : SourceLine → Prop) : Contract σ where
  before task m := (∀ line ∈ task.sourceLines, P line) ∧ m.HoldsLines P
  after _ _ outcome := HoldsLines P (fun _ => True) outcome

/-- A plan that meets errors of such lines, if those tasks do that it asks for. -/
def Plan.IsLined {α : Type} (P : SourceLine → Prop) (V : α → Prop) (p : Plan σ α) : Prop :=
  ∀ m, m.HoldsLines P → (p m).Keeps (lining P) (HoldsLines P V)

variable {P : SourceLine → Prop}

namespace Machine.HoldsLines

variable {m m' : Machine σ}

/-- One more event, and routines as before. -/
theorem record (h : m.HoldsLines P) {event : Event} (hroutines : m'.routines = m.routines)
    (hjournal : m'.journal = event :: m.journal)
    (hevent : ∀ error, event = .failed (.runtime error) → P error.line) : m'.HoldsLines P where
  routines := by rw [hroutines]; exact h.routines
  errors error hmem := by
    rw [hjournal] at hmem
    rcases List.mem_cons.mp hmem with heq | hmem
    · exact hevent error heq.symm
    · exact h.errors error hmem

theorem congr (h : m.HoldsLines P) (hroutines : m'.routines = m.routines)
    (hjournal : m'.journal = m.journal) : m'.HoldsLines P where
  routines := by rw [hroutines]; exact h.routines
  errors := by rw [hjournal]; exact h.errors

theorem failing (h : m.HoldsLines P) {error : RuntimeError} (herror : P error.line) :
    (m.failing error).HoldsLines P :=
  h.record rfl rfl fun _ heq => by cases heq; exact herror

theorem leave (h : m.HoldsLines P) (scope : ScopeId) : (Action.leave scope m).HoldsLines P := by
  simp only [Action.leave]
  split
  · exact h.congr rfl rfl
  · exact h.record rfl rfl fun _ heq => by cases heq

/-- The body of a call begins. -/
theorem entering (h : m.HoldsLines P) (routine : Routine) (locals : List (String × Value)) :
    (m.entering routine locals).HoldsLines P where
  routines := h.routines
  errors error hmem := by
    simp only [Machine.entering, Action.openingEvents, List.mem_append, List.mem_reverse,
      List.mem_map, List.mem_cons, List.not_mem_nil, or_false, reduceCtorEq, false_or, and_false,
      exists_false] at hmem
    exact h.errors error hmem

/-- A routine is defined. -/
theorem define (h : m.HoldsLines P) {name : String} {routine : Routine}
    (hroutine : ∀ line ∈ Node.sourceLinesOfList routine.body, P line) :
    HoldsLines P { m with routines := m.routines.insert name routine } where
  routines name' routine' hget := by
    rw [Std.ExtTreeMap.getElem?_insert] at hget
    split at hget
    · cases hget
      exact hroutine
    · exact h.routines name' routine' hget
  errors := h.errors

end Machine.HoldsLines

namespace Plan.IsLined

variable {α β : Type} {V : α → Prop} {W : β → Prop}

theorem pure {a : α} (h : V a) : IsLined P V (Pure.pure a : Plan σ α) := fun _ hm => ⟨h, hm⟩

theorem act {action : Action σ α}
    (h : ∀ m : Machine σ, m.HoldsLines P → HoldsLines P V (action m)) :
    IsLined P V (Plan.act action) := h

theorem ask {task : Task} (h : ∀ line ∈ task.sourceLines, P line) :
    IsLined (σ := σ) P (fun _ => True) (Plan.ask task) := fun _ hm =>
  keeps_ask ⟨h, hm⟩ fun _ houtcome => houtcome

theorem bind {p : Plan σ α} {f : α → Plan σ β} (hp : IsLined P V p)
    (hf : ∀ a, V a → IsLined P W (f a)) : IsLined P W (p >>= f) := fun m hm =>
  keeps_bind ((hp m hm).mono fun outcome houtcome => by
    cases outcome with
    | ok a m' => exact hf a houtcome.1 m' houtcome.2
    | error e m' => exact houtcome)

theorem ite {c : Prop} [Decidable c] {p q : Plan σ α} (hp : IsLined P V p) (hq : IsLined P V q) :
    IsLined P V (if c then p else q) := by
  split
  · exact hp
  · exact hq

theorem catchStop {p : Plan σ Flow} (hp : IsLined P (fun _ => True) p) :
    IsLined P (fun _ => True) (Plan.catchStop p) := fun m hm =>
  Course.Keeps.bind ((hp m hm).mono fun outcome houtcome => by
    cases outcome with
    | ok flow m' => exact houtcome
    | error e m' => cases e <;> exact houtcome)

/-! ### The actions -/

theorem fail {error : ExecutionError} (h : Interruption.HoldsLine P (.failed error)) :
    IsLined (σ := σ) P V (Plan.act (Action.fail error)) := fun m hm =>
  ⟨h, hm.record rfl rfl fun _ heq => by cases heq; exact h⟩

theorem load {key : String} :
    IsLined (σ := σ) P (fun _ => True) (Plan.act (Action.load key)) := fun _ hm => ⟨trivial, hm⟩

theorem ofExcept {line : SourceLine} {result : Except RuntimeFault α} (h : P line) :
    IsLined (σ := σ) P (fun _ => True) (Plan.act (Action.ofExcept line result)) :=
  act fun m hm => by
    rcases Action.ofExcept_cases line result m with ⟨a, -, hrun⟩ | ⟨kind, -, hrun⟩
    · rw [hrun]
      exact ⟨trivial, hm⟩
    · rw [hrun]
      exact ⟨h, hm.failing h⟩

theorem store {key : String} {line : SourceLine}
    {write : Memory → Option ScopeId → Except RuntimeFault Memory} (h : P line) :
    IsLined (σ := σ) P (fun _ => True) (Plan.act (Action.store key line write)) :=
  act fun m hm => by
    rcases Action.store_cases key line write m with ⟨memory, -, hrun⟩ | ⟨kind, -, hrun⟩
    · rw [hrun]
      exact ⟨trivial, hm.record rfl rfl fun _ heq => by cases heq⟩
    · rw [hrun]
      exact ⟨h, hm.failing h⟩

/-- What the console refuses is no error of the program. -/
theorem ofConsole {operation : σ → Except String α × σ} {event : Event}
    (hevent : ∀ error, event ≠ .failed (.runtime error)) :
    IsLined (σ := σ) P (fun _ => True)
      (Plan.act (do Action.note event; Action.ofConsole operation)) :=
  act fun m hm => by
    have hrun : (do Action.note event; Action.ofConsole operation : Action σ α) m
        = Action.ofConsole operation (m.record event) := rfl
    rw [hrun, Action.ofConsole_run]
    have hnoted : (m.record event).HoldsLines P :=
      hm.record rfl rfl fun error heq => absurd heq (hevent error)
    cases (operation (m.record event).console).1 with
    | ok a => exact ⟨trivial, hnoted.congr rfl rfl⟩
    | error reason => exact ⟨trivial, hnoted.record rfl rfl fun _ heq => by cases heq⟩

theorem checkReturn {value : Option Value} {line : SourceLine} (h : P line) :
    IsLined (σ := σ) P (fun _ => True) (Plan.act (Action.checkReturn value line)) :=
  act fun m hm => by
    rcases Action.checkReturn_cases value line m with hrun | ⟨kind, hrun⟩
    · rw [hrun]
      exact ⟨trivial, hm⟩
    · rw [hrun]
      exact ⟨h, hm.failing h⟩

theorem increment {name : String} {line : SourceLine} (h : P line) :
    IsLined (σ := σ) P (fun _ => True) (Plan.act (Action.increment name line)) :=
  act fun m hm => by
    rcases Action.increment_cases name line m with ⟨memory, -, hrun⟩ | hrun | ⟨kind, hrun⟩
    · rw [hrun]
      exact ⟨trivial, hm.record rfl rfl fun _ heq => by cases heq⟩
    · rw [hrun]
      exact ⟨trivial, hm.record rfl rfl fun _ heq => by cases heq⟩
    · rw [hrun]
      exact ⟨h, hm.failing h⟩

/-- The body of the routine that is looked up has the lines that it was defined with. -/
theorem lookUp {name : String} {arguments : Nat} {line : SourceLine} (h : P line) :
    IsLined (σ := σ) P (fun routine => ∀ line ∈ Node.sourceLinesOfList routine.body, P line)
      (Plan.act (Action.lookUp name arguments line)) :=
  act fun m hm => by
    rcases Action.lookUp_cases name arguments line m with
      ⟨routine, hroutine, -, -, hrun⟩ | ⟨kind, hrun⟩
    · rw [hrun]
      exact ⟨hm.routines name routine hroutine, hm⟩
    · rw [hrun]
      exact ⟨h, hm.failing h⟩

theorem remove {key : String} :
    IsLined (σ := σ) P (fun _ => True) (Plan.act (Action.remove key)) :=
  act fun m hm => by
    rw [Action.remove_run]
    exact ⟨trivial, hm.record rfl rfl fun _ heq => by cases heq⟩

theorem started {node : Node} :
    IsLined (σ := σ) P (fun _ => True) (Plan.act (Action.note (.started node))) :=
  act fun _ hm => ⟨trivial, hm.record rfl rfl fun _ heq => by cases heq⟩

end Plan.IsLined

/-! ### Every task keeps the contract -/

section Valid

open Plan

theorem Node.evaluation_isLined {node : Node} (h : ∀ line ∈ node.sourceLines, P line) :
    IsLined (σ := σ) P (fun _ => True) node.evaluation := by
  cases node with
  | number | text | boolean => exact .pure trivial
  | var name indices => exact .bind (.ask h) fun key _ => .load
  | operation operator left right line =>
    simp only [Node.sourceLines, List.forall_mem_cons, List.forall_mem_append] at h
    refine .bind (.ask h.2.1) fun left _ => .bind (.ask h.2.2) fun right _ => ?_
    exact .ofExcept h.1
  | call name arguments line => exact .ask h
  | _ => exact .fail trivial

variable [Console σ]

theorem Node.execution_isLined {node : Node} (h : ∀ line ∈ node.sourceLines, P line) :
    IsLined (σ := σ) P (fun _ => True) node.execution := by
  cases node with
  | endOfLine => exact .pure trivial
  | assignment name indices value isIterator line =>
    simp only [Node.sourceLines, List.forall_mem_cons, List.forall_mem_append] at h
    refine .bind (.ask h.2.2) fun value _ => .bind (.ask h.2.1) fun key _ => ?_
    exact .bind (.store h.1) fun _ _ => .pure trivial
  | command command argument line =>
    simp only [Node.sourceLines, List.forall_mem_cons] at h
    cases command with
    | print =>
      cases argument with
      | none => exact .pure trivial
      | some node =>
        refine .bind (.ask h.2) fun value _ => .bind (.ofConsole fun _ heq => by cases heq) ?_
        exact fun _ _ => .pure trivial
    | read =>
      have hfail : IsLined (σ := σ) (α := Flow) P (fun _ => True)
          (act (Action.fail (.runtime ⟨.readTargetNotVariable, line⟩))) := .fail h.1
      cases argument with
      | none => exact hfail
      | some node =>
        cases node with
        | var name indices =>
          refine .bind (.ofConsole fun _ heq => by cases heq) fun input _ => ?_
          refine .bind (.ask h.2) fun key _ => ?_
          exact .bind (.store h.1) fun _ _ => .pure trivial
        | _ => exact hfail
    | stop => exact .pure trivial
  | condition test thenBlock elseBlock line =>
    simp only [Node.sourceLines, List.forall_mem_cons, List.forall_mem_append] at h
    obtain ⟨-, ⟨htest, hthen⟩, helse⟩ := h
    refine .bind (.ask htest) fun value _ => .ite (.ask hthen) ?_
    cases elseBlock with
    | none => exact .pure trivial
    | some block => exact .ask helse
  | loop test body iterator line =>
    simp only [Node.sourceLines, List.forall_mem_cons, List.forall_mem_append] at h
    have hloop : ∀ line ∈ (Task.loop test body).sourceLines, P line :=
      List.forall_mem_append.mpr h.2
    cases iterator with
    | none => exact .ask hloop
    | some name =>
      exact .bind (.ask hloop) fun flow _ => .bind .remove fun _ _ => .pure trivial
  | routine name parameters body isProcedure line =>
    simp only [Node.sourceLines, List.forall_mem_cons] at h
    have hdefine : IsLined (σ := σ) P (fun _ => True) (act (modify fun m =>
        { m with routines := m.routines.insert name ⟨name, parameters, body, isProcedure⟩ })) :=
      .act fun m hm => ⟨trivial, hm.define h.2⟩
    exact .bind hdefine fun _ _ => .pure trivial
  | giveBack value line =>
    simp only [Node.sourceLines, List.forall_mem_cons] at h
    cases value with
    | none => exact .pure trivial
    | some node =>
      exact .bind (.ask h.2) fun value _ => .bind (.checkReturn h.1) fun _ _ => .pure trivial
  | increment name line => exact .increment (h line List.mem_cons_self)
  | _ => exact .bind (.ask h) fun _ _ => .pure trivial

/-- A call asks for a body with the lines that it was defined with. -/
theorem Task.call_isLined {name : String} {arguments : List Node} {line : SourceLine}
    (h : ∀ line' ∈ (Task.call name arguments line).sourceLines, P line') :
    IsLined (σ := σ) P (fun _ => True) (Task.call name arguments line).plan := by
  obtain ⟨hline, harguments⟩ := List.forall_mem_cons.mp h
  refine .bind (.lookUp hline) fun routine hroutine => ?_
  refine .bind (.ask harguments) fun values _ m hm => ?_
  refine keeps_entering_bind ⟨hroutine, hm.entering _ _⟩ fun outcome houtcome => ?_
  cases outcome with
  | ok flow m' =>
    have hm' : (Action.leave m.memory.nextScope m').HoldsLines P := houtcome.2.leave _
    rcases Action.ofFlow_cases flow (Action.leave m.memory.nextScope m') with ⟨value, hrun⟩ | hrun
    · simp only [hrun]
      exact ⟨trivial, hm'⟩
    · simp only [hrun]
      exact ⟨trivial, hm'⟩
  | error e m' => exact ⟨houtcome.1, houtcome.2.leave _⟩

/-- **Every task hands its lines on**, and meets no error of another line. -/
theorem lining_valid (P : SourceLine → Prop) : (lining P : Contract σ).Valid := by
  intro task m hbefore
  obtain ⟨h, hm⟩ := hbefore
  suffices hplan : IsLined (σ := σ) P (fun _ => True) task.plan from hplan m hm
  cases task with
  | evaluate node => exact node.evaluation_isLined h
  | evaluateAll nodes =>
    cases nodes with
    | nil => exact .pure trivial
    | cons node rest =>
      have h := List.forall_mem_append.mp h
      exact .bind (.ask h.1) fun _ _ => .bind (.ask h.2) fun _ _ => .pure trivial
  | keyOf name indices => exact .bind (.ask h) fun _ _ => .pure trivial
  | call name arguments line => exact Task.call_isLined h
  | execute node => exact .bind .started fun _ _ => .catchStop (.ask h)
  | perform node => exact node.execution_isLined h
  | block nodes =>
    cases nodes with
    | nil => exact .pure trivial
    | cons node rest =>
      have h := List.forall_mem_append.mp h
      exact .bind (.ask h.1) fun _ _ => .ite (.ask h.2) (.pure trivial)
  | loop test body =>
    obtain ⟨htest, hbody⟩ := List.forall_mem_append.mp h
    refine .bind (.ask htest) fun _ _ => .ite ?_ (.pure trivial)
    exact .bind (.ask hbody) fun _ _ => .ite (.ask h) (.pure trivial)

end Valid

/-! ### Runs -/

section Runs

variable [Console σ]

/-- The errors of a run on a fresh machine hold lines of the program. -/
theorem run_holdsLines {nodes : List Node} (h : ∀ line ∈ Node.sourceLinesOfList nodes, P line)
    (console : σ) (fuel : Nat) :
    (∀ error, (run fuel nodes { console }).1 = .failed (.runtime error) → P error.line)
      ∧ (run fuel nodes { console }).2.HoldsLines P := by
  have hfresh : Machine.HoldsLines P ({ console } : Machine σ) :=
    ⟨fun name routine hroutine => by simp at hroutine, nofun⟩
  have houtcome : HoldsLines P (fun _ => True) (executeBlock fuel nodes { console }) :=
    (lining_valid P).after_run (fun _ _ hb => ⟨trivial, hb.2⟩) (show (lining P).before
      (.block nodes) _ from ⟨h, hfresh⟩) fuel
  rw [Machine.run_eq_conclude rfl]
  generalize executeBlock fuel nodes { console } = outcome at houtcome
  have hmachine : outcome.machine.HoldsLines P := by
    cases outcome <;> exact houtcome.2
  have hverdict : ∀ error, Verdict.ofConclusion outcome = .failed (.runtime error) →
      P error.line := by
    intro error herror
    cases outcome with
    | ok flow m => cases flow <;> cases herror
    | error e m =>
      cases e with
      | failed error' =>
        cases herror
        exact houtcome.1
      | _ => cases herror
  split
  · exact ⟨hverdict, hmachine⟩
  · have hflushed : (outcome.machine.record .flushed).HoldsLines P :=
      hmachine.record rfl rfl fun _ heq => by cases heq
    unfold Machine.conclude
    split
    · exact ⟨hverdict, hflushed.congr rfl rfl⟩
    · refine ⟨fun _ herror => ?_, hflushed.record rfl rfl fun _ heq => by cases heq⟩
      cases herror

/-- **Errors and nodes point at the real text.**  The error of a text that cannot be read lies in
the text, and it holds the line at its position.  The nodes of a program hold lines of its text, and
so does every error that happens while the program runs on a fresh machine. -/
theorem errors_and_nodes_point_at_the_text (symbol : List Char) (text : String) :
    (∀ e, Program.parse symbol text = .error e →
        Source.HasPosition (Source.lines text) e.position
          ∧ Source.HasLine (Source.lines text) e.source
          ∧ e.source.number = e.position.line
          ∧ e.position.column ≤ e.source.text.length + 1)
      ∧ ∀ nodes, Program.parse symbol text = .ok nodes →
        (∀ line ∈ Node.sourceLinesOfList nodes, Source.HasLine (Source.lines text) line)
          ∧ ∀ (console : σ) (fuel : Nat) (error : RuntimeError),
            ((run fuel nodes { console }).1 = .failed (.runtime error)
                ∨ .failed (.runtime error) ∈ (run fuel nodes { console }).2.journal) →
              Source.HasLine (Source.lines text) error.line := by
  refine ⟨fun e he => ?_, fun nodes hnodes => ?_⟩
  · obtain ⟨hposition, hsource⟩ := Program.hasPosition_of_parse he
    obtain ⟨cs, hcs, hcolumn⟩ := hposition.inside
    have htext : e.source = ⟨e.position.line, String.ofList cs⟩ := by
      rw [hsource, Source.lineAt, hcs, Option.getD_some]
    rw [htext]
    exact ⟨hposition, ⟨hposition.line, by simpa using hcs⟩, rfl, by simpa using hcolumn⟩
  · have hlines := Program.hasLine_of_parse hnodes
    refine ⟨hlines, fun console fuel error herror => ?_⟩
    obtain ⟨hverdict, hmachine⟩ := run_holdsLines hlines console fuel
    rcases herror with herror | herror
    · exact hverdict error herror
    · exact hmachine.errors error herror

end Runs

/-- A text with an error in its last line, and a program with an error in its second line. -/
theorem errors_and_nodes_point_at_the_text_in_two_lines :
    let faulty := "x := 1\nx := "
    let failing := "x := 1\npisz x + y\n"
    (∃ e, Program.parse Token.defaultRange faulty = .error e
        ∧ Source.HasPosition (Source.lines faulty) e.position
        ∧ Source.HasLine (Source.lines faulty) e.source)
      ∧ ∃ nodes error, Program.parse Token.defaultRange failing = .ok nodes
        ∧ (run 10 nodes ({ console := {} } : Machine Transcript)).1 = .failed (.runtime error)
        ∧ error.line.number = 2 ∧ Source.HasLine (Source.lines failing) error.line := by
  intro faulty failing
  constructor
  · cases hparse : Program.parse Token.defaultRange faulty with
    | ok nodes =>
      have hcomputed : (Program.parse Token.defaultRange faulty).toOption.isSome = false := by
        decide +kernel
      rw [hparse] at hcomputed
      cases hcomputed
    | error e =>
      have hpoints := errors_and_nodes_point_at_the_text (σ := Transcript) Token.defaultRange faulty
      obtain ⟨hposition, hline, -⟩ := hpoints.1 e hparse
      exact ⟨e, rfl, hposition, hline⟩
  · let error : RuntimeError := ⟨.typeMismatch .add .number .nil, ⟨2, "pisz x + y"⟩⟩
    have hcomputed : (Program.parse Token.defaultRange failing).toOption.map
        (fun nodes => (run 10 nodes ({ console := {} } : Machine Transcript)).1)
          = some (.failed (.runtime error)) := by decide +kernel
    cases hparse : Program.parse Token.defaultRange failing with
    | error e =>
      rw [hparse] at hcomputed
      cases hcomputed
    | ok nodes =>
      rw [hparse] at hcomputed
      have hverdict := Option.some.inj hcomputed
      have hpoints :=
        errors_and_nodes_point_at_the_text (σ := Transcript) Token.defaultRange failing
      exact ⟨nodes, error, rfl, hverdict, rfl,
        (hpoints.2 nodes hparse).2 {} 10 error (.inl hverdict)⟩

end Tablica
