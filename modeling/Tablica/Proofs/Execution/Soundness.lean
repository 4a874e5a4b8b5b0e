import Tablica.Proofs.Execution.Actions
import Tablica.Proofs.Execution.Contract
import Tablica.Proofs.Syntax.Program

/-!
# Programs that were read do not go wrong

Three faults of a run would be no fault of the program: a value that is given back where no call is
under way, a node that is evaluated but is no expression, and a refusal of the console.  The first
two do not happen to programs that were read, because every task that is visited fits the grammar,
and so do the bodies of all functions that were defined.  For the same reason the signal that an
iterator is exhausted never gets out of its loop.

* `Task.Fits` — the tasks of programs that were read;
* `Task.Allows` — the flows that such a task can end with;
* `Console.Refuses` — the reasons for which a console refuses;
* `soundness`, `soundness_valid` — the contract, and that every task keeps it;
* `parsed_programs_are_sound` — what follows for runs.
-/

namespace Tablica

variable {σ : Type}

/-- The tasks that a block asks for, when it may be part of a function or procedure. -/
def Task.Fits (inRoutine : Bool) : Task → Prop
  | evaluate node => ∃ line, IsExpression line node
  | evaluateAll nodes | keyOf _ nodes | call _ nodes _ =>
    ∃ line, ∀ node ∈ nodes, IsExpression line node
  | execute node | perform node =>
    IsStatement inRoutine node ∨ ∃ name line, node = .increment name line
  | block nodes => IsPart inRoutine nodes
  | loop test body => (∃ line, IsExpression line test) ∧ IsBody inRoutine body

/-- The tasks that can find an iterator exhausted and do not end its loop. -/
def Task.Counts : Task → Prop
  | execute node | perform node => ∃ name line, node = .increment name line
  | block nodes => ∃ name line, .increment name line ∈ nodes
  | _ => False

/-- A flow that gives back a value, or exhausts a range, only where this is possible. -/
def Flow.IsAllowed (givesBack counts : Prop) : Flow → Prop
  | returned _ => givesBack
  | rangeExhausted => counts
  | completed | exit => True

/-- What a task can answer. -/
def Task.Allows : (task : Task) → task.Answer → Prop
  | evaluate _, _ | evaluateAll _, _ | keyOf _ _, _ | call _ _ _, _ => True
  | execute node, flow =>
    Flow.IsAllowed (¬ (execute node).Fits false) (execute node).Counts flow
  | perform node, flow =>
    Flow.IsAllowed (¬ (perform node).Fits false) (perform node).Counts flow
  | block nodes, flow => Flow.IsAllowed (¬ (block nodes).Fits false) (block nodes).Counts flow
  | loop test body, flow => Flow.IsAllowed (¬ (loop test body).Fits false) False flow

theorem Flow.IsAllowed.mono {givesBack givesBack' counts counts' : Prop} {flow : Flow}
    (h : flow.IsAllowed givesBack counts) (hgivesBack : givesBack → givesBack')
    (hcounts : counts → counts') : flow.IsAllowed givesBack' counts' := by
  cases flow with
  | returned => exact hgivesBack h
  | rangeExhausted => exact hcounts h
  | completed => trivial
  | exit => trivial

/-- Every function and procedure that is defined has a block as its body. -/
def Machine.HoldsBlocks (m : Machine σ) : Prop :=
  ∀ (name : String) (routine : Routine), m.routines[name]? = some routine →
    IsBlock true routine.body

/-- A console whose operations keep an invariant and are refused for certain reasons only. -/
structure Console.Refuses (σ : Type) [Console σ] (inv : σ → Prop) (reasons : String → Prop) :
    Prop where
  readLine : ∀ prompt c, inv c → inv (Console.readLine prompt c).2
    ∧ ∀ reason, (Console.readLine prompt c).1 = .error reason → reasons reason
  write : ∀ text c, inv c → inv (Console.write text c).2
    ∧ ∀ reason, (Console.write text c).1 = .error reason → reasons reason
  flush : ∀ c : σ, inv c → inv (Console.flush c).2
    ∧ ∀ reason, (Console.flush c).1 = .error reason → reasons reason

/-- Nothing is known of an arbitrary console. -/
theorem Console.refuses_any [Console σ] : Console.Refuses σ (fun _ => True) (fun _ => True) :=
  ⟨by simp, by simp, by simp⟩

/-- A reliable console refuses nothing. -/
theorem Console.Reliable.refuses [Console σ] {inv : σ → Prop} (h : Console.Reliable σ inv) :
    Console.Refuses σ inv (fun _ => False) where
  readLine prompt c hc := by
    obtain ⟨⟨line, hline⟩, hinv⟩ := h.readLine prompt c hc
    exact ⟨hinv, by simp [hline]⟩
  write text c hc := by
    obtain ⟨hwrite, hinv⟩ := h.write text c hc
    exact ⟨hinv, by simp [hwrite]⟩
  flush c hc := by
    obtain ⟨hflush, hinv⟩ := h.flush c hc
    exact ⟨hinv, by simp [hflush]⟩

/-- An interruption that is no internal fault, but for a refusal of the console. -/
def Interruption.IsSound (reasons : String → Prop) : Interruption → Prop
  | failed (.internal fault) => ∃ reason, fault = .console reason ∧ reasons reason
  | _ => True

section Soundness

variable (inv : σ → Prop) (reasons : String → Prop)

/-- A machine as it is between the tasks of programs that were read. -/
structure Machine.IsSound (m : Machine σ) : Prop where
  blocks : m.HoldsBlocks
  console : inv m.console

/-- An outcome on such a machine whose result is allowed. -/
def EStateM.Result.IsSound {α : Type} (allows : α → Prop) : Conclusion σ α → Prop
  | .ok a m => allows a ∧ m.IsSound inv
  | .error e m => e.IsSound reasons ∧ m.IsSound inv

/-- The tasks of programs that were read do not go wrong. -/
def soundness : Contract σ where
  before task m := (∃ inRoutine, task.Fits inRoutine) ∧ m.IsSound inv
  after task _ outcome := EStateM.Result.IsSound inv reasons task.Allows outcome

/-- A plan that does not go wrong, and the results that it can have. -/
def Plan.IsSound {α : Type} (allows : α → Prop) (p : Plan σ α) : Prop :=
  ∀ m, m.IsSound inv → (p m).Keeps (soundness inv reasons)
    (EStateM.Result.IsSound inv reasons allows)

end Soundness

variable {inv : σ → Prop} {reasons : String → Prop} {α β : Type}

theorem Machine.IsSound.congr {m m' : Machine σ} (h : m.IsSound inv)
    (hroutines : m'.routines = m.routines) (hconsole : m'.console = m.console) :
    m'.IsSound inv where
  blocks := by rw [HoldsBlocks, hroutines]; exact h.blocks
  console := by rw [hconsole]; exact h.console

theorem Machine.isSound_fresh {console : σ} (h : inv console) :
    IsSound inv { console } where
  blocks name routine hroutine := by simp at hroutine
  console := h

theorem EStateM.Result.IsSound.machine {allows : α → Prop} {outcome : Conclusion σ α}
    (h : EStateM.Result.IsSound inv reasons allows outcome) : outcome.machine.IsSound inv := by
  cases outcome with
  | ok a m => exact h.2
  | error e m => exact h.2

namespace Plan.IsSound

variable {allows allows' : α → Prop}

theorem pure {a : α} (h : allows a) :
    IsSound inv reasons allows (Pure.pure a : Plan σ α) := fun _ hm => ⟨h, hm⟩

theorem act {action : Action σ α}
    (h : ∀ m : Machine σ, m.IsSound inv →
      EStateM.Result.IsSound inv reasons allows (action m)) :
    IsSound inv reasons allows (Plan.act action) := h

theorem ask {task : Task} {allows : task.Answer → Prop} (hfits : ∃ inRoutine, task.Fits inRoutine)
    (hallows : ∀ a, task.Allows a → allows a) :
    IsSound inv reasons allows (Plan.ask (σ := σ) task) := fun m hm =>
  keeps_ask ⟨hfits, hm⟩ fun outcome houtcome => by
    cases outcome with
    | ok a m' => exact ⟨hallows a houtcome.1, houtcome.2⟩
    | error e m' => exact houtcome

theorem bind {allows : β → Prop} {p : Plan σ α} {f : α → Plan σ β}
    (hp : IsSound inv reasons allows' p)
    (hf : ∀ a, allows' a → IsSound inv reasons allows (f a)) :
    IsSound inv reasons allows (p >>= f) := fun m hm =>
  keeps_bind ((hp m hm).mono fun outcome houtcome => by
    cases outcome with
    | ok a m' => exact hf a houtcome.1 m' houtcome.2
    | error e m' => exact houtcome)

theorem ite {c : Prop} [Decidable c] {p q : Plan σ α} (hp : c → IsSound inv reasons allows p)
    (hq : ¬ c → IsSound inv reasons allows q) :
    IsSound inv reasons allows (if c then p else q) := by
  split
  · rename_i h
    exact hp h
  · rename_i h
    exact hq h

/-- A read or a write: what the console refuses is its own fault. -/
theorem ofConsole {operation : σ → Except String α × σ} {event : Event}
    (h : ∀ c, inv c → inv (operation c).2
      ∧ ∀ reason, (operation c).1 = .error reason → reasons reason) :
    IsSound inv reasons (fun _ => True)
      (Plan.act (do Action.note event; Action.ofConsole operation)) := act fun m hm => by
  obtain ⟨hinv, hreasons⟩ := h m.console hm.console
  have hm' : Machine.IsSound inv { m.record event with console := (operation m.console).2 } :=
    ⟨hm.blocks, hinv⟩
  have hrun : (do Action.note event; Action.ofConsole operation : Action σ α) m
      = Action.ofConsole operation (m.record event) := rfl
  rw [hrun, Action.ofConsole_run]
  cases hanswer : (operation m.console).1 with
  | ok a =>
    simp only [Machine.record, hanswer]
    exact ⟨trivial, hm'⟩
  | error reason =>
    simp only [Machine.record, hanswer]
    exact ⟨⟨reason, rfl, hreasons reason hanswer⟩, hm'.congr rfl rfl⟩

theorem fail {error : RuntimeError} :
    IsSound inv reasons allows (Plan.act (Action.fail (.runtime error)) : Plan σ α) :=
  act fun _ hm => ⟨trivial, hm.congr rfl rfl⟩

theorem load {key : String} :
    IsSound inv reasons (fun _ => True) (Plan.act (Action.load (σ := σ) key)) :=
  act fun _ hm => ⟨trivial, hm⟩

theorem ofExcept {line : SourceLine} {result : Except RuntimeFault α} :
    IsSound inv reasons (fun _ => True) (Plan.act (Action.ofExcept (σ := σ) line result)) :=
  act fun m hm => by
    rcases Action.ofExcept_cases line result m with ⟨a, -, h⟩ | ⟨kind, -, h⟩ <;> rw [h]
    · exact ⟨trivial, hm⟩
    · exact ⟨trivial, hm.congr rfl rfl⟩

theorem store {key : String} {line : SourceLine}
    {write : Memory → Option ScopeId → Except RuntimeFault Memory} :
    IsSound inv reasons (fun _ => True) (Plan.act (Action.store (σ := σ) key line write)) :=
  act fun m hm => by
    rcases Action.store_cases key line write m with ⟨memory, -, h⟩ | ⟨kind, -, h⟩ <;> rw [h]
    · exact ⟨trivial, hm.congr rfl rfl⟩
    · exact ⟨trivial, hm.congr rfl rfl⟩

theorem remove {key : String} :
    IsSound inv reasons (fun _ => True) (Plan.act (Action.remove (σ := σ) key)) :=
  act fun _ hm => ⟨trivial, hm.congr rfl rfl⟩

theorem checkReturn {value : Option Value} {line : SourceLine} :
    IsSound inv reasons (fun _ => True)
      (Plan.act (Action.checkReturn (σ := σ) value line)) :=
  act fun m hm => by
    rcases Action.checkReturn_cases value line m with h | ⟨kind, h⟩ <;> rw [h]
    · exact ⟨trivial, hm⟩
    · exact ⟨trivial, hm.congr rfl rfl⟩

theorem catchStop {allows : Flow → Prop} {p : Plan σ Flow} (hp : IsSound inv reasons allows p)
    (hexit : allows .exit) : IsSound inv reasons allows (Plan.catchStop p) := fun m hm =>
  Course.Keeps.bind ((hp m hm).mono fun outcome houtcome => by
    cases outcome with
    | ok flow m' => exact houtcome
    | error e m' =>
      cases e with
      | stop => exact ⟨hexit, houtcome.2⟩
      | failed => exact houtcome
      | outOfFuel => exact houtcome)

theorem inFrame {frame : Frame} {p : Plan σ α} (hp : IsSound inv reasons allows p) :
    IsSound inv reasons allows (Plan.inFrame frame p) := fun m hm => by
  have hleave : ∀ m' : Machine σ, m'.IsSound inv → (Action.leave frame.scope m').IsSound inv :=
    fun m' hm' => hm'.congr (Action.leave_routines _ _) (Action.leave_console _ _)
  have hm' : Machine.IsSound inv { m with frames := frame :: m.frames } := hm.congr rfl rfl
  refine Course.Keeps.bind ((hp _ hm').mono fun outcome houtcome => ?_)
  cases outcome with
  | ok a m' => exact ⟨houtcome.1, hleave m' houtcome.2⟩
  | error e m' => exact ⟨houtcome.1, hleave m' houtcome.2⟩

/-- The routine that is looked up has a block as its body. -/
theorem lookUp {name : String} {arguments : Nat} {line : SourceLine} :
    IsSound inv reasons (fun routine => IsBlock true routine.body)
      (Plan.act (Action.lookUp (σ := σ) name arguments line)) :=
  act fun m hm => by
    rcases Action.lookUp_cases name arguments line m with ⟨routine, hroutine, -, -, h⟩ | ⟨kind, h⟩
    all_goals rw [h]
    · exact ⟨hm.blocks name routine hroutine, hm⟩
    · exact ⟨trivial, hm.congr rfl rfl⟩

theorem openScope {name : String} {locals : List (String × Value)} :
    IsSound inv reasons (fun _ => True)
      (Plan.act (Action.openScope (σ := σ) name locals)) :=
  act fun m hm => by
    rw [Action.openScope_run]
    exact ⟨trivial, hm.congr rfl rfl⟩

theorem ofFlow {flow : Flow} :
    IsSound inv reasons (fun _ => True) (Plan.act (Action.ofFlow (σ := σ) flow)) :=
  act fun m hm => by
    rcases Action.ofFlow_cases flow m with ⟨value, h⟩ | h <;> rw [h]
    · exact ⟨trivial, hm⟩
    · exact ⟨trivial, hm⟩

end Plan.IsSound

/-! ### Every task is sound -/

section Valid

open Plan

/-- An expression on a line does not go wrong. -/
theorem IsExpression.evaluation_isSound {line : SourceLine} {node : Node}
    (h : IsExpression line node) :
    Plan.IsSound (σ := σ) inv reasons (fun _ => True) node.evaluation := by
  cases h with
  | number | text | boolean => exact .pure trivial
  | var h => exact .bind (.ask ⟨false, line, h⟩ fun _ _ => trivial) fun _ _ => .load
  | operation hleft hright =>
    refine .bind (.ask ⟨false, line, hleft⟩ fun _ _ => trivial) fun left _ => ?_
    exact .bind (.ask ⟨false, line, hright⟩ fun _ _ => trivial) fun right _ => .ofExcept
  | call h => exact .ask ⟨false, line, h⟩ fun _ _ => trivial

/-- A block of the grammar can be asked for wherever it stands. -/
theorem Plan.IsSound.askBlock {block : List Node} {inRoutine : Bool} {allows : Flow → Prop}
    (hblock : IsBlock inRoutine block)
    (hallows : ∀ flow : Flow, flow.IsAllowed (¬ IsPart false block) False → allows flow) :
    Plan.IsSound (σ := σ) inv reasons allows (Plan.ask (.block block)) :=
  .ask ⟨inRoutine, hblock.isPart⟩ fun flow hflow => hallows flow (hflow.mono id
    fun ⟨_, _, hmem⟩ => not_isStatement_increment (hblock.isStatement _ hmem))

theorem Node.execution_isSound_of_simple [Console σ] (hconsole : Console.Refuses σ inv reasons)
    {inRoutine : Bool} {line : SourceLine} {node : Node} (h : IsSimple inRoutine line node) :
    Plan.IsSound (σ := σ) inv reasons (Task.perform node).Allows node.execution := by
  cases h with
  | expression h =>
    have hnode : node.execution = (do
        let _ ← Plan.ask (σ := σ) (.evaluate node)
        return .completed) := by
      cases h <;> rfl
    rw [hnode]
    exact .bind (.ask ⟨false, line, h⟩ fun _ _ => trivial) fun _ _ => .pure trivial
  | assignment hindices hvalue =>
    refine .bind (.ask ⟨false, line, hvalue⟩ fun _ _ => trivial) fun value _ => ?_
    refine .bind (.ask ⟨false, line, hindices⟩ fun _ _ => trivial) fun key _ => ?_
    exact .bind .store fun _ _ => .pure trivial
  | print h =>
    refine .bind (.ask ⟨false, line, h⟩ fun _ _ => trivial) fun value _ => ?_
    exact .bind (.ofConsole (hconsole.write _)) fun _ _ => .pure trivial
  | read h =>
    cases h with
    | var h =>
      refine .bind (.ofConsole (hconsole.readLine _)) fun input _ => ?_
      refine .bind (.ask ⟨false, line, h⟩ fun _ _ => trivial) fun key _ => ?_
      exact .bind .store fun _ _ => .pure trivial
    | _ => exact .fail
  | stop => exact .pure trivial
  | @giveBack value hroutine h =>
    have hgives : ¬ (Task.perform (.giveBack value line)).Fits false := by
      intro hallowed
      rcases hallowed with h | ⟨_, _, ⟨⟩⟩
      exact not_isStatement_giveBack h
    cases value with
    | none => exact .pure hgives
    | some node =>
      refine .bind (.ask ⟨false, line, h node rfl⟩ fun _ _ => trivial) fun value _ => ?_
      exact .bind .checkReturn fun _ _ => .pure hgives

/-- A loop ends with a flow of its body, but exhausting the range completes it. -/
theorem Plan.IsSound.askLoop {inRoutine : Bool} {test : Node} {body : List Node}
    {iterator : Option String} {line line' : SourceLine} (htest : IsExpression line' test)
    (hbody : IsBody inRoutine body) :
    Plan.IsSound (σ := σ) inv reasons (Task.perform (.loop test body iterator line)).Allows
      (Plan.ask (.loop test body)) :=
  .ask ⟨inRoutine, ⟨line', htest⟩, hbody⟩ fun _ hflow => hflow.mono
    (fun hgives hfits => hgives ⟨⟨line', htest⟩, by
      rcases hfits with h | ⟨_, _, ⟨⟩⟩
      exact h.isBody_of_loop⟩)
    False.elim

theorem Node.execution_isSound_of_statement [Console σ]
    (hconsole : Console.Refuses σ inv reasons) {inRoutine : Bool} {node : Node}
    (h : IsStatement inRoutine node) :
    Plan.IsSound (σ := σ) inv reasons (Task.perform node).Allows node.execution := by
  cases h with
  | mark => exact .pure trivial
  | simple h => exact node.execution_isSound_of_simple hconsole h
  | @condition line test thenBlock elseBlock htest hthen helse =>
    have hfits : (Task.perform (.condition test thenBlock elseBlock line)).Fits false →
        IsPart false thenBlock ∧ ∀ block ∈ elseBlock, IsPart false block := by
      intro hallowed
      rcases hallowed with h | ⟨_, _, ⟨⟩⟩
      exact ⟨h.blocks_of_condition.1.isPart, fun block hblock =>
        (h.blocks_of_condition.2 block hblock).isPart⟩
    refine .bind (.ask ⟨false, line, htest⟩ fun _ _ => trivial) fun value _ => ?_
    refine .ite (fun _ => .askBlock hthen fun flow hflow => ?_) fun _ => ?_
    · exact hflow.mono (fun hgives h => hgives (hfits h).1) False.elim
    · cases elseBlock with
      | none => exact .pure trivial
      | some block =>
        refine .askBlock (helse block rfl) fun flow hflow => ?_
        exact hflow.mono (fun hgives h => hgives ((hfits h).2 block rfl)) False.elim
  | whileLoop htest hbody => exact .askLoop htest hbody.isBody
  | initializer hfirst =>
    refine .bind (.ask ⟨false, _, hfirst⟩ fun _ _ => trivial) fun value _ => ?_
    refine .bind (.ask ⟨false, default, by simp⟩ fun _ _ => trivial) fun key _ => ?_
    exact .bind .store fun _ _ => .pure trivial
  | @range loop hlast hbody =>
    have hrounds : Plan.IsSound (σ := σ) inv reasons (Task.perform loop.node).Allows
        (Plan.ask (.loop loop.test (loop.body ++ [loop.counter]))) :=
      .askLoop (loop.test_isExpression hlast) (hbody.isBody_counter _ _)
    exact .bind hrounds fun flow hflow => .bind .remove fun _ _ => .pure hflow
  | @routine line name parameters isProcedure body hbody =>
    have hdefine : Plan.IsSound (σ := σ) inv reasons (fun _ => True) (Plan.act (modify fun m =>
        { m with routines := m.routines.insert name ⟨name, parameters, body, isProcedure⟩ })) := by
      refine .act fun m hm => ⟨trivial, fun name' routine hroutine => ?_, hm.console⟩
      rw [Std.ExtTreeMap.getElem?_insert] at hroutine
      split at hroutine
      · cases hroutine
        exact hbody
      · exact hm.blocks name' routine hroutine
    exact .bind hdefine fun _ _ => .pure trivial

theorem Node.execution_isSound_of_counter (name : String) (line : SourceLine) :
    Plan.IsSound (σ := σ) inv reasons (Task.perform (.increment name line)).Allows
      (Plan.act (Action.increment name line)) :=
  .act fun m hm => by
    rcases Action.increment_cases name line m with ⟨memory, -, h⟩ | h | ⟨_, h⟩ <;> rw [h]
    · exact ⟨trivial, hm.congr rfl rfl⟩
    · exact ⟨⟨name, line, rfl⟩, hm.congr rfl rfl⟩
    · exact ⟨trivial, hm.congr rfl rfl⟩

/-- Between the body of a call and its value no range is exhausted. -/
theorem Task.call_isSound [Console σ] (name : String) {arguments : List Node} (line : SourceLine)
    {line' : SourceLine} (h : ∀ node ∈ arguments, IsExpression line' node) :
    Plan.IsSound (σ := σ) inv reasons (fun _ => True) (Task.call name arguments line).plan := by
  refine .bind .lookUp fun routine hroutine => ?_
  refine .bind (.ask ⟨false, line', h⟩ fun _ _ => trivial) fun values _ => ?_
  refine .bind .openScope fun scope _ => ?_
  have hbody : Plan.IsSound (σ := σ) inv reasons (fun _ => True)
      (Plan.ask (.block routine.body)) := .askBlock hroutine fun _ _ => trivial
  exact .bind hbody.inFrame fun flow _ => .ofFlow

/-- **Every task of a program that was read is sound.** -/
theorem soundness_valid [Console σ] (hconsole : Console.Refuses σ inv reasons) :
    (soundness inv reasons).Valid := by
  intro task m hbefore
  obtain ⟨⟨inRoutine, hfits⟩, hm⟩ := hbefore
  suffices h : Plan.IsSound inv reasons task.Allows task.plan from h m hm
  cases task with
  | evaluate node =>
    obtain ⟨line, hnode⟩ := hfits
    exact hnode.evaluation_isSound
  | evaluateAll nodes =>
    obtain ⟨line, hnodes⟩ := hfits
    cases nodes with
    | nil => exact .pure trivial
    | cons node rest =>
      obtain ⟨hnode, hrest⟩ := List.forall_mem_cons.mp hnodes
      refine .bind (.ask ⟨false, line, hnode⟩ fun _ _ => trivial) fun value _ => ?_
      exact .bind (.ask ⟨false, line, hrest⟩ fun _ _ => trivial) fun values _ => .pure trivial
  | keyOf name indices =>
    exact .bind (.ask ⟨false, hfits⟩ fun _ _ => trivial) fun _ _ => .pure trivial
  | call name arguments line =>
    obtain ⟨line', harguments⟩ := hfits
    exact Task.call_isSound name line harguments
  | execute node =>
    refine .bind (.act fun m hm => ⟨trivial, hm.congr rfl rfl⟩) fun _ (_ : True) => ?_
    exact .catchStop (.ask ⟨inRoutine, hfits⟩ fun _ hflow => hflow) trivial
  | perform node =>
    rcases hfits with h | ⟨name, line, rfl⟩
    · exact node.execution_isSound_of_statement hconsole h
    · exact Node.execution_isSound_of_counter name line
  | block nodes =>
    cases nodes with
    | nil => exact .pure trivial
    | cons node rest =>
      have hhead : (Task.block (node :: rest)).Fits false → (Task.execute node).Fits false :=
        fun h => h.head.imp_right fun ⟨name, line, heq, _⟩ => ⟨name, line, heq⟩
      have hnode : (Task.execute node).Fits inRoutine :=
        hfits.head.imp_right fun ⟨name, line, heq, _⟩ => ⟨name, line, heq⟩
      refine .bind (.ask ⟨inRoutine, hnode⟩ fun _ hflow => hflow) fun flow hflow => ?_
      refine .ite (fun _ => .ask ⟨inRoutine, hfits.tail⟩ fun flow hflow => ?_) fun _ => .pure ?_
      · exact hflow.mono (fun hgives h => hgives h.tail)
          fun ⟨name, line, hmem⟩ => ⟨name, line, List.mem_cons_of_mem _ hmem⟩
      · exact hflow.mono (fun hgives h => hgives (hhead h))
          fun ⟨name, line, heq⟩ => ⟨name, line, heq ▸ List.mem_cons_self⟩
  | loop test body =>
    obtain ⟨⟨line, htest⟩, hbody⟩ := hfits
    refine .bind (.ask ⟨false, line, htest⟩ fun _ _ => trivial) fun value _ => ?_
    refine .ite (fun _ => ?_) fun _ => .pure trivial
    refine .bind (.ask ⟨inRoutine, hbody.isPart⟩ fun _ hflow => hflow) fun flow hflow => ?_
    refine .ite (fun _ => .ask ⟨inRoutine, ⟨line, htest⟩, hbody⟩ fun _ hflow => hflow)
      fun _ => .pure ?_
    cases flow with
    | returned => exact fun h => hflow h.2.isPart
    | _ => trivial

end Valid

/-- The block that a call asks for is the body of the routine of that name. -/
theorem Task.routine_of_call_asks [Console σ] {name : String} {arguments body : List Node}
    {line : SourceLine} {m m' : Machine σ}
    (h : (Task.call name arguments line).Asks m (.block body) m') :
    ∃ routine, m.routines[name]? = some routine ∧ routine.body = body := by
  obtain ⟨routine, m₁, hroutine, h⟩ := Plan.asks_act_bind h
  refine ⟨routine, ?_, ?_⟩
  · rcases Action.lookUp_cases name arguments.length line m with
      ⟨routine', hroutine', -, -, hrun⟩ | ⟨kind, hrun⟩
    · rw [hrun] at hroutine
      cases hroutine
      exact hroutine'
    · rw [hrun] at hroutine
      cases hroutine
  · rcases Plan.asks_bind h with h | ⟨values, m₂, -, h⟩
    · cases h with
      | later _ h => cases h
    · obtain ⟨scope, m₃, -, h⟩ := Plan.asks_act_bind h
      rcases Plan.asks_bind h with h | ⟨flow, m₄, -, h⟩
      · rcases Course.asks_bind h with h | ⟨outcome, -, h⟩
        · cases h with
          | now => rfl
          | later _ h => cases h
        · cases outcome <;> cases h
      · cases h

/-! ### Runs -/

section Runs

variable [Console σ]

theorem EStateM.Result.isSound_flush (hconsole : Console.Refuses σ inv reasons) {m : Machine σ}
    (hm : m.IsSound inv) :
    EStateM.Result.IsSound inv reasons (fun _ => True) (Action.flush m : Conclusion σ Unit) :=
  Plan.IsSound.ofConsole hconsole.flush m hm

/-- Between two runs of programs that were read the machine is sound. -/
theorem AtRest.isSound (hconsole : Console.Refuses σ inv reasons) {console : σ} {m : Machine σ}
    (h : AtRest IsParsed console m) (hinv : inv console) : m.IsSound inv := by
  refine h.invariant (Machine.isSound_fresh hinv) (fun m program outcome hprogram hyields hm => ?_)
    fun m hm => (EStateM.Result.isSound_flush hconsole hm).machine
  have hbefore : (soundness inv reasons).before (.block program) m :=
    ⟨⟨false, hprogram.isBlock.isPart⟩, hm⟩
  exact EStateM.Result.IsSound.machine ((soundness_valid hconsole).after hyields hbefore)

/-- The machines that occur in runs of programs that were read are sound. -/
theorem Reachable.isSound (hconsole : Console.Refuses σ inv reasons) {console : σ} {m : Machine σ}
    (h : Reachable IsParsed console m) (hinv : inv console) : m.IsSound inv := by
  have hvalid := soundness_valid hconsole
  cases h with
  | atRest hm => exact hm.isSound hconsole hinv
  | before hm hprogram hvisits =>
    exact (hvalid.before hvisits
      ⟨⟨false, hprogram.isBlock.isPart⟩, hm.isSound hconsole hinv⟩).2
  | after hm hprogram hvisits hyields =>
    exact EStateM.Result.IsSound.machine (hvalid.after hyields (hvalid.before hvisits
      ⟨⟨false, hprogram.isBlock.isPart⟩, hm.isSound hconsole hinv⟩))

/-- A verdict that is no internal failure, but for a refusal of the console. -/
def Verdict.IsSound (reasons : String → Prop) : Verdict → Prop
  | failed (.internal fault) => ∃ reason, fault = .console reason ∧ reasons reason
  | _ => True

theorem Verdict.isSound_ofInterruption {e : Interruption} (h : e.IsSound reasons) :
    (Verdict.ofInterruption e).IsSound reasons := by
  cases e with
  | failed error =>
    cases error with
    | runtime => trivial
    | internal => exact h
  | stop => trivial
  | outOfFuel => trivial

/-- A program that was read never ends with a flow other than these two. -/
theorem flow_of_isBlock {program : List Node} (h : IsBlock false program) {flow : Flow}
    (hflow : (Task.block program).Allows flow) : flow = .completed ∨ flow = .exit := by
  cases flow with
  | completed => exact .inl rfl
  | exit => exact .inr rfl
  | returned => exact absurd h.isPart hflow
  | rangeExhausted =>
    obtain ⟨_, _, hmem⟩ := hflow
    exact absurd (h.isStatement _ hmem) not_isStatement_increment

/-- The last flush does not spoil a verdict. -/
theorem Verdict.isSound_flushed (hconsole : Console.Refuses σ inv reasons) {verdict : Verdict}
    (hverdict : verdict.IsSound reasons) {m : Machine σ} (hm : m.IsSound inv) :
    IsSound reasons (if verdict = .unfinished then (verdict, m)
      else match (Action.flush : Action σ Unit) m with
        | .ok _ m => (verdict, m)
        | .error interruption m => (Verdict.ofInterruption interruption, m)).1 := by
  split
  · exact hverdict
  · have hflush := EStateM.Result.isSound_flush hconsole hm
    cases houtcome : (Action.flush : Action σ Unit) m with
    | ok _ m' => exact hverdict
    | error e m' =>
      rw [houtcome] at hflush
      exact isSound_ofInterruption hflush.1

theorem run_isSound (hconsole : Console.Refuses σ inv reasons) {m : Machine σ}
    (hm : m.IsSound inv) {program : List Node} (hprogram : IsBlock false program) (fuel : Nat) :
    (run fuel program m).1.IsSound reasons := by
  have hbefore : (soundness inv reasons).before (.block program) m :=
    ⟨⟨false, hprogram.isPart⟩, hm⟩
  have hafter : ∀ outcome, (Task.block program).run fuel m = outcome → ¬ outcome.IsUnfinished →
      EStateM.Result.IsSound inv reasons (Task.block program).Allows outcome := by
    intro outcome hrun hfinished
    subst hrun
    exact (soundness_valid hconsole).after (Task.yields_of_run hfinished) hbefore
  unfold run
  cases houtcome : executeBlock fuel program m with
  | ok flow m' =>
    obtain ⟨hflow, hm'⟩ := hafter _ houtcome id
    refine Verdict.isSound_flushed hconsole ?_ hm'
    rcases flow_of_isBlock hprogram hflow with rfl | rfl <;> trivial
  | error e m' =>
    cases e with
    | outOfFuel => trivial
    | stop =>
      obtain ⟨he, hm'⟩ := hafter _ houtcome id
      exact Verdict.isSound_flushed hconsole (Verdict.isSound_ofInterruption he) hm'
    | failed error =>
      obtain ⟨he, hm'⟩ := hafter _ houtcome id
      exact Verdict.isSound_flushed hconsole (Verdict.isSound_ofInterruption he) hm'

/-- **Programs that were read do not go wrong**, one after another on one machine.  The only
internal fault that a run can end with is a refusal of the console; on a reliable console every run
that ends is finished, exited or ends with an error of the program.  The signal that a range is
exhausted neither ends a program nor the body of a call. -/
theorem parsed_programs_are_sound {console : σ} {m : Machine σ} (hm : AtRest IsParsed console m)
    {program : List Node} (hprogram : IsParsed program) (fuel : Nat) :
    (∀ fault, (run fuel program m).1 = .failed (.internal fault) →
        ∃ reason, fault = .console reason)
      ∧ (∀ inv, Console.Reliable σ inv → inv console →
        (run fuel program m).1 = .unfinished ∨ (run fuel program m).1 = .finished
          ∨ (run fuel program m).1 = .exited
          ∨ ∃ error, (run fuel program m).1 = .failed (.runtime error))
      ∧ (∀ m', executeBlock fuel program m ≠ .ok .rangeExhausted m')
      ∧ ∀ name arguments line m₁ body m₂ m₃,
        (Task.block program).Visits m (.call name arguments line) m₁ →
        (Task.call name arguments line).Asks m₁ (.block body) m₂ →
        ¬ (Task.block body).Yields m₂ (.ok .rangeExhausted m₃) := by
  have hsound := hm.isSound Console.refuses_any trivial
  have hvalid := soundness_valid (Console.refuses_any (σ := σ))
  have hbefore : (soundness (fun _ => True) (fun _ => True)).before (.block program) m :=
    ⟨⟨false, hprogram.isBlock.isPart⟩, hsound⟩
  refine ⟨fun fault hverdict => ?_, fun inv hreliable hinv => ?_, fun m' hrun => ?_, ?_⟩
  · have h := run_isSound Console.refuses_any hsound hprogram.isBlock fuel
    rw [hverdict] at h
    obtain ⟨reason, hreason, -⟩ := h
    exact ⟨reason, hreason⟩
  · have h := run_isSound hreliable.refuses (hm.isSound hreliable.refuses hinv)
      hprogram.isBlock fuel
    cases hverdict : (run fuel program m).1 with
    | unfinished => exact .inl rfl
    | finished => exact .inr (.inl rfl)
    | exited => exact .inr (.inr (.inl rfl))
    | failed error =>
      cases error with
      | runtime error => exact .inr (.inr (.inr ⟨error, rfl⟩))
      | internal fault =>
        rw [hverdict] at h
        obtain ⟨_, -, hno⟩ := h
        exact hno.elim
  · have hyields : (Task.block program).Yields m (.ok .rangeExhausted m') := ⟨id, fuel, hrun⟩
    obtain ⟨hflow, -⟩ := hvalid.after hyields hbefore
    rcases flow_of_isBlock hprogram.isBlock hflow with h | h <;> cases h
  · intro name arguments line m₁ body m₂ m₃ hvisits hasks hyields
    obtain ⟨-, hm₁⟩ := hvalid.before hvisits hbefore
    obtain ⟨routine, hroutine, rfl⟩ := Task.routine_of_call_asks hasks
    have hbody := hm₁.blocks name routine hroutine
    obtain ⟨⟨_, _, hmem⟩, -⟩ :=
      hvalid.after hyields (hvalid.before (hvisits.further hasks) hbefore)
    exact not_isStatement_increment (hbody.isStatement _ hmem)

end Runs

/-- A program with a function, run on a console that refuses nothing. -/
theorem parsed_programs_are_sound_on_transcript :
    ∃ program, Program.parse Token.defaultRange "funkcja f(n)\n  zwróć n\npisz f(1)" = .ok program
      ∧ ∀ fuel, let verdict := (run fuel program ({ console := {} } : Machine Transcript)).1
        verdict = .unfinished ∨ verdict = .finished ∨ verdict = .exited
          ∨ ∃ error, verdict = .failed (.runtime error) := by
  have hparses : (Program.parse Token.defaultRange
      "funkcja f(n)\n  zwróć n\npisz f(1)").toOption.isSome = true := by decide +kernel
  cases hparse : Program.parse Token.defaultRange "funkcja f(n)\n  zwróć n\npisz f(1)" with
  | error e =>
    rw [hparse] at hparses
    cases hparses
  | ok program =>
    exact ⟨program, rfl, fun fuel =>
      (parsed_programs_are_sound .fresh ⟨_, _, hparse⟩ fuel).2.1 _ Transcript.reliable rfl⟩

end Tablica
