import Tablica.Proofs.Execution.Calls
import Tablica.Proofs.Execution.Literals

/-!
# Procedures have no value

Functions and procedures are called in the same way, and a `zwróć` is executed in the same way in
both.  Only when its value has been evaluated does it ask whose call is the innermost one:

    call ──▸ body ──▸ if ──▸ loop ──▸ zwróć value ──▸ whose call is this?
                                                        a function's:   the value travels back
                                                        a procedure's:  the call fails

Evaluating the value may make other calls in between.  They are over when the question is asked, so
it is the frame around the `zwróć` that decides, and the statements around it have the same one.  A
flow that carries a value therefore never comes out of the body of a procedure; and a failure is
caught by none of the statements that it comes out of.

* `Machine.MayReturn` — that the innermost call may return a value;
* `returning`, `returning_valid` — a value travels back only through calls that may return one;
* `fails_of_giveBack` — a `zwróć` that gives a procedure a value makes the run around it fail;
* `procedure_calls_have_no_value` — what follows for the calls of a procedure.
-/

namespace Tablica

open Tablica.Plan

variable {σ : Type} {m m₁ : Machine σ}

/-! ### Whose call it is -/

/-- The innermost call, if there is one, is no call of a procedure. -/
def Machine.MayReturn (m : Machine σ) : Prop :=
  ∀ frame ∈ m.frames.head?, frame.routine.isProcedure = false

/-- A value is refused in a call of a procedure. -/
theorem Action.checkReturn_of_isProcedure {frame : Frame} (hframe : m.frames.head? = some frame)
    (hprocedure : frame.routine.isProcedure = true) (value : Value) (line : SourceLine) :
    checkReturn (some value) line m
      = .error (.failed (.runtime ⟨.procedureReturnsValue frame.routine.name, line⟩))
        (m.failing ⟨.procedureReturnsValue frame.routine.name, line⟩) := by
  obtain ⟨frames, hframes⟩ := List.head?_eq_some_iff.mp hframe
  simp only [checkReturn, Option.isSome_some, if_true, get_bind, hframes, hprocedure]
  rfl

/-- A value that is not refused may be returned. -/
theorem Action.mayReturn_of_checkReturn {value : Value} {line : SourceLine}
    (h : checkReturn (some value) line m = .ok () m₁) : m.MayReturn := by
  intro frame hframe
  cases hprocedure : frame.routine.isProcedure with
  | false => rfl
  | true =>
    rw [checkReturn_of_isProcedure hframe hprocedure] at h
    cases h

/-! ### Where values come from -/

/-- The value that a flow carries. -/
def Flow.value? : Flow → Option Value
  | returned value => value
  | completed | exit | rangeExhausted => none

/-- The value of a call is what the flow out of its body carries, or nil. -/
theorem Action.eq_of_ofFlow {flow : Flow} {value : Value}
    (h : (ofFlow flow m).answer? = some value) : value = flow.value?.getD .nil := by
  cases flow <;> cases h <;> rfl

/-- An outcome carries a value out of a statement only where the innermost call may return one. -/
def Machine.Grants (m : Machine σ) (outcome : Conclusion σ Flow) : Prop :=
  ∀ flow, outcome.answer? = some flow → flow.value?.isSome → m.MayReturn

/-- Statements carry values only out of calls that may return them, and the value of a call of a
procedure is nil. -/
def returning : Contract σ where
  before _ _ := True
  after
    | .evaluate _, _, _ | .evaluateAll _, _, _ | .keyOf _ _, _, _ => True
    | .call name _ _, m, outcome => ∀ routine, m.routines[name]? = some routine →
      routine.isProcedure = true → ∀ value, outcome.answer? = some value → value = .nil
    | .execute _, m, outcome | .perform _, m, outcome | .block _, m, outcome
    | .loop _ _, m, outcome => m.Grants outcome

/-- A plan that ends on its machine as `returning` promises. -/
def Plan.IsGranted (m : Machine σ) (p : Plan σ Flow) : Prop :=
  (p m).Keeps (balance.under returning) m.Grants

/-- A plan that carries no value, wherever it begins. -/
def Plan.IsSilent (p : Plan σ Flow) : Prop :=
  ∀ m₀ m : Machine σ, (p m).Keeps (balance.under returning) m₀.Grants

namespace Machine.Grants

variable {outcome : Conclusion σ Flow}

theorem error {e : Interruption} : m.Grants (.error e m₁) := fun _ h => nomatch h

theorem ok {flow : Flow} (h : flow.value? = none) : m.Grants (.ok flow m₁) := by
  intro flow' hflow hvalue
  obtain rfl : flow = flow' := Option.some.inj hflow
  rw [h] at hvalue
  cases hvalue

/-- Only the innermost frame matters. -/
theorem congr (h : m₁.Grants outcome) (hframes : m₁.frames = m.frames) : m.Grants outcome := by
  intro flow hflow hvalue frame hframe
  exact h flow hflow hvalue frame (hframes ▸ hframe)

end Machine.Grants

/-- A course may ask for anything. -/
theorem Course.keeps_returning {α : Type} {goal : Conclusion σ α → Prop} (c : Course σ α)
    (h : ∀ outcome, goal outcome) : c.Keeps (balance.under returning) goal := by
  induction c with
  | ended outcome => exact h outcome
  | asking task m next ih => exact ⟨fun _ => trivial, fun outcome _ => ih outcome⟩

namespace Plan.IsSilent

variable {α : Type} {flow : Flow}

theorem pure (h : flow.value? = none) : IsSilent (σ := σ) (Pure.pure flow) :=
  fun _ _ => Machine.Grants.ok h

theorem fail {error : ExecutionError} : IsSilent (σ := σ) (act (Action.fail error)) :=
  fun _ _ => Machine.Grants.error

/-- Only the end of a plan matters. -/
theorem bind {p : Plan σ α} {f : α → Plan σ Flow} (hf : ∀ a, IsSilent (f a)) :
    IsSilent (p >>= f) := fun m₀ m =>
  keeps_bind (Course.keeps_returning _ fun outcome => by
    cases outcome with
    | ok a m₁ => exact hf a m₀ m₁
    | error e m₁ => exact Machine.Grants.error)

end Plan.IsSilent

/-! ### Every task keeps the promise -/

/-- A task at the beginning of a plan leaves the frames as they are. -/
theorem Plan.keeps_ask_bind_returning {α : Type} {task : Task} {f : task.Answer → Plan σ α}
    {goal : Conclusion σ α → Prop}
    (hok : ∀ a m₁, m₁.frames = m.frames → returning.after task m (.ok a m₁) →
      (f a m₁).Keeps (balance.under returning) goal)
    (herror : ∀ e m₁, goal (.error e m₁)) :
    ((ask task >>= f) m).Keeps (balance.under returning) goal :=
  keeps_ask_bind (fun _ => trivial) (fun a m₁ h => hok a m₁ h.1.frames h.2)
    fun e m₁ _ => herror e m₁

/-- A block at the end of a plan, on a machine with the same frames. -/
theorem Plan.keeps_ask_block {nodes : List Node} (hframes : m₁.frames = m.frames) :
    (ask (.block nodes) m₁).Keeps (balance.under returning) m.Grants :=
  keeps_ask (fun _ => trivial) fun _ h => h.2.congr hframes

section Returning

variable [Console σ]

/-- The value of a `zwróć` is returned only where it may be. -/
theorem Node.giveBack_isGranted (node : Node) (line : SourceLine) :
    IsGranted m (Node.execution (.giveBack (some node) line)) := by
  refine keeps_ask_bind_returning (fun value m₁ hframes _ => ?_) fun _ _ => .error
  refine keeps_act_bind ?_
  cases hcheck : Action.checkReturn (some value) line m₁ with
  | ok _ m₂ =>
    intro _ _ _ frame hframe
    exact Action.mayReturn_of_checkReturn hcheck frame (hframes ▸ hframe)
  | error e m₂ => exact Machine.Grants.error

theorem Node.execution_isGranted (node : Node) : IsGranted m node.execution := by
  have hcompleted : IsSilent (σ := σ) (Pure.pure .completed) := .pure rfl
  cases node with
  | endOfLine => exact hcompleted m m
  | assignment => exact IsSilent.bind (fun _ => .bind fun _ => .bind fun _ => hcompleted) m m
  | command command argument line =>
    cases command with
    | print =>
      cases argument with
      | none => exact hcompleted m m
      | some => exact IsSilent.bind (fun _ => .bind fun _ => hcompleted) m m
    | read =>
      cases argument with
      | none => exact IsSilent.fail m m
      | some node =>
        cases node with
        | var => exact IsSilent.bind (fun _ => .bind fun _ => .bind fun _ => hcompleted) m m
        | _ => exact IsSilent.fail m m
    | stop => exact IsSilent.pure rfl m m
  | condition test thenBlock elseBlock line =>
    refine keeps_ask_bind_returning (fun value m₁ hframes _ => ?_) fun _ _ => .error
    split
    · exact keeps_ask_block hframes
    · cases elseBlock with
      | none => exact hcompleted m m₁
      | some block => exact keeps_ask_block hframes
  | loop test body iterator line =>
    cases iterator with
    | none => exact keeps_ask (fun _ => trivial) fun _ h => h.2
    | some name =>
      -- The flow of the rounds passes, whatever the removal of the iterator does.
      exact keeps_ask_bind_returning (fun flow m₁ _ hrounds => hrounds) fun _ _ => .error
  | routine => exact IsSilent.bind (fun _ => hcompleted) m m
  | giveBack value line =>
    cases value with
    | none =>
      have hnothing : IsSilent (σ := σ) (Pure.pure (.returned none)) := .pure rfl
      exact hnothing m m
    | some node => exact node.giveBack_isGranted line
  | increment name line =>
    show m.Grants _
    rcases Action.increment_cases name line m with ⟨_, -, hrun⟩ | hrun | ⟨_, hrun⟩
    · rw [hrun]
      exact .ok rfl
    · rw [hrun]
      exact .ok rfl
    · rw [hrun]
      exact .error
  | _ => exact IsSilent.bind (fun _ => hcompleted) m m

/-- The value of a call of a procedure is nil: its body is executed in its frame, so no value comes
out of it. -/
theorem Task.call_keeps_returning (name : String) (arguments : List Node) (line : SourceLine) :
    ((Task.call name arguments line).plan m).Keeps (balance.under returning)
      (returning.after (.call name arguments line) m) := by
  refine keeps_act_bind ?_
  rcases Action.lookUp_cases name arguments.length line m with
    ⟨routine, hroutine, -, -, hrun⟩ | ⟨kind, hrun⟩
  · rw [hrun]
    refine keeps_ask_bind_returning (fun values m₁ _ _ => ?_) fun _ _ _ _ _ _ h => nomatch h
    refine keeps_entering_bind (fun _ => trivial) fun outcome hbody => ?_
    intro routine' hroutine' hprocedure value hvalue
    obtain rfl := Option.some.inj (hroutine.symm.trans hroutine')
    cases outcome with
    | error e m₂ => cases hvalue
    | ok flow m₂ =>
      have hnone : flow.value? = none := by
        cases hflow : flow.value? with
        | none => rfl
        | some result =>
          have hfunction := hbody.2 flow rfl (by rw [hflow]; rfl) _ rfl
          rw [hprocedure] at hfunction
          cases hfunction
      have hanswer : (Action.ofFlow flow (Action.leave m₁.memory.nextScope m₂)).answer?
          = some value := hvalue
      rw [Action.eq_of_ofFlow hanswer, hnone]
      rfl
  · rw [hrun]
    exact fun _ _ _ _ h => nomatch h

/-- **Every task carries values only through calls that may return them.** -/
theorem returning_valid : (balance.and returning : Contract σ).Valid := by
  refine balance_valid.and fun task m _ _ => ?_
  cases task with
  | evaluate | evaluateAll | keyOf => exact Course.keeps_returning _ fun _ => trivial
  | call name arguments line => exact Task.call_keeps_returning name arguments line
  | perform node => exact node.execution_isGranted
  | execute node =>
    refine keeps_act_bind (Course.Keeps.bind (keeps_ask (fun _ => trivial) fun outcome h => ?_))
    have hgrants : m.Grants outcome := h.2.congr rfl
    cases outcome with
    | ok flow m₁ => exact hgrants
    | error e m₁ =>
      cases e with
      | stop => exact Machine.Grants.ok rfl
      | failed | outOfFuel => exact Machine.Grants.error
  | block nodes =>
    cases nodes with
    | nil => exact Machine.Grants.ok rfl
    | cons node rest =>
      refine keeps_ask_bind_returning (fun flow m₁ hframes hnode => ?_) fun _ _ => .error
      split
      · exact keeps_ask_block hframes
      · exact hnode
  | loop test body =>
    refine keeps_ask_bind_returning (fun value m₁ hframes _ => ?_) fun _ _ => .error
    split
    · refine keeps_ask_bind_returning (fun flow m₂ hframes' hround => ?_) fun _ _ => .error
      split
      · exact keeps_ask (fun _ => trivial) fun _ h => h.2.congr (hframes'.trans hframes)
      · split
        · exact Machine.Grants.ok rfl
        · exact hround.congr hframes
    · exact Machine.Grants.ok rfl

/-! ### Where values are refused -/

/-- **A value for a procedure is a failure** of every task that visits its `zwróć`. -/
theorem Task.fails_of_giveBack (hm : m.Disciplined) {task : Task} {node : Node} {line : SourceLine}
    {m' m'' : Machine σ} (hvisits : task.Visits m (.perform (.giveBack (some node) line)) m')
    {frame : Frame} (hframe : m'.frames.head? = some frame)
    (hprocedure : frame.routine.isProcedure = true) {value : Value}
    (hvalue : (Task.evaluate node).Yields m' (.ok value m'')) :
    ∃ ended, task.Yields m
      (.error (.failed (.runtime ⟨.procedureReturnsValue frame.routine.name, line⟩)) ended) := by
  have hm' : m'.Disciplined := balance_valid.before hvisits hm
  -- The calls that the value makes are over, so the frame is the one that the body began in.
  have hframes : m''.frames = m'.frames := (balance_valid.after hvalue hm').frames
  have hrefused := Action.checkReturn_of_isProcedure (hframes ▸ hframe) hprocedure value line
  have hperform : (Task.perform (.giveBack (some node) line)).Yields m'
      (.error (.failed (.runtime ⟨.procedureReturnsValue frame.routine.name, line⟩))
        (m''.failing ⟨.procedureReturnsValue frame.routine.name, line⟩)) :=
    Task.yields_iff.mpr ⟨id, ends_ask_bind hvalue (ends_act_bind_of_error hrefused)⟩
  exact hvisits.fails hperform

/-- **Procedure calls have no value.**  On every machine that occurs, whatever programs were run, a
call of a procedure that succeeds has the value nil, whatever the body is and the arguments are.  If
a `zwróć` with a value is executed in the call's own frame, however deep in conditions and loops,
and its value can be evaluated, then the call fails, with the name of the procedure and at the line
of the `zwróć`. -/
theorem procedure_calls_have_no_value {console : σ} (hm : Reachable (fun _ => True) console m)
    {name : String} {routine : Routine} (hroutine : m.routines[name]? = some routine)
    (hprocedure : routine.isProcedure = true) (arguments : List Node) (line : SourceLine) :
    (∀ value m', (Task.call name arguments line).Yields m (.ok value m') → value = .nil)
      ∧ ∀ node line' m',
        (Task.call name arguments line).Visits m (.perform (.giveBack (some node) line')) m' →
        m'.frames.head?.map Frame.routine = some routine →
        ∀ value m'', (Task.evaluate node).Yields m' (.ok value m'') →
          ∃ ended, (Task.call name arguments line).Yields m
            (.error (.failed (.runtime ⟨.procedureReturnsValue routine.name, line'⟩)) ended) := by
  refine ⟨fun value m' hyields => ?_, fun node line' m' hvisits hinnermost value m'' hvalue => ?_⟩
  · have hafter := (returning_valid.after hyields ⟨hm.disciplined, trivial⟩).2
    exact hafter routine hroutine hprocedure value rfl
  · obtain ⟨frame, hframe, rfl⟩ := Option.map_eq_some_iff.mp hinnermost
    exact Task.fails_of_giveBack hm.disciplined hvisits hframe hprocedure hvalue

end Returning

/-- A procedure that gives back a value in a condition. -/
theorem procedure_calls_have_no_value_in_a_condition :
    let line : SourceLine := ⟨1, "p()"⟩
    let back : SourceLine := ⟨4, "zwróć 1"⟩
    let test : SourceLine := ⟨3, "jeżeli 1 to"⟩
    let block := [Node.giveBack (some (.number .one)) back]
    let body := [Node.condition (.number .one) block none test]
    let m := (run 3 [Node.routine "p" [] body true line] ({ console := {} } : Machine Transcript)).2
    Reachable (fun _ => True) {} m ∧ m.routines["p"]? = some ⟨"p", [], body, true⟩
      ∧ ∃ ended, (Task.call "p" [] line).Yields m
        (.error (.failed (.runtime ⟨.procedureReturnsValue "p", back⟩)) ended) := by
  intro line back test block body m
  have hm : Reachable (fun _ => True) {} m := .atRest (.ran .fresh trivial (nomatch ·))
  have hroutine : m.routines["p"]? = some ⟨"p", [], body, true⟩ := by
    show ((∅ : Std.ExtTreeMap String Routine compare).insert "p" ⟨"p", [], body, true⟩)["p"]? = _
    simp
  have hlookUp : Action.lookUp "p" 0 line m = .ok ⟨"p", [], body, true⟩ m := by
    rw [Action.lookUp, Action.get_bind, hroutine]
    rfl
  have hnone : (Task.evaluateAll []).Yields m (.ok [] m) := ⟨id, 0, rfl⟩
  have htest : ∀ m' : Machine Transcript,
      (Task.perform (.condition (.number .one) block none test)).Asks m' (.block block) m' :=
    fun m' => asks_ask_bind.mpr (.inr ⟨_, m', Task.evaluate_number_yields .one, .now⟩)
  have hcondition := ((Task.Visits.here.further (Task.call_asks_block hlookUp hnone)).further
    (Task.block_cons_asks.mpr (.inl ⟨rfl, rfl⟩))).further (Task.execute_asks.mpr ⟨rfl, rfl⟩)
  have hvisits := ((hcondition.further (htest _)).further
    (Task.block_cons_asks.mpr (.inl ⟨rfl, rfl⟩))).further (Task.execute_asks.mpr ⟨rfl, rfl⟩)
  exact ⟨hm, hroutine, (procedure_calls_have_no_value hm hroutine rfl [] line).2 _ _ _ hvisits rfl
    _ _ (Task.evaluate_number_yields .one)⟩

end Tablica
