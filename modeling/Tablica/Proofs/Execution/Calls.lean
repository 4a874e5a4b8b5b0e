import Tablica.Proofs.Execution.Actions
import Tablica.Proofs.Execution.Cells
import Tablica.Proofs.Execution.Contract

/-!
# The discipline of calls

Each call that is under way has a frame and, with it, a scope of its own.  A machine is
*disciplined* if the frames have scopes of their own, if these are exactly the open scopes, and if
there are not too many.  Whatever a task does and however it ends, it leaves the frames and the
open scopes as they were, and it writes at most to the table of the innermost frame; an evaluation
does not even do that.  A global variable is created only by a statement outside of every call.

* `Machine.Disciplined` — the invariant;
* `Machine.Balanced` — what a task leaves as it was;
* `Machine.Balanced.call`, `Plan.keeps_enter_bind` — a call in the middle of a task;
* `balance_valid` — every task is balanced;
* `calls_are_isolated` — the same of all tasks of every run.
-/

namespace Tablica

variable {σ : Type}

/-- The calls under way have scopes of their own; these are the open scopes, and they were opened
in their turn; and there are not too many calls. -/
structure Machine.Disciplined (m : Machine σ) : Prop where
  distinct : (m.frames.map Frame.scope).Nodup
  opened : ∀ scope, scope ∈ m.memory.scopes ↔ scope ∈ m.frames.map Frame.scope
  bounded : m.frames.length ≤ maxCallDepth
  fresh : ∀ scope ∈ m.frames.map Frame.scope, scope < m.memory.nextScope

/-- From the first machine to the second one the frames and the open scopes stay the same, and so
does every table but, where statements may write, the one of the innermost frame.  No global is
created, except that statements may do so outside of every call. -/
structure Machine.Balanced (writes : Bool) (m m' : Machine σ) : Prop where
  disciplined : m'.Disciplined
  frames : m'.frames = m.frames
  opened : ∀ scope, scope ∈ m'.memory.scopes ↔ scope ∈ m.memory.scopes
  tables : ∀ scope, (writes = true → some scope ≠ m.scope) →
    m'.memory.scopes[scope]? = m.memory.scopes[scope]?
  globals : (writes = true → m.frames ≠ []) →
    ∀ key ∈ m'.memory.globals, key ∈ m.memory.globals

namespace Machine

variable {m m₁ m₂ : Machine σ} {writes : Bool}

/-- Only frames and memory matter for the discipline. -/
theorem Disciplined.congr (h : m.Disciplined) (hframes : m₁.frames = m.frames)
    (hopened : ∀ scope, scope ∈ m₁.memory.scopes ↔ scope ∈ m.memory.scopes)
    (hnext : m.memory.nextScope ≤ m₁.memory.nextScope) : m₁.Disciplined where
  distinct := by rw [hframes]; exact h.distinct
  opened scope := by rw [hopened, hframes]; exact h.opened scope
  bounded := by rw [hframes]; exact h.bounded
  fresh scope hscope := by
    rw [hframes] at hscope
    exact Nat.lt_of_lt_of_le (h.fresh scope hscope) hnext

/-- The scope of the innermost frame is open. -/
theorem Disciplined.scope_mem (h : m.Disciplined) (scope : ScopeId)
    (hscope : m.scope = some scope) : scope ∈ m.memory.scopes := by
  rw [h.opened]
  obtain ⟨frame, hframe, rfl⟩ := Option.map_eq_some_iff.mp hscope
  exact List.mem_map_of_mem (List.mem_of_mem_head? hframe)

theorem Disciplined.fresh_notMem (h : m.Disciplined) :
    m.memory.nextScope ∉ m.memory.scopes := fun hmem =>
  Nat.lt_irrefl _ (h.fresh _ ((h.opened _).mp hmem))

theorem disciplined_fresh (console : σ) : Disciplined ({ console } : Machine σ) where
  distinct := List.nodup_nil
  opened scope := by simp
  bounded := Nat.zero_le _
  fresh scope hscope := by simp at hscope

theorem scope_congr (h : m₁.frames = m.frames) : m₁.scope = m.scope := by
  simp only [scope, h]

namespace Balanced

theorem of_same (h : m.Disciplined) (hframes : m₁.frames = m.frames)
    (hmemory : m₁.memory = m.memory) : m.Balanced writes m₁ where
  disciplined := h.congr hframes (fun scope => by rw [hmemory]) (by simp [hmemory])
  frames := hframes
  opened scope := by rw [hmemory]
  tables scope _ := by rw [hmemory]
  globals _ key hkey := by rwa [hmemory] at hkey

theorem of_alike (h : m.Disciplined) (halike : m.Alike m₁) : m.Balanced writes m₁ :=
  of_same h halike.frames halike.memory

theorem refl (h : m.Disciplined) : m.Balanced writes m := of_same h rfl rfl

theorem trans (h : m.Balanced writes m₁) (h' : m₁.Balanced writes m₂) : m.Balanced writes m₂ where
  disciplined := h'.disciplined
  frames := h'.frames.trans h.frames
  opened scope := (h'.opened scope).trans (h.opened scope)
  tables scope hscope := by
    rw [h'.tables scope (by rwa [scope_congr h.frames]), h.tables scope hscope]
  globals hin key hkey :=
    h.globals hin key (h'.globals (by rwa [h.frames]) key hkey)

/-- What an evaluation leaves as it was a statement leaves as it was. -/
theorem weaken (h : m.Balanced false m₁) : m.Balanced writes m₁ where
  disciplined := h.disciplined
  frames := h.frames
  opened := h.opened
  tables scope _ := h.tables scope (by simp)
  globals _ := h.globals (by simp)

/-- Writing a variable is balanced. -/
theorem put (h : m.Disciplined) {key : String} {cell : Cell} (hframes : m₁.frames = m.frames)
    (hmemory : m₁.memory = m.memory.put key cell m.scope) : m.Balanced true m₁ where
  disciplined := h.congr hframes
    (fun scope => by rw [hmemory, Memory.mem_scopes_put h.scope_mem])
    (by simp [hmemory, Memory.nextScope_put])
  frames := hframes
  opened scope := by rw [hmemory, Memory.mem_scopes_put h.scope_mem]
  tables scope hscope := by rw [hmemory, Memory.scopes_put _ _ _ (hscope rfl)]
  globals hin key' hkey := by
    rw [hmemory] at hkey
    cases hscope : m.scope with
    | none =>
      simp only [scope, Option.map_eq_none_iff, List.head?_eq_none_iff] at hscope
      exact absurd hscope (hin rfl)
    | some scope =>
      rw [hscope] at hkey
      exact Memory.mem_globals_of_put hkey

/-- Removing a variable is balanced. -/
theorem delete (h : m.Disciplined) {key : String} (hframes : m₁.frames = m.frames)
    (hmemory : m₁.memory = m.memory.delete key m.scope) : m.Balanced true m₁ where
  disciplined := h.congr hframes
    (fun scope => by rw [hmemory, Memory.mem_scopes_delete h.scope_mem])
    (by simp [hmemory, Memory.nextScope_delete])
  frames := hframes
  opened scope := by rw [hmemory, Memory.mem_scopes_delete h.scope_mem]
  tables scope hscope := by rw [hmemory, Memory.scopes_delete _ _ (hscope rfl)]
  globals _ key' hkey := by
    rw [hmemory] at hkey
    exact Memory.mem_globals_of_delete hkey

end Balanced

/-! ### A call -/

section Call

variable {frame : Frame} {locals : List (String × Value)}

/-- Entering a call keeps the discipline, if there is room for one more. -/
theorem Disciplined.enter (h : m.Disciplined) (hdepth : m.frames.length < maxCallDepth)
    (henters : m.Enters frame locals m₁) : m₁.Disciplined where
  distinct := by
    rw [henters.frames, List.map_cons, List.nodup_cons, henters.scope]
    exact ⟨fun hmem => Nat.lt_irrefl _ (h.fresh _ hmem), h.distinct⟩
  opened scope := by
    rw [henters.memory, Memory.mem_scopes_openWith, henters.frames, List.map_cons, List.mem_cons,
      henters.scope, h.opened]
  bounded := by rw [henters.frames]; exact hdepth
  fresh scope hscope := by
    rw [henters.memory, Memory.nextScope_openWith]
    rw [henters.frames, List.map_cons, List.mem_cons, henters.scope] at hscope
    rcases hscope with rfl | hscope
    · exact Nat.lt_succ_self _
    · exact Nat.lt_succ_of_lt (h.fresh scope hscope)

/-- **A call is balanced** as an evaluation is, if its body is balanced in the frame of the
call. -/
theorem Balanced.call (h : m.Disciplined) (henters : m.Enters frame locals m₁)
    (hbody : m₁.Balanced true m₂) : m.Balanced false (Action.leave frame.scope m₂) := by
  have hfresh : frame.scope ∉ m.memory.scopes := henters.scope ▸ h.fresh_notMem
  have hclosed := Action.leave_memory frame.scope m₂
  have hback : (Action.leave frame.scope m₂).frames = m.frames := by
    rw [Action.leave_frames, hbody.frames, henters.frames, List.tail_cons]
  generalize Action.leave frame.scope m₂ = m₃ at hclosed hback ⊢
  have htables : ∀ scope : ScopeId, m₃.memory.scopes[scope]? = m.memory.scopes[scope]? := by
    intro scope
    rw [hclosed, Memory.closeScope, Std.ExtTreeMap.getElem?_erase]
    by_cases heq : frame.scope = scope
    · rw [if_pos (by simp [heq])]
      subst heq
      exact (Std.ExtTreeMap.getElem?_eq_none hfresh).symm
    · rw [if_neg (by simpa using heq), hbody.tables scope fun _ => by
        rw [henters.scope_eq]; exact fun h => heq (Option.some.inj h).symm, henters.memory,
        Memory.scopes_openWith _ _ (henters.scope ▸ fun h => heq h.symm)]
  have hopened : ∀ scope : ScopeId, scope ∈ m₃.memory.scopes ↔ scope ∈ m.memory.scopes := by
    intro scope
    simp only [Std.ExtTreeMap.mem_iff_isSome_getElem?, htables]
  refine ⟨?_, hback, hopened, fun scope _ => htables scope, fun _ key hkey => ?_⟩
  · refine ⟨by rw [hback]; exact h.distinct, fun scope => ?_, by rw [hback]; exact h.bounded, ?_⟩
    · rw [hopened, hback, h.opened]
    · intro scope hmem
      rw [hclosed]
      refine hbody.disciplined.fresh scope ?_
      rw [hbody.frames, henters.frames, List.map_cons]
      exact List.mem_cons_of_mem _ (hback ▸ hmem)
  · rw [hclosed] at hkey
    have hglobal := hbody.globals (fun _ => by rw [henters.frames]; exact List.cons_ne_nil _ _)
      key hkey
    rwa [henters.memory, Memory.globals_openWith] at hglobal

end Call

end Machine

/-! ### Balanced plans -/

/-- Whether a task may write: statements may, evaluations may not. -/
def Task.writes : Task → Bool
  | execute _ | perform _ | block _ | loop _ _ => true
  | evaluate _ | evaluateAll _ | keyOf _ _ | call _ _ _ => false

/-- Every task on a disciplined machine is balanced. -/
def balance : Contract σ where
  before _ m := m.Disciplined
  after task m outcome := m.Balanced task.writes outcome.machine

/-- A plan that is balanced if the tasks are that it asks for. -/
def Plan.IsBalanced {α : Type} (writes : Bool) (p : Plan σ α) : Prop :=
  ∀ m, m.Disciplined → (p m).Keeps balance fun outcome => m.Balanced writes outcome.machine

namespace Plan.IsBalanced

variable {α β : Type} {writes : Bool}

theorem pure (a : α) : IsBalanced writes (Pure.pure a : Plan σ α) := fun _ h =>
  Machine.Balanced.refl h

theorem act {action : Action σ α}
    (h : ∀ m : Machine σ, m.Disciplined → m.Balanced writes (action m).machine) :
    IsBalanced writes (Plan.act action) := h

/-- An action that changes console and journal at most is balanced. -/
theorem act_alike {action : Action σ α} (h : ∀ m : Machine σ, m.Alike (action m).machine) :
    IsBalanced writes (Plan.act action) := act fun m hm => .of_alike hm (h m)

theorem ask {task : Task} (h : task.writes = true → writes = true) :
    IsBalanced (σ := σ) writes (Plan.ask task) := fun m hm =>
  keeps_ask hm fun outcome hbalanced => by
    have hbalanced : m.Balanced task.writes outcome.machine := hbalanced
    cases hwrites : task.writes with
    | true => rwa [hwrites, ← h hwrites] at hbalanced
    | false => exact (hwrites ▸ hbalanced).weaken

theorem bind {p : Plan σ α} {f : α → Plan σ β} (hp : IsBalanced writes p)
    (hf : ∀ a, IsBalanced writes (f a)) : IsBalanced writes (p >>= f) := fun m hm =>
  keeps_bind ((hp m hm).mono fun outcome hbalanced => by
    cases outcome with
    | ok a m' => exact (hf a m' hbalanced.disciplined).mono fun _ h => hbalanced.trans h
    | error e m' => exact hbalanced)

theorem ite {c : Prop} [Decidable c] {p q : Plan σ α} (hp : IsBalanced writes p)
    (hq : IsBalanced writes q) : IsBalanced writes (if c then p else q) := by
  split
  · exact hp
  · exact hq

theorem catchStop {p : Plan σ Flow} (hp : IsBalanced writes p) :
    IsBalanced writes (Plan.catchStop p) := fun m hm =>
  Course.Keeps.bind ((hp m hm).mono fun outcome hbalanced => by
    cases outcome with
    | ok flow m' => exact hbalanced
    | error e m' => cases e <;> exact hbalanced)

theorem store {key : String} {line : SourceLine}
    {write : Memory → Option ScopeId → Except RuntimeFault Memory}
    (h : ∀ memory scope memory', write memory scope = .ok memory' →
      ∃ cell, memory' = memory.put key cell scope) :
    IsBalanced (σ := σ) true (Plan.act (Action.store key line write)) := by
  refine act fun m hm => ?_
  rcases Action.store_cases key line write m with ⟨memory, hwrite, hrun⟩ | ⟨kind, -, hrun⟩
  · rw [hrun]
    obtain ⟨cell, rfl⟩ := h _ _ _ hwrite
    exact .put hm rfl rfl
  · rw [hrun]
    exact .of_alike hm (.record m _)

/-- An increment is balanced: it writes the iterator, or nothing. -/
theorem increment (name : String) (line : SourceLine) :
    IsBalanced (σ := σ) true (Plan.act (Action.increment name line)) := by
  refine act fun m hm => ?_
  rcases Action.increment_cases name line m with ⟨memory, hwrite, hrun⟩ | hrun | ⟨_, hrun⟩
  · rw [hrun]
    obtain ⟨value, -, rfl⟩ := Memory.increment_eq_ok hwrite
    exact .put hm rfl rfl
  · rw [hrun]
    exact .of_alike hm (.record m _)
  · rw [hrun]
    exact .of_alike hm (.record m _)

end Plan.IsBalanced

/-! ### Every task is balanced -/

open Plan

theorem Node.evaluation_isBalanced (node : Node) :
    IsBalanced (σ := σ) false node.evaluation := by
  cases node with
  | number | text | boolean => exact .pure _
  | var name indices =>
    exact .bind (.ask (by simp [Task.writes])) fun key => .act_alike (Action.load_alike · key)
  | operation operator left right line =>
    exact .bind (.ask (by simp [Task.writes])) fun left =>
      .bind (.ask (by simp [Task.writes])) fun right =>
        .act_alike (Action.ofExcept_alike · line _)
  | call name arguments line => exact .ask (by simp [Task.writes])
  | _ => exact .act_alike (Action.fail_alike · _)

/-- A call from the opening of its scope on: the body is asked for in the call's frame, and
afterwards the scope is closed, whatever the outcome is. -/
theorem Plan.keeps_entering_bind {K : Contract σ} {goal : Conclusion σ Value → Prop}
    {m : Machine σ} {routine : Routine} {locals : List (String × Value)}
    (hbefore : K.before (.block routine.body) (m.entering routine locals))
    (hafter : ∀ outcome, K.after (.block routine.body) (m.entering routine locals) outcome →
      goal (match outcome with
        | .ok flow m' => Action.ofFlow flow (Action.leave m.memory.nextScope m')
        | .error e m' => .error e (Action.leave m.memory.nextScope m'))) :
    ((do
      let scope ← act (Action.openScope routine.name locals)
      let flow ← inFrame ⟨scope, routine⟩ (ask (.block routine.body))
      act (Action.ofFlow flow) : Plan σ Value) m).Keeps K goal := by
  refine keeps_act_bind ?_
  rw [Action.openScope_run]
  refine keeps_bind (Course.Keeps.bind ⟨hbefore, fun outcome houtcome => ?_⟩)
  cases outcome with
  | ok flow m' => exact hafter _ houtcome
  | error e m' => exact hafter _ houtcome

/-- The same, when no more is known of the machine on which the body begins. -/
theorem Plan.keeps_enter_bind {K : Contract σ} {goal : Conclusion σ Value → Prop} {m : Machine σ}
    {routine : Routine} {locals : List (String × Value)}
    (h : ∀ m', m.Enters ⟨m.memory.nextScope, routine⟩ locals m' →
      K.before (.block routine.body) m' ∧ ∀ outcome, K.after (.block routine.body) m' outcome →
        goal (match outcome with
          | .ok flow m'' => Action.ofFlow flow (Action.leave m.memory.nextScope m'')
          | .error e m'' => .error e (Action.leave m.memory.nextScope m''))) :
    ((do
      let scope ← act (Action.openScope routine.name locals)
      let flow ← inFrame ⟨scope, routine⟩ (ask (.block routine.body))
      act (Action.ofFlow flow) : Plan σ Value) m).Keeps K goal :=
  keeps_entering_bind (h _ (m.enters_entering routine locals)).1
    (h _ (m.enters_entering routine locals)).2

section Balance

variable [Console σ]

theorem Node.execution_isBalanced (node : Node) :
    IsBalanced (σ := σ) true node.execution := by
  cases node with
  | endOfLine => exact .pure _
  | assignment name indices value isIterator line =>
    refine .bind (.ask fun _ => rfl) fun value => .bind (.ask fun _ => rfl) fun key => ?_
    exact .bind (.store fun _ _ _ h => ⟨_, (Memory.write_eq_ok h).2⟩) fun _ => .pure _
  | command command argument line =>
    cases command with
    | print =>
      cases argument with
      | none => exact .pure _
      | some node =>
        refine .bind (.ask fun _ => rfl) fun value => ?_
        exact .bind (.act_alike (Action.write_alike · _)) fun _ => .pure _
    | read =>
      have hfail : IsBalanced (σ := σ) (α := Flow) true
          (act (Action.fail (.runtime ⟨.readTargetNotVariable, line⟩))) :=
        .act_alike (Action.fail_alike · _)
      cases argument with
      | none => exact hfail
      | some node =>
        cases node with
        | var name indices =>
          refine .bind (.act_alike (Action.ask_alike · _)) fun input => ?_
          refine .bind (.ask fun _ => rfl) fun key => ?_
          exact .bind (.store fun _ _ _ h => ⟨_, (Memory.save_eq_ok h).2⟩) fun _ => .pure _
        | _ => exact hfail
    | stop => exact .pure _
  | condition test thenBlock elseBlock line =>
    refine .bind (.ask fun _ => rfl) fun value => .ite (.ask fun _ => rfl) ?_
    cases elseBlock with
    | none => exact .pure _
    | some block => exact .ask fun _ => rfl
  | loop test body iterator line =>
    cases iterator with
    | none => exact .ask fun _ => rfl
    | some name =>
      refine .bind (.ask fun _ => rfl) fun flow => ?_
      refine .bind (.act fun m hm => ?_) fun _ => .pure _
      exact .delete hm rfl rfl
  | routine name parameters body isProcedure line =>
    exact .bind (.act fun m hm => .of_same hm rfl rfl) fun _ => .pure _
  | giveBack value line =>
    cases value with
    | none => exact .pure _
    | some node =>
      refine .bind (.ask fun _ => rfl) fun value => ?_
      exact .bind (.act_alike (Action.checkReturn_alike · _ line)) fun _ => .pure _
  | increment name line => exact .increment name line
  | _ => exact .bind (.ask fun _ => rfl) fun _ => .pure _

/-- A call is balanced. -/
theorem Task.call_isBalanced (name : String) (arguments : List Node) (line : SourceLine) :
    IsBalanced (σ := σ) false (Task.call name arguments line).plan := by
  intro m hm
  refine keeps_act_bind ?_
  rcases Action.lookUp_cases name arguments.length line m with
    ⟨routine, -, -, hdepth, hrun⟩ | ⟨kind, hrun⟩
  · rw [hrun]
    refine keeps_ask_bind hm (fun values m₁ hvalues => ?_) fun e m₁ hvalues => hvalues
    have hvalues : m.Balanced false m₁ := hvalues
    refine keeps_enter_bind fun m₂ henters => ?_
    have hdepth : m₁.frames.length < maxCallDepth := by rwa [hvalues.frames]
    refine ⟨hvalues.disciplined.enter hdepth henters, fun outcome hbody => ?_⟩
    have hleft := hvalues.trans (.call hvalues.disciplined henters hbody)
    cases outcome with
    | ok flow m₂ =>
      exact hleft.trans (.of_alike hleft.disciplined (Action.ofFlow_alike _ flow))
    | error e m₂ => exact hleft
  · rw [hrun]
    exact .of_alike hm (.record m _)

/-- **Every task is balanced.** -/
theorem balance_valid : (balance : Contract σ).Valid := by
  intro task m hm
  suffices h : IsBalanced (σ := σ) task.writes task.plan from h m hm
  cases task with
  | evaluate node => exact node.evaluation_isBalanced
  | evaluateAll nodes =>
    cases nodes with
    | nil => exact .pure _
    | cons node rest =>
      exact .bind (.ask id) fun _ => .bind (.ask id) fun _ => .pure _
  | keyOf name indices => exact .bind (.ask id) fun _ => .pure _
  | call name arguments line => exact Task.call_isBalanced name arguments line
  | execute node =>
    exact .bind (.act_alike (Action.note_alike · _)) fun _ => .catchStop (.ask id)
  | perform node => exact node.execution_isBalanced
  | block nodes =>
    cases nodes with
    | nil => exact .pure _
    | cons node rest =>
      exact .bind (.ask id) fun flow => .ite (.ask id) (.pure _)
  | loop test body =>
    refine .bind (.ask fun _ => rfl) fun value => .ite ?_ (.pure _)
    exact .bind (.ask id) fun flow => .ite (.ask id) (.pure _)

/-- Between two runs the machine is disciplined. -/
theorem AtRest.disciplined {admits : List Node → Prop} {console : σ} {m : Machine σ}
    (h : AtRest admits console m) : m.Disciplined := by
  refine h.invariant (Machine.disciplined_fresh console) (fun m program outcome _ hyields hm => ?_)
    fun m hm => ?_
  · exact (balance_valid.after hyields hm).disciplined
  · have halike := Action.flush_alike m
    exact hm.congr halike.frames (by simp [halike.memory]) (by simp [halike.memory])

/-- The machines that occur in runs are disciplined. -/
theorem Reachable.disciplined {admits : List Node → Prop} {console : σ} {m : Machine σ}
    (h : Reachable admits console m) : m.Disciplined := by
  cases h with
  | atRest hm => exact hm.disciplined
  | before hm _ hvisits => exact balance_valid.before hvisits hm.disciplined
  | after hm _ hvisits hyields =>
    exact (balance_valid.after hyields
      (balance_valid.before hvisits hm.disciplined)).disciplined

/-- **Calls are isolated.**  On every machine that occurs, whatever programs were run, evaluating
an expression and executing a statement are balanced, however they end; and wherever they come to,
the calls under way have scopes of their own, which are the open ones, and are not too many. -/
theorem calls_are_isolated {console : σ} {m : Machine σ}
    (hm : Reachable (fun _ => True) console m) (node : Node) :
    (∀ outcome, (Task.evaluate node).Yields m outcome → m.Balanced false outcome.machine)
      ∧ (∀ outcome, (Task.execute node).Yields m outcome → m.Balanced true outcome.machine)
      ∧ ∀ start ∈ [Task.evaluate node, Task.execute node], ∀ task m', start.Visits m task m' →
        m'.Disciplined ∧ ∀ outcome, task.Yields m' outcome → outcome.machine.Disciplined := by
  refine ⟨fun _ h => balance_valid.after h hm.disciplined,
    fun _ h => balance_valid.after h hm.disciplined, fun start _ task m' hvisits => ?_⟩
  have hm' := balance_valid.before hvisits hm.disciplined
  exact ⟨hm', fun outcome hyields => (balance_valid.after hyields hm').disciplined⟩

end Balance

/-- After the definition of a procedure that assigns to a variable, a call of it is balanced. -/
theorem calls_are_isolated_after_definition :
    let line : SourceLine := ⟨1, "f()"⟩
    let body := [Node.assignment "x" [] (.number .one) false line]
    let program := [Node.routine "f" [] body true line]
    let m := (run 3 program ({ console := {} } : Machine Transcript)).2
    Reachable (fun _ => True) {} m ∧ m.routines["f"]? = some ⟨"f", [], body, true⟩
      ∧ ∀ outcome, (Task.evaluate (.call "f" [] line)).Yields m outcome →
        m.Balanced false outcome.machine := by
  intro line body program m
  have hm : Reachable (fun _ => True) {} m := .atRest (.ran .fresh trivial (nomatch ·))
  refine ⟨hm, ?_, (calls_are_isolated hm (.call "f" [] line)).1⟩
  show ((∅ : Std.ExtTreeMap String Routine compare).insert "f" ⟨"f", [], body, true⟩)["f"]? = _
  simp

end Tablica
