import Tablica.Proofs.Execution.Actions
import Tablica.Proofs.Execution.Contract

/-!
# One statement after another

A block is executed statement by statement as long as these complete.  So a block of two parts
does what the first part does, and when that has completed it does what the second part does.  A
loop evaluates its test before every round.

* `Task.block_append_yields`, `Task.exists_of_block_append_completes` — the outcome of two parts;
* `Task.Visits.of_block_append` — the tasks of two parts;
* `Task.not_block_yields_stop` — `koniec` does not interrupt statements, it ends them;
* `Task.loop_asks_block`, `Task.loop_asks_loop` — the rounds of a loop;
* `Task.loop_yields_of_round` — a loop after one round;
* `Task.LoopsTo`, `Task.loop_yields` — all rounds of a loop, up to its outcome.
-/

namespace Tablica.Task

variable {σ : Type} [Console σ] {m m₁ m' : Machine σ}

/-! ### Expressions without calls -/

theorem evaluate_number_yields (number : Number) :
    (evaluate (.number number)).Yields m (.ok (.number number) m) :=
  ⟨id, 1, rfl⟩

theorem keyOf_nil_yields (name : String) : (keyOf name []).Yields m (.ok name m) :=
  ⟨id, 2, rfl⟩

theorem evaluate_var_yields (name : String) :
    (evaluate (.var name [])).Yields m (.ok (m.memory.get name m.scope) m) :=
  ⟨id, 3, rfl⟩

/-! ### Blocks -/

section Block

variable {node : Node} {part rest : List Node} {outcome : Conclusion σ Flow}

theorem block_nil_yields : (block []).Yields m outcome ↔ outcome = .ok .completed m := by
  rw [yields_iff]
  constructor
  · exact fun h => Plan.ends_pure.mp h.2
  · intro heq
    subst heq
    exact ⟨id, Plan.ends_pure.mpr rfl⟩

/-- After a statement that completed a block is its rest. -/
theorem block_cons_yields (h : (execute node).Yields m (.ok .completed m₁)) :
    (block (node :: rest)).Yields m outcome ↔ (block rest).Yields m₁ outcome := by
  constructor
  · intro hblock
    rcases Plan.ends_bind.mp (yields_iff.mp hblock).2 with
      ⟨flow, m₂, hnode, hrest⟩ | ⟨e, m₂, hnode, -⟩
    · cases (Plan.ends_ask.mp hnode).unique h
      exact Plan.ends_ask.mp hrest
    · cases (Plan.ends_ask.mp hnode).unique h
  · intro hrest
    exact yields_iff.mpr ⟨hrest.1, Plan.ends_ask_bind h (Plan.ends_ask.mpr hrest)⟩

theorem exists_of_block_cons_completes
    (h : (block (node :: rest)).Yields m (.ok .completed m')) :
    ∃ m₁, (execute node).Yields m (.ok .completed m₁)
      ∧ (block rest).Yields m₁ (.ok .completed m') := by
  rcases Plan.ends_bind.mp (yields_iff.mp h).2 with ⟨flow, m₁, hnode, hrest⟩ | ⟨e, m₁, -, hrest⟩
  · have hnode := Plan.ends_ask.mp hnode
    by_cases hflow : flow = .completed
    · subst hflow
      exact ⟨m₁, hnode, Plan.ends_ask.mp hrest⟩
    · rw [if_neg hflow] at hrest
      cases Plan.ends_pure.mp hrest
      exact absurd rfl hflow
  · cases hrest

/-- A statement that does not complete ends a block. -/
theorem block_cons_yields_of_ne {flow : Flow} (h : (execute node).Yields m (.ok flow m₁))
    (hflow : flow ≠ .completed) : (block (node :: rest)).Yields m (.ok flow m₁) := by
  refine yields_iff.mpr ⟨id, Plan.ends_ask_bind h ?_⟩
  rw [if_neg hflow]
  exact Plan.ends_pure.mpr rfl

theorem execute_asks {task : Task} :
    (execute node).Asks m task m' ↔ task = perform node ∧ m' = m.record (.started node) := by
  constructor
  · intro h
    obtain ⟨_, m₁, hnote, h⟩ := Plan.asks_act_bind h
    cases hnote
    rcases Course.asks_bind h with h | ⟨outcome, -, h⟩
    · exact Plan.asks_ask.mp h
    · cases outcome with
      | ok flow m₁ => cases h
      | error e m₁ => cases e <;> cases h
  · intro heq
    obtain ⟨rfl, rfl⟩ := heq
    exact .now

/-- A statement is started and then performed. -/
theorem execute_yields {flow : Flow}
    (h : (perform node).Yields (m.record (.started node)) (.ok flow m₁)) :
    (execute node).Yields m (.ok flow m₁) := by
  refine yields_iff.mpr ⟨id, Plan.ends_act_bind rfl ?_⟩
  exact Course.ends_bind.mpr ⟨_, Plan.ends_ask.mpr h, .ended _⟩

/-- What a statement answers it was performed with, or its performance was interrupted by
`koniec`. -/
theorem execute_yields_cases (h : (execute node).Yields m outcome) :
    (perform node).Yields (m.record (.started node)) outcome ∧ (∀ m', outcome ≠ .error .stop m')
      ∨ ∃ m', (perform node).Yields (m.record (.started node)) (.error .stop m')
        ∧ outcome = .ok .exit m' := by
  obtain ⟨hfinished, hends⟩ := yields_iff.mp h
  rcases Plan.ends_bind.mp hends with ⟨_, m₁, hnote, hcatch⟩ | ⟨e, m₁, hnote, -⟩
  · cases Plan.ends_act.mp hnote
    obtain ⟨performed, hperform, hend⟩ := Course.ends_bind.mp hcatch
    have hperform := Plan.ends_ask.mp hperform
    cases performed with
    | ok flow m₂ =>
      cases Course.ends_ended.mp hend
      exact .inl ⟨hperform, nofun⟩
    | error e m₂ =>
      cases e with
      | stop => exact .inr ⟨m₂, hperform, Course.ends_ended.mp hend⟩
      | failed =>
        cases Course.ends_ended.mp hend
        exact .inl ⟨hperform, nofun⟩
      | outOfFuel => exact absurd trivial hperform.1
  · cases Plan.ends_act.mp hnote

/-- `koniec` does not interrupt a block. -/
theorem not_block_yields_stop {nodes : List Node} :
    ¬ (block nodes).Yields m (.error .stop m') := by
  induction nodes generalizing m with
  | nil =>
    intro h
    cases block_nil_yields.mp h
  | cons node rest ih =>
    intro h
    rcases Plan.ends_bind.mp (yields_iff.mp h).2 with ⟨flow, m₁, -, hrest⟩ | ⟨e, m₁, hnode, heq⟩
    · by_cases hflow : flow = .completed
      · rw [if_pos hflow] at hrest
        exact ih (Plan.ends_ask.mp hrest)
      · rw [if_neg hflow] at hrest
        cases Plan.ends_pure.mp hrest
    · cases heq
      rcases execute_yields_cases (Plan.ends_ask.mp hnode) with ⟨-, hne⟩ | ⟨m₂, -, hexit⟩
      · exact hne _ rfl
      · cases hexit

/-- After a part that completed a block is its rest. -/
theorem block_append_yields (h : (block part).Yields m (.ok .completed m₁)) :
    (block (part ++ rest)).Yields m outcome ↔ (block rest).Yields m₁ outcome := by
  induction part generalizing m with
  | nil =>
    cases block_nil_yields.mp h
    rfl
  | cons node part ih =>
    obtain ⟨m₂, hnode, hpart⟩ := exists_of_block_cons_completes h
    rw [List.cons_append, block_cons_yields hnode]
    exact ih hpart

/-- A block that completes has parts that complete. -/
theorem exists_of_block_append_completes
    (h : (block (part ++ rest)).Yields m (.ok .completed m')) :
    ∃ m₁, (block part).Yields m (.ok .completed m₁)
      ∧ (block rest).Yields m₁ (.ok .completed m') := by
  induction part generalizing m with
  | nil => exact ⟨m, block_nil_yields.mpr rfl, h⟩
  | cons node part ih =>
    obtain ⟨m₂, hnode, hpart⟩ := exists_of_block_cons_completes h
    obtain ⟨m₁, hpart, hrest⟩ := ih hpart
    exact ⟨m₁, (block_cons_yields hnode).mpr hpart, hrest⟩

theorem block_cons_asks {task : Task} :
    (block (node :: rest)).Asks m task m' ↔ (task = execute node ∧ m' = m)
      ∨ task = block rest ∧ (execute node).Yields m (.ok .completed m') := by
  refine Plan.asks_ask_bind.trans (or_congr_right ⟨?_, ?_⟩)
  · intro hcons
    obtain ⟨flow, m₁, hnode, hasks⟩ := hcons
    by_cases hflow : flow = .completed
    · subst hflow
      obtain ⟨rfl, rfl⟩ := Plan.asks_ask.mp hasks
      exact ⟨rfl, hnode⟩
    · rw [if_neg hflow] at hasks
      cases hasks
  · intro hfirst
    obtain ⟨rfl, hnode⟩ := hfirst
    exact ⟨.completed, m', hnode, Plan.asks_ask.mpr ⟨rfl, rfl⟩⟩

/-- The first step of a run to another task. -/
theorem Visits.eq_or_asks {task task' : Task} (h : task.Visits m task' m') :
    (task' = task ∧ m' = m)
      ∨ ∃ task'' m'', task.Asks m task'' m'' ∧ task''.Visits m'' task' m' := by
  induction h with
  | here => exact .inl ⟨rfl, rfl⟩
  | further hvisits hasks ih =>
    rcases ih with ⟨rfl, rfl⟩ | ⟨task'', m'', hfirst, hvisits⟩
    · exact .inr ⟨_, _, hasks, .here⟩
    · exact .inr ⟨task'', m'', hfirst, hvisits.further hasks⟩

theorem Visits.of_asks {task task' task'' : Task} {m'' : Machine σ} (hasks : task.Asks m task'' m'')
    (h : task''.Visits m'' task' m') : task.Visits m task' m' :=
  Visits.trans (Visits.here.further hasks) h

/-- **The tasks of two parts:** those of the first part, what is left of the block in the first
part, and after it those of the second part. -/
theorem Visits.of_block_append {task : Task} (h : (block (part ++ rest)).Visits m task m') :
    (block part).Visits m task m'
      ∨ (∃ part', task = block (part' ++ rest) ∧ (block part).Visits m (block part') m')
      ∨ ∃ m₁, (block part).Yields m (.ok .completed m₁) ∧ (block rest).Visits m₁ task m' := by
  induction part generalizing m with
  | nil => exact .inr (.inr ⟨m, block_nil_yields.mpr rfl, h⟩)
  | cons node part ih =>
    rcases h.eq_or_asks with ⟨rfl, rfl⟩ | ⟨task'', m'', hasks, hvisits⟩
    · exact .inr (.inl ⟨node :: part, rfl, .here⟩)
    · rcases block_cons_asks.mp hasks with ⟨rfl, rfl⟩ | ⟨rfl, hnode⟩
      · exact .inl (.of_asks (block_cons_asks.mpr (.inl ⟨rfl, rfl⟩)) hvisits)
      · have hnext : (block (node :: part)).Asks m (block part) m'' :=
          block_cons_asks.mpr (.inr ⟨rfl, hnode⟩)
        rcases ih hvisits with hpart | ⟨part', htask, hpart⟩ | ⟨m₁, hpart, hrest⟩
        · exact .inl (.of_asks hnext hpart)
        · exact .inr (.inl ⟨part', htask, .of_asks hnext hpart⟩)
        · exact .inr (.inr ⟨m₁, (block_cons_yields hnode).mpr hpart, hrest⟩)

end Block

/-! ### Loops -/

section Loop

variable {test : Node} {body : List Node} {value : Value}

theorem loop_asks_block :
    (loop test body).Asks m (block body) m'
      ↔ ∃ value, (evaluate test).Yields m (.ok value m') ∧ value.isTruthy = true := by
  constructor
  · intro h
    rcases Plan.asks_ask_bind.mp h with ⟨⟨⟩, -⟩ | ⟨value, m₁, hvalue, hasks⟩
    cases htruthy : value.isTruthy with
    | false =>
      rw [htruthy] at hasks
      cases hasks
    | true =>
      rw [htruthy] at hasks
      rcases Plan.asks_ask_bind.mp hasks with ⟨-, rfl⟩ | ⟨flow, m₂, -, hasks⟩
      · exact ⟨value, hvalue, htruthy⟩
      · by_cases hflow : flow = .completed
        · rw [if_pos hflow] at hasks
          cases (Plan.asks_ask.mp hasks).1
        · rw [if_neg hflow] at hasks
          cases hasks
  · intro htest
    obtain ⟨value, hvalue, htruthy⟩ := htest
    refine Plan.asks_ask_bind.mpr (.inr ⟨value, m', hvalue, ?_⟩)
    rw [htruthy]
    exact Plan.asks_ask_bind.mpr (.inl ⟨rfl, rfl⟩)

/-- A loop goes on after a round that completed. -/
theorem loop_asks_loop :
    (loop test body).Asks m (loop test body) m'
      ↔ ∃ m₁, (loop test body).Asks m (block body) m₁
        ∧ (block body).Yields m₁ (.ok .completed m') := by
  constructor
  · intro h
    rcases Plan.asks_ask_bind.mp h with ⟨⟨⟩, -⟩ | ⟨value, m₁, hvalue, hasks⟩
    cases htruthy : value.isTruthy with
    | false =>
      rw [htruthy] at hasks
      cases hasks
    | true =>
      rw [htruthy] at hasks
      rcases Plan.asks_ask_bind.mp hasks with ⟨⟨⟩, -⟩ | ⟨flow, m₂, hround, hasks⟩
      by_cases hflow : flow = .completed
      · subst hflow
        obtain ⟨-, rfl⟩ := Plan.asks_ask.mp hasks
        exact ⟨m₁, loop_asks_block.mpr ⟨value, hvalue, htruthy⟩, hround⟩
      · rw [if_neg hflow] at hasks
        cases hasks
  · intro hbegins
    obtain ⟨m₁, hasks, hround⟩ := hbegins
    obtain ⟨value, hvalue, htruthy⟩ := loop_asks_block.mp hasks
    refine Plan.asks_ask_bind.mpr (.inr ⟨value, m₁, hvalue, ?_⟩)
    rw [htruthy]
    refine Plan.asks_ask_bind.mpr (.inr ⟨.completed, m', hround, ?_⟩)
    exact Plan.asks_ask.mpr ⟨rfl, rfl⟩

/-- The rounds of a `dla` loop are those of a loop. -/
theorem perform_asks_loop {name : String} {line : SourceLine} {task : Task} :
    (perform (.loop test body (some name) line)).Asks m task m'
      ↔ task = loop test body ∧ m' = m := by
  refine Plan.asks_ask_bind.trans (or_iff_left ?_)
  intro hlater
  obtain ⟨flow, m₁, -, h⟩ := hlater
  obtain ⟨-, m₂, -, h⟩ := Plan.asks_act_bind h
  cases h

/-- After its rounds a `dla` loop removes the iterator. -/
theorem perform_yields_of_loop {name : String} {line : SourceLine} {flow : Flow}
    (h : (loop test body).Yields m (.ok flow m₁)) :
    (perform (.loop test body (some name) line)).Yields m (.ok flow
      ((m₁.withMemory (m₁.memory.delete name m₁.scope)).record (.removed name m₁.scope))) := by
  refine yields_iff.mpr ⟨id, Plan.ends_ask_bind h ?_⟩
  exact Plan.ends_act_bind rfl (Plan.ends_pure.mpr rfl)

/-- A loop whose test fails completes. -/
theorem loop_yields_of_test (hvalue : (evaluate test).Yields m (.ok value m'))
    (htruthy : value.isTruthy = false) : (loop test body).Yields m (.ok .completed m') := by
  refine yields_iff.mpr ⟨id, Plan.ends_ask_bind hvalue ?_⟩
  rw [htruthy]
  exact Plan.ends_pure.mpr rfl

/-- A round decides how a loop goes on. -/
theorem loop_yields_of_round {flow : Flow} {outcome : Conclusion σ Flow}
    (hbegins : (loop test body).Asks m (block body) m₁)
    (hround : (block body).Yields m₁ (.ok flow m'))
    (h : if flow = .completed then (loop test body).Yields m' outcome
      else outcome = .ok (if flow = .rangeExhausted then .completed else flow) m') :
    (loop test body).Yields m outcome := by
  obtain ⟨value, hvalue, htruthy⟩ := loop_asks_block.mp hbegins
  refine yields_iff.mpr ⟨?_, Plan.ends_ask_bind hvalue ?_⟩
  · split at h
    · exact h.1
    · rw [h]
      exact id
  · rw [htruthy]
    refine Plan.ends_ask_bind hround ?_
    split at h
    · rename_i hflow
      rw [if_pos hflow]
      exact Plan.ends_ask.mpr h
    · rename_i hflow
      rw [if_neg hflow]
      exact Plan.ends_pure.mpr h

/-- The rounds of a loop up to an outcome. -/
inductive LoopsTo (test : Node) (body : List Node) : Machine σ → Conclusion σ Flow → Prop
  | testInterrupted {m m' : Machine σ} {e : Interruption}
      (htest : (evaluate test).Yields m (.error e m')) : LoopsTo test body m (.error e m')
  | testFails {m m' : Machine σ} {value : Value} (htest : (evaluate test).Yields m (.ok value m'))
      (htruthy : value.isTruthy = false) : LoopsTo test body m (.ok .completed m')
  | bodyInterrupted {m m₁ m' : Machine σ} {e : Interruption}
      (hbegins : (loop test body).Asks m (block body) m₁)
      (hround : (block body).Yields m₁ (.error e m')) : LoopsTo test body m (.error e m')
  | leaves {m m₁ m' : Machine σ} {flow : Flow} (hbegins : (loop test body).Asks m (block body) m₁)
      (hround : (block body).Yields m₁ (.ok flow m')) (hflow : flow ≠ .completed) :
      LoopsTo test body m (.ok (if flow = .rangeExhausted then .completed else flow) m')
  | again {m m₁ m₂ : Machine σ} {outcome : Conclusion σ Flow}
      (hbegins : (loop test body).Asks m (block body) m₁)
      (hround : (block body).Yields m₁ (.ok .completed m₂))
      (hloop : LoopsTo test body m₂ outcome) : LoopsTo test body m outcome

/-- **Whatever a loop yields, its rounds lead to it.** -/
theorem loop_yields {outcome : Conclusion σ Flow} (h : (loop test body).Yields m outcome) :
    LoopsTo test body m outcome := by
  obtain ⟨hfinished, fuel, hrun⟩ := h
  induction fuel generalizing m with
  | zero =>
    subst hrun
    exact absurd trivial hfinished
  | succ fuel ih =>
    simp only [run, executeLoop, bind, EStateM.bind] at hrun
    cases htest : Tablica.evaluate fuel test m with
    | error e m₁ =>
      rw [htest] at hrun
      obtain rfl : outcome = .error e m₁ := hrun.symm
      rw [EStateM.Result.isUnfinished_error] at hfinished
      exact .testInterrupted ⟨mt EStateM.Result.isUnfinished_error.mp hfinished, fuel, htest⟩
    | ok value m₁ =>
      have hvalue : (evaluate test).Yields m (.ok value m₁) := ⟨id, fuel, htest⟩
      rw [htest] at hrun
      cases htruthy : value.isTruthy with
      | false =>
        simp only [htruthy] at hrun
        subst hrun
        exact .testFails hvalue htruthy
      | true =>
        have hbegins : (loop test body).Asks m (block body) m₁ :=
          loop_asks_block.mpr ⟨value, hvalue, htruthy⟩
        simp only [htruthy, if_true, EStateM.bind] at hrun
        cases hbody : executeBlock fuel body m₁ with
        | error e m₂ =>
          rw [hbody] at hrun
          obtain rfl : outcome = .error e m₂ := hrun.symm
          exact .bodyInterrupted hbegins ⟨hfinished, fuel, hbody⟩
        | ok flow m₂ =>
          have hround : (block body).Yields m₁ (.ok flow m₂) := ⟨id, fuel, hbody⟩
          rw [hbody] at hrun
          cases flow with
          | completed => exact .again hbegins hround (ih hrun)
          | returned | exit | rangeExhausted =>
            subst hrun
            exact .leaves hbegins hround Flow.noConfusion

end Loop

end Tablica.Task
