import Tablica.Proofs.Execution.Fuel

/-!
# Contracts of tasks

A **contract** says what has to hold of a machine before a task, and what holds of the outcome
afterwards.  It is *valid* if the course of every task keeps it: the course asks for a task only
where the contract's condition holds, and if all answers are as the contract promises, so is the
end.  That is one step, without recursion.  By induction over the fuel a valid contract then holds
of whatever a task yields, and its condition holds wherever a task is **visited** in a run.

The states of a machine that occur at all are those between two runs and those before and after
every task that is visited in a run.

* `Contract`, `Course.Keeps` — contracts, and what a course must do to keep one;
* `Task.Visits`, `Task.Visits.fails` — the tasks of a run and their machines, and that the failure
  of one of them is a failure of the run;
* `Contract.Valid.after`, `Contract.Valid.before` — what follows from one step;
* `Contract.Valid.and` — a contract on top of a valid one;
* `AtRest`, `Reachable` — the states that occur;
* `AtRest.invariant` — what a program and a flush keep holds between two runs.
-/

namespace Tablica

variable {σ α β : Type}

/-- A condition on the machine before a task and a promise about its outcome. -/
structure Contract (σ : Type) where
  before : Task → Machine σ → Prop
  after : (task : Task) → Machine σ → Conclusion σ task.Answer → Prop

/-- A course asks only where the contract's condition holds, and reaches the goal if the answers
are as promised. -/
def Course.Keeps (K : Contract σ) (goal : Conclusion σ α → Prop) : Course σ α → Prop
  | .ended outcome => goal outcome
  | .asking task m next =>
    K.before task m ∧ ∀ outcome, K.after task m outcome → (next outcome).Keeps K goal

namespace Course

variable {K : Contract σ} {goal goal' : Conclusion σ α → Prop}

theorem Keeps.mono {c : Course σ α} (h : c.Keeps K goal)
    (himp : ∀ outcome, goal outcome → goal' outcome) : c.Keeps K goal' := by
  induction c with
  | ended outcome => exact himp outcome h
  | asking task m next ih => exact ⟨h.1, fun outcome ho => ih outcome (h.2 outcome ho)⟩

theorem Keeps.bind {c : Course σ α} {f : Conclusion σ α → Course σ β} {goal : Conclusion σ β → Prop}
    (h : c.Keeps K fun outcome => (f outcome).Keeps K goal) : (c.bind f).Keeps K goal := by
  induction c with
  | ended outcome => exact h
  | asking task m next ih => exact ⟨h.1, fun outcome ho => ih outcome (h.2 outcome ho)⟩

end Course

/-- Two contracts at once. -/
def Contract.and (K L : Contract σ) : Contract σ where
  before task m := K.before task m ∧ L.before task m
  after task m outcome := K.after task m outcome ∧ L.after task m outcome

/-- A contract when another one is known to be kept. -/
def Contract.under (K L : Contract σ) : Contract σ where
  before task m := K.before task m → L.before task m
  after task m outcome := K.after task m outcome ∧ L.after task m outcome

namespace Course

variable {K L : Contract σ} {c : Course σ α} {goal goal' : Conclusion σ α → Prop}

theorem Keeps.and (h : c.Keeps K goal) (h' : c.Keeps (K.under L) goal') :
    c.Keeps (K.and L) fun outcome => goal outcome ∧ goal' outcome := by
  induction c with
  | ended outcome => exact ⟨h, h'⟩
  | asking task m next ih =>
    exact ⟨⟨h.1, h'.1 h.1⟩, fun outcome ho => ih outcome (h.2 outcome ho.1) (h'.2 outcome ho)⟩

/-- What is kept by itself is kept when more is known. -/
theorem Keeps.under (h : c.Keeps L goal) : c.Keeps (K.under L) goal := by
  induction c with
  | ended outcome => exact h
  | asking task m next ih => exact ⟨fun _ => h.1, fun outcome ho => ih outcome (h.2 outcome ho.2)⟩

end Course

/-! ### Plans that keep a contract -/

namespace Plan

variable {K : Contract σ} {m : Machine σ}

theorem keeps_act {action : Action σ α} {goal : Conclusion σ α → Prop} (h : goal (action m)) :
    (act action m).Keeps K goal := h

theorem keeps_ask {task : Task} {goal : Conclusion σ task.Answer → Prop} (hb : K.before task m)
    (ha : ∀ outcome, K.after task m outcome → goal outcome) : (ask task m).Keeps K goal :=
  ⟨hb, ha⟩

theorem keeps_bind {p : Plan σ α} {f : α → Plan σ β} {goal : Conclusion σ β → Prop}
    (h : (p m).Keeps K fun
      | .ok a m => (f a m).Keeps K goal
      | .error e m => goal (.error e m)) : ((p >>= f) m).Keeps K goal :=
  Course.Keeps.bind (h.mono fun outcome ho => by cases outcome <;> exact ho)

/-- A task, and then a plan that goes on with its answer. -/
theorem keeps_ask_bind {task : Task} {f : task.Answer → Plan σ β} {goal : Conclusion σ β → Prop}
    (hb : K.before task m)
    (hok : ∀ a m', K.after task m (.ok a m') → (f a m').Keeps K goal)
    (herror : ∀ e m', K.after task m (.error e m') → goal (.error e m')) :
    ((ask task >>= f) m).Keeps K goal :=
  keeps_bind (keeps_ask hb fun outcome ho => by
    cases outcome with
    | ok a m' => exact hok a m' ho
    | error e m' => exact herror e m' ho)

/-- An action, and then a plan that goes on with its result. -/
theorem keeps_act_bind {action : Action σ α} {f : α → Plan σ β} {goal : Conclusion σ β → Prop}
    (h : match action m with
      | .ok a m => (f a m).Keeps K goal
      | .error e m => goal (.error e m)) : ((act action >>= f) m).Keeps K goal :=
  keeps_bind (keeps_act (by
    revert h
    cases action m <;> exact id))

end Plan

/-! ### The tasks of a run -/

section Visits

variable [Console σ]

/-- A course asks for a task, on a machine, when its earlier questions are answered. -/
inductive Course.Asks : Course σ α → Task → Machine σ → Prop
  | now {task : Task} {m : Machine σ} {next : Conclusion σ task.Answer → Course σ α} :
      Asks (.asking task m next) task m
  | later {task task' : Task} {m m' : Machine σ} {next : Conclusion σ task.Answer → Course σ α}
      {outcome : Conclusion σ task.Answer} (hyields : task.Yields m outcome)
      (hasks : Asks (next outcome) task' m') : Asks (.asking task m next) task' m'

/-- A course that goes on with another one asks what the first one asks, and what the other one
asks where the first one ends. -/
theorem Course.asks_bind {c : Course σ α} {f : Conclusion σ α → Course σ β} {task : Task}
    {m : Machine σ} (h : (c.bind f).Asks task m) :
    c.Asks task m ∨ ∃ outcome, c.Ends outcome ∧ (f outcome).Asks task m := by
  induction c with
  | ended outcome => exact .inr ⟨outcome, .ended outcome, h⟩
  | asking task' m' next ih =>
    cases h with
    | now => exact .inl .now
    | later hyields hasks =>
      rcases ih _ hasks with hasks | ⟨outcome, hends, hasks⟩
      · exact .inl (.later hyields hasks)
      · exact .inr ⟨outcome, .asking hyields hends, hasks⟩

namespace Plan

variable {m m' : Machine σ} {task task' : Task}

/-- The same for plans: the second one goes on with a result of the first one. -/
theorem asks_bind {p : Plan σ α} {f : α → Plan σ β} (h : ((p >>= f) m).Asks task m') :
    (p m).Asks task m' ∨ ∃ a m'', (p m).Ends (.ok a m'') ∧ (f a m'').Asks task m' := by
  rcases Course.asks_bind h with hasks | ⟨outcome, hends, hasks⟩
  · exact .inl hasks
  · cases outcome with
    | ok a m'' => exact .inr ⟨a, m'', hends, hasks⟩
    | error e m'' => cases hasks

theorem asks_act_bind {action : Action σ α} {f : α → Plan σ β}
    (h : ((act action >>= f) m).Asks task m') :
    ∃ a m'', action m = .ok a m'' ∧ (f a m'').Asks task m' := by
  rcases asks_bind h with hasks | ⟨a, m'', hends, hasks⟩
  · cases hasks
  · refine ⟨a, m'', ?_, hasks⟩
    generalize houtcome : (.ok a m'' : Conclusion σ α) = outcome at hends
    cases hends
    rfl

theorem asks_act_bind_of {action : Action σ α} {f : α → Plan σ β} {a : α} {m₁ : Machine σ}
    (h : action m = .ok a m₁) (hasks : (f a m₁).Asks task m') :
    ((act action >>= f) m).Asks task m' := by
  simp only [bind, act, Course.bind, h]
  exact hasks

theorem asks_ask : (ask task m).Asks task' m' ↔ task' = task ∧ m' = m := by
  constructor
  · intro h
    cases h with
    | now => exact ⟨rfl, rfl⟩
    | later _ hasks => cases hasks
  · intro heq
    obtain ⟨rfl, rfl⟩ := heq
    exact .now

/-- A plan that begins with a task asks for it, and then for what its answer leads to. -/
theorem asks_ask_bind {f : task.Answer → Plan σ β} :
    ((ask task >>= f) m).Asks task' m' ↔ (task' = task ∧ m' = m)
      ∨ ∃ a m₁, task.Yields m (.ok a m₁) ∧ (f a m₁).Asks task' m' := by
  constructor
  · intro h
    rcases asks_bind h with hasks | ⟨a, m₁, hends, hasks⟩
    · exact .inl (asks_ask.mp hasks)
    · exact .inr ⟨a, m₁, ends_ask.mp hends, hasks⟩
  · intro hasks
    rcases hasks with ⟨rfl, rfl⟩ | ⟨a, m₁, hyields, hasks⟩
    · exact .now
    · exact .later hyields hasks

end Plan

/-- A task asks for another one. -/
def Task.Asks (task : Task) (m : Machine σ) (task' : Task) (m' : Machine σ) : Prop :=
  (task.plan m).Asks task' m'

/-- A run of a task comes to a task: the task itself, or one that a visited task asks for. -/
inductive Task.Visits (task : Task) (m : Machine σ) : Task → Machine σ → Prop
  | here : Visits task m task m
  | further {task' task'' : Task} {m' m'' : Machine σ} (hvisits : Visits task m task' m')
      (hasks : task'.Asks m' task'' m'') : Visits task m task'' m''

theorem Task.Visits.trans {task task' task'' : Task} {m m' m'' : Machine σ}
    (h : task.Visits m task' m') (h' : task'.Visits m' task'' m'') : task.Visits m task'' m'' := by
  induction h' with
  | here => exact h
  | further _ hasks ih => exact ih.further hasks

/-- A course ends with the failure of a task that it asks for. -/
theorem Course.Asks.fails {c : Course σ α} {task : Task} {m ended : Machine σ}
    {error : ExecutionError} (hasks : c.Asks task m) (hc : c.Propagates)
    (hyields : task.Yields m (.error (.failed error) ended)) :
    ∃ ended', c.Ends (.error (.failed error) ended') := by
  induction hasks with
  | now =>
    obtain ⟨ended', hnext⟩ := hc.1 (.failed error) ended nofun
    exact ⟨ended', .asking hyields (hnext ▸ .ended _)⟩
  | later hanswer _ ih =>
    obtain ⟨ended', hends⟩ := ih (hc.2 _) hyields
    exact ⟨ended', .asking hanswer hends⟩

/-- **Failures are not caught.**  A task fails if one that it visits does, with the same error. -/
theorem Task.Visits.fails {task task' : Task} {m m' ended : Machine σ} {error : ExecutionError}
    (h : task.Visits m task' m') (hyields : task'.Yields m' (.error (.failed error) ended)) :
    ∃ ended', task.Yields m (.error (.failed error) ended') := by
  induction h generalizing ended with
  | here => exact ⟨ended, hyields⟩
  | @further task' _ m' _ _ hasks ih =>
    obtain ⟨ended', hends⟩ := Course.Asks.fails hasks (task'.plan_propagates m') hyields
    exact ih (Task.yields_iff.mpr ⟨id, hends⟩)

/-- A contract that the course of every task keeps. -/
def Contract.Valid (K : Contract σ) : Prop :=
  ∀ task m, K.before task m → (task.plan m).Keeps K (K.after task m)

namespace Contract.Valid

variable {K : Contract σ}

/-- **A valid contract holds** of every outcome that a task yields. -/
theorem after (hK : K.Valid) {task : Task} {m : Machine σ} {outcome : Conclusion σ task.Answer}
    (h : task.Yields m outcome) (hb : K.before task m) : K.after task m outcome := by
  obtain ⟨hfinished, fuel, rfl⟩ := h
  induction fuel generalizing task m with
  | zero =>
    have hkeeps := hK task m hb
    rcases task.run_zero m with hzero | hplan
    · rw [hzero] at hfinished
      exact absurd trivial hfinished
    · rw [hplan] at hkeeps
      exact hkeeps
  | succ fuel ih =>
    have hcourse : ∀ {α : Type} (c : Course σ α) (goal : Conclusion σ α → Prop), c.Propagates →
        c.Keeps K goal → ¬ (c.settle (answers fuel)).IsUnfinished →
        goal (c.settle (answers fuel)) := by
      intro α c goal hc hkeeps h
      induction c with
      | ended outcome => exact hkeeps
      | asking task m next ihc =>
        have hanswered : ¬ (answers fuel task m).IsUnfinished :=
          fun hunfinished => h (Course.settle_isUnfinished hc hunfinished)
        exact ihc _ (hc.2 _) (hkeeps.2 _ (ih hkeeps.1 hanswered)) h
    rw [Task.run_succ] at hfinished ⊢
    exact hcourse _ _ (task.plan_propagates m) (hK task m hb) hfinished

/-- A valid contract whose promise unfinished outcomes keep anyway holds for every fuel. -/
theorem after_run (hK : K.Valid)
    (hunfinished : ∀ task m, K.before task m → K.after task m (.error .outOfFuel m))
    {task : Task} {m : Machine σ} (hb : K.before task m) (fuel : Nat) :
    K.after task m (task.run fuel m) := by
  induction fuel generalizing task m with
  | zero =>
    rcases task.run_zero m with hzero | hplan
    · rw [hzero]
      exact hunfinished task m hb
    · have hkeeps := hK task m hb
      rw [hplan] at hkeeps
      exact hkeeps
  | succ fuel ih =>
    have hcourse : ∀ {α : Type} (c : Course σ α) (goal : Conclusion σ α → Prop),
        c.Keeps K goal → goal (c.settle (answers fuel)) := by
      intro α c goal hkeeps
      induction c with
      | ended outcome => exact hkeeps
      | asking task m next ihc => exact ihc _ (hkeeps.2 _ (ih hkeeps.1))
    rw [Task.run_succ]
    exact hcourse _ _ (hK task m hb)

/-- A course that keeps a valid contract asks only where its condition holds. -/
theorem before_of_keeps (hK : K.Valid) {c : Course σ α} {goal : Conclusion σ α → Prop}
    {task : Task} {m : Machine σ} (hasks : c.Asks task m) (hkeeps : c.Keeps K goal) :
    K.before task m := by
  induction hasks with
  | now => exact hkeeps.1
  | later hyields _ ih => exact ih (hkeeps.2 _ (hK.after hyields hkeeps.1))

/-- **The condition of a valid contract holds at every visit.** -/
theorem before (hK : K.Valid) {task task' : Task} {m m' : Machine σ}
    (h : task.Visits m task' m') (hb : K.before task m) : K.before task' m' := by
  induction h with
  | here => exact hb
  | further _ hasks ih => exact hK.before_of_keeps hasks (hK _ _ ih)

end Contract.Valid

/-- A contract that relies on a valid one need only be kept where that one is. -/
theorem Contract.Valid.and {K L : Contract σ} (hK : K.Valid)
    (hL : ∀ task m, K.before task m → L.before task m →
      (task.plan m).Keeps (K.under L) (L.after task m)) : (K.and L).Valid :=
  fun task m hb => (hK task m hb.1).and (hL task m hb.1 hb.2)

/-! ### The states that occur -/

/-- A run that ends is one of the block, and a flush at last. -/
theorem exists_yields_of_run {fuel : Nat} {program : List Node} {m : Machine σ}
    (h : (run fuel program m).1 ≠ .unfinished) :
    ∃ outcome, (Task.block program).Yields m outcome
      ∧ (run fuel program m).2 = (Action.flush outcome.machine : Conclusion σ Unit).machine := by
  refine ⟨(Task.block program).run fuel m, ?_⟩
  have hblock : (Task.block program).run fuel m = executeBlock fuel program m := rfl
  unfold run at h ⊢
  rw [← hblock] at h ⊢
  cases houtcome : (Task.block program).run fuel m with
  | ok flow m' =>
    rw [houtcome] at h
    refine ⟨houtcome ▸ Task.yields_of_run (by rw [houtcome]; exact id), ?_⟩
    cases flow <;> simp only [Verdict.ofFlow, reduceCtorEq, if_false, EStateM.Result.machine_ok] <;>
      cases (Action.flush m' : Conclusion σ Unit) <;> rfl
  | error interruption m' =>
    rw [houtcome] at h
    cases interruption with
    | outOfFuel => exact absurd rfl h
    | stop | failed =>
      refine ⟨houtcome ▸ Task.yields_of_run (by rw [houtcome]; exact id), ?_⟩
      simp only [Verdict.ofInterruption, reduceCtorEq, if_false, EStateM.Result.machine_error]
      cases (Action.flush m' : Conclusion σ Unit) <;> rfl

/-- The machines between two runs, when every program that is run is admitted.  The first one is
fresh. -/
inductive AtRest (admits : List Node → Prop) (console : σ) : Machine σ → Prop
  | fresh : AtRest admits console { console }
  | ran {m : Machine σ} {program : List Node} {fuel : Nat} (hm : AtRest admits console m)
      (hprogram : admits program) (hended : (run fuel program m).1 ≠ .unfinished) :
      AtRest admits console (run fuel program m).2

/-- What holds of a fresh machine, and after a block and a flush if it holds before, holds between
two runs. -/
theorem AtRest.invariant {admits : List Node → Prop} {console : σ} {m : Machine σ}
    {P : Machine σ → Prop} (h : AtRest admits console m) (hfresh : P { console })
    (hblock : ∀ m program outcome, admits program → (Task.block program).Yields m outcome →
      P m → P outcome.machine)
    (hflush : ∀ m, P m → P (Action.flush m : Conclusion σ Unit).machine) : P m := by
  induction h with
  | fresh => exact hfresh
  | ran _ hprogram hended ih =>
    obtain ⟨outcome, hyields, hrun⟩ := exists_yields_of_run hended
    rw [hrun]
    exact hflush _ (hblock _ _ outcome hprogram hyields ih)

/-- The machines that occur: those between two runs, and those before and after every task that is
visited in a run. -/
inductive Reachable (admits : List Node → Prop) (console : σ) : Machine σ → Prop
  | atRest {m : Machine σ} (hm : AtRest admits console m) : Reachable admits console m
  | before {m m' : Machine σ} {program : List Node} {task : Task} (hm : AtRest admits console m)
      (hprogram : admits program) (hvisits : (Task.block program).Visits m task m') :
      Reachable admits console m'
  | after {m m' : Machine σ} {program : List Node} {task : Task}
      {outcome : Conclusion σ task.Answer} (hm : AtRest admits console m)
      (hprogram : admits program) (hvisits : (Task.block program).Visits m task m')
      (hyields : task.Yields m' outcome) : Reachable admits console outcome.machine

end Visits

end Tablica
