import Tablica.Proofs.Execution.Course

/-!
# Runs without fuel

A task **yields** an outcome if it ends with it for some fuel.  More fuel changes nothing any
more, so a task yields one outcome at most, and a course can be followed without speaking of fuel:
each of its questions is answered by what the task in question yields.

* `Task.Yields` — a task ends with an outcome;
* `Course.Propagates`, `Task.plan_propagates` — a question that fails, or is not answered, ends a
  course;
* `Task.run_mono` — more fuel changes nothing;
* `Task.yields_iff` — a task yields what its course ends with.
-/

namespace Tablica

variable {σ α β : Type}

/-! ### Unanswered questions -/

/-- A course that ends, interrupted in the same way, as soon as a question fails or is not answered.
Only the interruption by `koniec` can be caught. -/
def Course.Propagates : Course σ α → Prop
  | .ended _ => True
  | .asking _ _ next =>
    (∀ e m, e ≠ .stop → ∃ m', next (.error e m) = .ended (.error e m'))
      ∧ ∀ outcome, (next outcome).Propagates

theorem Course.Propagates.bind {c : Course σ α} {f : Conclusion σ α → Course σ β}
    (hc : c.Propagates)
    (hf : ∀ e m, e ≠ .stop → ∃ m', f (.error e m) = .ended (.error e m'))
    (hnext : ∀ outcome, (f outcome).Propagates) : (c.bind f).Propagates := by
  induction c with
  | ended outcome => exact hnext outcome
  | asking task m next ih =>
    refine ⟨fun e m he => ?_, fun outcome => ih outcome (hc.2 outcome)⟩
    obtain ⟨m', hm'⟩ := hc.1 e m he
    obtain ⟨m'', hm''⟩ := hf e m' he
    exact ⟨m'', by simp only [hm', Course.bind, hm'']⟩

/-- A plan all of whose courses end at a question that fails or is not answered. -/
def Plan.Propagates (p : Plan σ α) : Prop := ∀ m, (p m).Propagates

namespace Plan.Propagates

theorem pure (a : α) : Propagates (pure a : Plan σ α) := fun _ => trivial

theorem act (action : Action σ α) : Propagates (Plan.act action) := fun _ => trivial

theorem ask (task : Task) : Propagates (Plan.ask task : Plan σ task.Answer) :=
  fun _ => ⟨fun _ m _ => ⟨m, rfl⟩, fun _ => trivial⟩

theorem bind {p : Plan σ α} {f : α → Plan σ β} (hp : p.Propagates)
    (hf : ∀ a, (f a).Propagates) : (p >>= f).Propagates := fun m =>
  (hp m).bind (fun _ m _ => ⟨m, rfl⟩) fun
    | .ok a m => hf a m
    | .error _ _ => trivial

theorem ite {c : Prop} [Decidable c] {p q : Plan σ α} (hp : p.Propagates) (hq : q.Propagates) :
    (if c then p else q).Propagates := by
  split <;> assumption

theorem catchStop {p : Plan σ Flow} (hp : p.Propagates) : (Plan.catchStop p).Propagates :=
  fun m => (hp m).bind (fun e m he => ⟨m, by cases e <;> first | rfl | exact absurd rfl he⟩)
    fun outcome => by
      cases outcome with
      | ok => trivial
      | error e => cases e <;> trivial

theorem inFrame {p : Plan σ α} (frame : Frame) (hp : p.Propagates) :
    (Plan.inFrame frame p).Propagates := fun m =>
  (hp _).bind (fun _ m _ => ⟨Action.leave frame.scope m, rfl⟩) fun outcome => by
    cases outcome <;> trivial

end Plan.Propagates

open Plan.Propagates in
theorem Node.evaluation_propagates (node : Node) :
    (node.evaluation : Plan σ Value).Propagates := by
  cases node with
  | var => exact (ask _).bind fun _ => act _
  | operation => exact (ask _).bind fun _ => (ask _).bind fun _ => act _
  | call => exact ask _
  | _ => exact fun _ => trivial

open Plan.Propagates in
theorem Node.execution_propagates [Console σ] (node : Node) :
    (node.execution : Plan σ Flow).Propagates := by
  cases node with
  | assignment =>
    exact (ask _).bind fun _ => (ask _).bind fun _ => (act _).bind fun _ => pure _
  | command command argument line =>
    cases command with
    | print =>
      cases argument with
      | none => exact pure _
      | some => exact (ask _).bind fun _ => (act _).bind fun _ => pure _
    | read =>
      cases argument with
      | none => exact act _
      | some node =>
        cases node with
        | var =>
          exact (act _).bind fun _ => (ask _).bind fun _ => (act _).bind fun _ => pure _
        | _ => exact act _
    | stop => exact pure _
  | condition test thenBlock elseBlock line =>
    refine (ask _).bind fun _ => ite (ask _) ?_
    cases elseBlock with
    | none => exact pure _
    | some => exact ask _
  | loop test body iterator line =>
    cases iterator with
    | none => exact ask _
    | some => exact (ask _).bind fun _ => (act _).bind fun _ => pure _
  | routine => exact (act _).bind fun _ => pure _
  | giveBack value line =>
    cases value with
    | none => exact pure _
    | some => exact (ask _).bind fun _ => (act _).bind fun _ => pure _
  | increment => exact act _
  | endOfLine => exact pure _
  | _ => exact (ask _).bind fun _ => pure _

open Plan.Propagates in
/-- The course of every task ends at a question that fails or is not answered. -/
theorem Task.plan_propagates [Console σ] (task : Task) :
    (task.plan : Plan σ task.Answer).Propagates := by
  cases task with
  | evaluate node => exact node.evaluation_propagates
  | evaluateAll nodes =>
    cases nodes with
    | nil => exact pure _
    | cons => exact (ask _).bind fun _ => (ask _).bind fun _ => pure _
  | keyOf => exact (ask _).bind fun _ => pure _
  | call =>
    exact (act _).bind fun _ => (ask _).bind fun _ => (act _).bind fun _ =>
      ((ask _).inFrame _).bind fun _ => act _
  | execute => exact (act _).bind fun _ => (ask _).catchStop
  | perform node => exact node.execution_propagates
  | block nodes =>
    cases nodes with
    | nil => exact pure _
    | cons => exact (ask _).bind fun _ => ite (ask _) (pure _)
  | loop => exact (ask _).bind fun _ => ite ((ask _).bind fun _ => ite (ask _) (pure _)) (pure _)

/-! ### More fuel -/

section Settling

variable {answer answer' : (task : Task) → Action σ task.Answer}

/-- A question whose answer is unfinished leaves its whole course unfinished. -/
theorem Course.settle_isUnfinished {task : Task} {m : Machine σ}
    {next : Conclusion σ task.Answer → Course σ α} (hc : (Course.asking task m next).Propagates)
    (h : (answer task m).IsUnfinished) :
    ((Course.asking task m next).settle answer).IsUnfinished := by
  simp only [Course.settle]
  cases houtcome : answer task m with
  | ok a m' => rw [houtcome] at h; exact h.elim
  | error e m' =>
    rw [houtcome] at h
    cases e with
    | outOfFuel =>
      obtain ⟨m'', hm''⟩ := hc.1 .outOfFuel m' nofun
      rw [hm'']
      exact trivial
    | stop => exact h.elim
    | failed => exact h.elim

/-- Answers that agree wherever the first ones are finished settle a course alike. -/
theorem Course.settle_congr {c : Course σ α} (hc : c.Propagates)
    (hanswer : ∀ task m, ¬ (answer task m).IsUnfinished → answer' task m = answer task m)
    (h : ¬ (c.settle answer).IsUnfinished) : c.settle answer' = c.settle answer := by
  induction c with
  | ended outcome => rfl
  | asking task m next ih =>
    have hfinished : ¬ (answer task m).IsUnfinished :=
      fun hunfinished => h (settle_isUnfinished hc hunfinished)
    simp only [Course.settle, hanswer task m hfinished]
    exact ih _ (hc.2 _) h

end Settling

section Yields

variable [Console σ]

/-- **More fuel changes nothing** once a task is finished. -/
theorem Task.run_mono {task : Task} {m : Machine σ} {fuel fuel' : Nat} (hle : fuel ≤ fuel')
    (h : ¬ (task.run fuel m).IsUnfinished) : task.run fuel' m = task.run fuel m := by
  have hsucc : ∀ (fuel : Nat) (task : Task) (m : Machine σ),
      ¬ (task.run fuel m).IsUnfinished → task.run (fuel + 1) m = task.run fuel m := by
    intro fuel
    induction fuel with
    | zero =>
      intro task m h
      rcases task.run_zero m with hzero | hplan
      · rw [hzero] at h
        exact absurd trivial h
      · rw [run_succ, Plan.settle, hplan]
        rfl
    | succ fuel ih =>
      intro task m h
      rw [run_succ] at h ⊢
      rw [run_succ]
      exact Course.settle_congr (task.plan_propagates m) ih h
  induction hle with
  | refl => rfl
  | step _ ih => rw [hsucc _ task m (by rw [ih]; exact h), ih]

/-- A task ends with an outcome. -/
def Task.Yields (task : Task) (m : Machine σ) (outcome : Conclusion σ task.Answer) : Prop :=
  ¬ outcome.IsUnfinished ∧ ∃ fuel, task.run fuel m = outcome

theorem Task.yields_of_run {task : Task} {m : Machine σ} {fuel : Nat}
    (h : ¬ (task.run fuel m).IsUnfinished) : task.Yields m (task.run fuel m) :=
  ⟨h, fuel, rfl⟩

/-- A task yields what its run, when it is computed, answers. -/
theorem Task.yields_of_answer {task : Task} {m : Machine σ} {fuel : Nat} {a : task.Answer}
    (h : (task.run fuel m).answer? = some a) :
    task.Yields m (.ok a (task.run fuel m).machine) := by
  cases hrun : task.run fuel m with
  | ok a' m' =>
    rw [hrun] at h
    obtain rfl : a' = a := Option.some.inj h
    exact ⟨id, fuel, hrun⟩
  | error e m' =>
    rw [hrun] at h
    cases h

/-- A task yields at most one outcome. -/
theorem Task.Yields.unique {task : Task} {m : Machine σ} {o o' : Conclusion σ task.Answer}
    (h : task.Yields m o) (h' : task.Yields m o') : o = o' := by
  obtain ⟨hfinished, fuel, rfl⟩ := h
  obtain ⟨hfinished', fuel', rfl⟩ := h'
  rcases Nat.le_total fuel fuel' with hle | hle
  · exact (run_mono hle hfinished).symm
  · exact run_mono hle hfinished'

/-- A course ends with an outcome when its questions are answered by what the tasks yield. -/
inductive Course.Ends : Course σ α → Conclusion σ α → Prop
  | ended (outcome : Conclusion σ α) : Ends (.ended outcome) outcome
  | asking {task : Task} {m : Machine σ} {next : Conclusion σ task.Answer → Course σ α}
      {answer : Conclusion σ task.Answer} {outcome : Conclusion σ α}
      (hanswer : task.Yields m answer)
      (hnext : Ends (next answer) outcome) : Ends (.asking task m next) outcome

/-- Fuel that settles a course settles it as what the tasks yield. -/
theorem Course.ends_settle {c : Course σ α} (hc : c.Propagates) {fuel : Nat}
    (h : ¬ (c.settle (answers fuel)).IsUnfinished) : c.Ends (c.settle (answers fuel)) := by
  induction c with
  | ended outcome => exact .ended outcome
  | asking task m next ih =>
    have hfinished : ¬ (answers fuel task m).IsUnfinished :=
      fun hunfinished => h (settle_isUnfinished hc hunfinished)
    exact .asking (Task.yields_of_run hfinished) (ih _ (hc.2 _) h)

/-- What a course ends with it is settled to by enough fuel. -/
theorem Course.Ends.settle {c : Course σ α} (hc : c.Propagates) {outcome : Conclusion σ α}
    (h : c.Ends outcome) (hfinished : ¬ outcome.IsUnfinished) :
    ∃ fuel, c.settle (answers fuel) = outcome := by
  induction h with
  | ended outcome => exact ⟨0, rfl⟩
  | @asking task m next answer outcome hanswer _ ih =>
    obtain ⟨fuel, hfuel⟩ := ih (hc.2 answer) hfinished
    obtain ⟨hanswered, fuel', hfuel'⟩ := hanswer
    refine ⟨max fuel fuel', ?_⟩
    have hrun : answers (max fuel fuel') task m = answer := by
      rw [← hfuel'] at hanswered ⊢
      exact Task.run_mono (Nat.le_max_right _ _) hanswered
    rw [Course.settle, hrun, ← hfuel]
    refine settle_congr (hc.2 answer) (fun task m h => ?_) (by rw [hfuel]; exact hfinished)
    exact Task.run_mono (Nat.le_max_left _ _) h

/-- **A task yields what its course ends with.** -/
theorem Task.yields_iff {task : Task} {m : Machine σ} {outcome : Conclusion σ task.Answer} :
    task.Yields m outcome ↔ ¬ outcome.IsUnfinished ∧ (task.plan m).Ends outcome := by
  constructor
  · intro hyields
    obtain ⟨hfinished, fuel, rfl⟩ := hyields
    refine ⟨hfinished, ?_⟩
    cases fuel with
    | zero =>
      rcases task.run_zero m with hzero | hplan
      · rw [hzero] at hfinished
        exact absurd trivial hfinished
      · rw [hplan]
        exact .ended _
    | succ fuel =>
      rw [run_succ] at hfinished ⊢
      exact Course.ends_settle (task.plan_propagates m) hfinished
  · intro hended
    obtain ⟨hfinished, hends⟩ := hended
    obtain ⟨fuel, hfuel⟩ := hends.settle (task.plan_propagates m) hfinished
    exact ⟨hfinished, fuel + 1, by rw [run_succ]; exact hfuel⟩

/-! ### How plans end -/

theorem Course.ends_ended {outcome outcome' : Conclusion σ α} :
    (Course.ended outcome).Ends outcome' ↔ outcome' = outcome := by
  constructor
  · intro h
    cases h
    rfl
  · intro heq
    subst heq
    exact .ended _

/-- A course that goes on with another one ends as that one does where the first one ends. -/
theorem Course.ends_bind {c : Course σ α} {f : Conclusion σ α → Course σ β}
    {outcome : Conclusion σ β} :
    (c.bind f).Ends outcome ↔ ∃ outcome', c.Ends outcome' ∧ (f outcome').Ends outcome := by
  constructor
  · intro h
    induction c with
    | ended outcome' => exact ⟨outcome', .ended outcome', h⟩
    | asking task m next ih =>
      cases h with
      | asking hanswer hnext =>
        obtain ⟨outcome', hends, hf⟩ := ih _ hnext
        exact ⟨outcome', .asking hanswer hends, hf⟩
  · intro hbind
    obtain ⟨outcome', hends, hf⟩ := hbind
    induction hends with
    | ended => exact hf
    | asking hanswer _ ih => exact .asking hanswer (ih hf)

namespace Plan

variable {m : Machine σ}

theorem ends_pure {a : α} {outcome : Conclusion σ α} :
    ((pure a : Plan σ α) m).Ends outcome ↔ outcome = .ok a m := Course.ends_ended

theorem ends_act {action : Action σ α} {outcome : Conclusion σ α} :
    (act action m).Ends outcome ↔ outcome = action m := Course.ends_ended

theorem ends_ask {task : Task} {outcome : Conclusion σ task.Answer} :
    (ask task m).Ends outcome ↔ task.Yields m outcome := by
  constructor
  · intro h
    cases h with
    | asking hanswer hnext => rwa [Course.ends_ended.mp hnext]
  · exact fun h => .asking h (.ended outcome)

theorem ends_bind {p : Plan σ α} {f : α → Plan σ β} {outcome : Conclusion σ β} :
    ((p >>= f) m).Ends outcome ↔
      (∃ a m', (p m).Ends (.ok a m') ∧ (f a m').Ends outcome)
        ∨ ∃ e m', (p m).Ends (.error e m') ∧ outcome = .error e m' := by
  refine Course.ends_bind.trans ⟨?_, ?_⟩
  · intro hbind
    obtain ⟨outcome', hends, hf⟩ := hbind
    cases outcome' with
    | ok a m' => exact .inl ⟨a, m', hends, hf⟩
    | error e m' => exact .inr ⟨e, m', hends, Course.ends_ended.mp hf⟩
  · intro hbind
    rcases hbind with ⟨a, m', hends, hf⟩ | ⟨e, m', hends, rfl⟩
    · exact ⟨.ok a m', hends, hf⟩
    · exact ⟨.error e m', hends, .ended _⟩

section Bind

variable {m' : Machine σ} {a : α} {f : α → Plan σ β} {outcome : Conclusion σ β}

theorem ends_ask_bind {task : Task} {a : task.Answer} {f : task.Answer → Plan σ β}
    (h : task.Yields m (.ok a m')) (hnext : (f a m').Ends outcome) :
    ((ask task >>= f) m).Ends outcome :=
  ends_bind.mpr (.inl ⟨a, m', ends_ask.mpr h, hnext⟩)

theorem ends_act_bind {action : Action σ α} (h : action m = .ok a m')
    (hnext : (f a m').Ends outcome) : ((act action >>= f) m).Ends outcome :=
  ends_bind.mpr (.inl ⟨a, m', ends_act.mpr h.symm, hnext⟩)

theorem ends_act_bind_of_error {action : Action σ α} {e : Interruption}
    (h : action m = .error e m') : ((act action >>= f) m).Ends (.error e m') :=
  ends_bind.mpr (.inr ⟨e, m', ends_act.mpr h.symm, rfl⟩)

end Bind

end Plan

end Yields

end Tablica
