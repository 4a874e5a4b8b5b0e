import Tablica.Proofs.Execution.Rounds
import Tablica.Proofs.Syntax.Equality

/-!
# The end of a `dla` loop

When its rounds are over a `dla` loop removes the iterator.  It is there to be removed: the rounds
leave the cell in its place, and the name still means it.

    bind a
    test, body, count, …      the rounds
    remove                    unless `koniec` interrupted a test

`koniec` in the body ends a statement of the body, and the loop ends with the flow of that
statement.  But a test is an expression, and `koniec` in a call that the last value makes
interrupts the loop before it comes to remove anything.

* `RangeLoop.IsStopped` — `koniec` interrupts a test;
* `RangeLoop.isStopped_iff` — the rounds are interrupted by `koniec` if and only if a test is;
* `RangeLoop.binds_of_loop_yields` — the rounds leave the iterator where it was bound;
* `iterators_are_gone_after_their_loop` — so the iterator is gone, unless a test was interrupted.
-/

namespace Tablica

variable {σ : Type}

namespace RangeLoop

variable [Console σ] {loop : RangeLoop} {m m₀ m₁ m' : Machine σ} {k : Nat}

/-- The last value is asked for and `koniec` interrupts the answer. -/
def IsStopped (loop : RangeLoop) (m₀ : Machine σ) : Prop :=
  ∃ k m m', loop.Arrives m₀ k m ∧ (Task.evaluate loop.last).Yields m (.error .stop m')

/-- The iterator is read without harm, so `koniec` interrupts a test in the last value only. -/
theorem test_yields_stop :
    (Task.evaluate loop.test).Yields m (.error .stop m')
      ↔ (Task.evaluate loop.last).Yields m (.error .stop m') := by
  have hname := Task.evaluate_var_yields (m := m) loop.name
  constructor
  · intro h
    rcases Plan.ends_bind.mp (Task.yields_iff.mp h).2 with
      ⟨left, m₁, hleft, hrest⟩ | ⟨e, m₁, hleft, -⟩
    · cases (Plan.ends_ask.mp hleft).unique hname
      rcases Plan.ends_bind.mp hrest with ⟨right, m₂, -, happly⟩ | ⟨e, m₂, hlast, heq⟩
      · have happly := Plan.ends_act.mp happly
        rcases Action.ofExcept_cases loop.line (Value.apply .lessOrEqual
          (m.memory.get loop.name m.scope) right) m₂ with ⟨_, -, hrun⟩ | ⟨_, -, hrun⟩
        · cases happly.trans hrun
        · cases happly.trans hrun
      · cases heq
        exact Plan.ends_ask.mp hlast
    · cases (Plan.ends_ask.mp hleft).unique hname
  · intro h
    refine Task.yields_iff.mpr ⟨id, Plan.ends_ask_bind hname ?_⟩
    exact Plan.ends_bind.mpr (.inr ⟨_, _, Plan.ends_ask.mpr h, rfl⟩)

/-! ### The rounds -/

/-- What a loop yields from a test on it yields from the start. -/
theorem Arrives.loop_yields {outcome : Conclusion σ Flow} (h : loop.Arrives m₀ k m)
    (hloop : (Task.loop loop.test loop.rounds).Yields m outcome) :
    (Task.loop loop.test loop.rounds).Yields (m₀.record (.started loop.node)) outcome := by
  induction h with
  | first hperform hasks =>
    obtain ⟨-, rfl⟩ := Task.execute_asks.mp hperform
    obtain ⟨-, rfl⟩ := Task.perform_asks_loop.mp hasks
    exact hloop
  | next _ hasks ih =>
    obtain ⟨m₁, hbegins, hround⟩ := Task.loop_asks_loop.mp hasks
    exact ih (Task.loop_yields_of_round hbegins hround hloop)

/-- A loop that `koniec` interrupts is interrupted at a test. -/
theorem isStopped_of_loopsTo {outcome : Conclusion σ Flow} (harrives : loop.Arrives m₀ k m)
    (h : Task.LoopsTo loop.test loop.rounds m outcome) (houtcome : outcome = .error .stop m') :
    loop.IsStopped m₀ := by
  induction h generalizing k with
  | testInterrupted htest =>
    cases houtcome
    exact ⟨k, _, m', harrives, test_yields_stop.mp htest⟩
  | bodyInterrupted _ hround =>
    cases houtcome
    exact absurd hround Task.not_block_yields_stop
  | again hbegins hround _ ih =>
    exact ih (.next harrives (Task.loop_asks_loop.mpr ⟨_, hbegins, hround⟩)) houtcome
  | testFails | leaves => cases houtcome

/-- **`koniec` interrupts the rounds if and only if it interrupts a test.** -/
theorem isStopped_iff : loop.IsStopped m₀ ↔
    ∃ m', (Task.loop loop.test loop.rounds).Yields (m₀.record (.started loop.node))
      (.error .stop m') := by
  constructor
  · intro hstopped
    obtain ⟨k, m, m', harrives, hlast⟩ := hstopped
    refine ⟨m', harrives.loop_yields (Task.yields_iff.mpr ⟨id, ?_⟩)⟩
    have htest := test_yields_stop.mpr hlast
    exact Plan.ends_bind.mpr (.inr ⟨_, _, Plan.ends_ask.mpr htest, rfl⟩)
  · intro hinterrupted
    obtain ⟨m', hloop⟩ := hinterrupted
    exact isStopped_of_loopsTo arrives_zero (Task.loop_yields hloop) rfl

/-- The rounds leave the iterator where it was bound, whatever they yield. -/
theorem binds_of_loop_yields {outcome : Conclusion σ Flow}
    (hbefore : (conduct.and (guarding {})).before (.execute loop.node) m₀)
    (h : (Task.loop loop.test loop.rounds).Yields (m₀.record (.started loop.node)) outcome) :
    outcome.machine.Binds loop.name
      ∧ outcome.machine.place loop.name = m₀.place loop.name := by
  have hvisits : (Task.execute loop.node).Visits m₀ (.loop loop.test loop.rounds)
      (m₀.record (.started loop.node)) :=
    .further (.further .here (Task.execute_asks.mpr ⟨rfl, rfl⟩))
      (Task.perform_asks_loop.mpr ⟨rfl, rfl⟩)
  have hloop := (guarding_valid {}).before hvisits hbefore
  have hbinds : (m₀.record (.started loop.node)).Binds loop.name :=
    hloop.2.advances _ ⟨loop.line, List.mem_append_right _ List.mem_cons_self⟩
  have hspares := ((guarding_valid {}).after h hloop).2.1
  exact ⟨hspares.binds hbinds fun hremoves => hremoves.2,
    hspares.places _ hbinds fun hremoves => hremoves.2⟩

/-- What holds before a loop of a program is executed whose initializer was executed. -/
theorem guarded_of_bound {console : σ} {program : List Node} (hprogram : IsParsed program)
    (hloop : HasLoop loop program) (hm : Reachable IsParsed console m)
    (hbound : (Task.execute loop.initializer).Yields m (.ok .completed m₀)) :
    (conduct.and (guarding {})).before (.execute loop.node) m₀ := by
  obtain ⟨hfirst, hlast, inRoutine, hbody⟩ := hloop.isRead hprogram.isBlock.isBody
  have hinitializer : (conduct.and (guarding {})).before (.execute loop.initializer) m :=
    ⟨⟨hm.disciplined, ⟨inRoutine, .inl (.initializer hfirst)⟩,
      hm.isSound Console.refuses_any trivial⟩, .of_empty nofun nofun⟩
  obtain ⟨⟨hbalanced, hsound⟩, -, htells⟩ := (guarding_valid {}).after hbound hinitializer
  obtain ⟨hbinds, -⟩ := htells loop.name loop.first loop.line m₀ rfl rfl
  exact guarded_of_binds hlast hbody (Machine.Balanced.disciplined hbalanced) hsound.2 hbinds

/-- What a `dla` loop does that answers a flow: its rounds end and it removes the iterator, or
`koniec` interrupts a test. -/
theorem execute_yields_cases {flow : Flow}
    (h : (Task.execute loop.node).Yields m₀ (.ok flow m')) :
    (∃ m₁, (Task.loop loop.test loop.rounds).Yields (m₀.record (.started loop.node)) (.ok flow m₁)
        ∧ m' = (m₁.withMemory (m₁.memory.delete loop.name m₁.scope)).record
          (.removed loop.name m₁.scope))
      ∨ flow = .exit
        ∧ (Task.loop loop.test loop.rounds).Yields (m₀.record (.started loop.node))
          (.error .stop m') := by
  rcases Task.execute_yields_cases h with ⟨hperform, -⟩ | ⟨m₁, hperform, heq⟩
  · rcases Plan.ends_bind.mp (Task.yields_iff.mp hperform).2 with
      ⟨flow', m₁, hloop, hremove⟩ | ⟨e, m₁, -, heq⟩
    · rcases Plan.ends_bind.mp hremove with ⟨_, m₂, hrun, hpure⟩ | ⟨e, m₂, -, heq⟩
      · cases Plan.ends_act.mp hrun
        cases Plan.ends_pure.mp hpure
        exact .inl ⟨m₁, Plan.ends_ask.mp hloop, rfl⟩
      · cases heq
    · cases heq
  · cases heq
    rcases Plan.ends_bind.mp (Task.yields_iff.mp hperform).2 with
      ⟨flow', m₁, -, hremove⟩ | ⟨e, m₁, hloop, heq⟩
    · rcases Plan.ends_bind.mp hremove with ⟨_, m₂, -, hpure⟩ | ⟨e, m₂, hrun, heq⟩
      · cases Plan.ends_pure.mp hpure
      · cases heq
        cases Plan.ends_act.mp hrun
    · cases heq
      exact .inr ⟨rfl, Plan.ends_ask.mp hloop⟩

end RangeLoop

/-- **The iterator is gone when its loop is over**, however the loop answers a flow, unless
`koniec` interrupts a test.  Then the flow is that of `koniec`, and the iterator is still there. -/
theorem iterators_are_gone_after_their_loop [Console σ] {console : σ} {m m₀ m' : Machine σ}
    {program : List Node} {loop : RangeLoop} {flow : Flow} (hprogram : IsParsed program)
    (hloop : HasLoop loop program) (hm : Reachable IsParsed console m)
    (hbound : (Task.execute loop.initializer).Yields m (.ok .completed m₀))
    (hended : (Task.execute loop.node).Yields m₀ (.ok flow m')) :
    (¬ loop.IsStopped m₀ → m'.memory.cellAt (m₀.place loop.name) loop.name = none)
      ∧ (loop.IsStopped m₀ →
        flow = .exit ∧ m'.memory.IsIteratorAt (m₀.place loop.name) loop.name) := by
  have hguarded := RangeLoop.guarded_of_bound hprogram hloop hm hbound
  rcases RangeLoop.execute_yields_cases hended with ⟨m₁, hrounds, rfl⟩ | ⟨hexit, hrounds⟩
  · obtain ⟨-, hplace⟩ := RangeLoop.binds_of_loop_yields hguarded hrounds
    refine ⟨fun _ => ?_, fun hstopped => ?_⟩
    · show (m₁.memory.delete loop.name m₁.scope).cellAt (m₀.place loop.name) loop.name = none
      rw [Memory.cellAt_delete, if_pos ⟨hplace.symm, rfl⟩]
    · obtain ⟨m₂, hinterrupted⟩ := RangeLoop.isStopped_iff.mp hstopped
      cases hinterrupted.unique hrounds
  · refine ⟨fun hnot => absurd (RangeLoop.isStopped_iff.mpr ⟨m', hrounds⟩) hnot, fun _ => ?_⟩
    obtain ⟨hstays, hplace⟩ := RangeLoop.binds_of_loop_yields hguarded hrounds
    refine ⟨hexit, ?_⟩
    rw [← hplace]
    exact hstays

/-! ### A function that ends the program -/

section Koniec

/-- A program that defines a function with `koniec` as its body. -/
def stopper : List Node :=
  [.routine "f" [] [.command .stop none ⟨2, "\tkoniec"⟩, .endOfLine] false ⟨1, "funkcja f()"⟩]

/-- The machine after the definition. -/
def stoppable : Machine Transcript :=
  (run 5 stopper { console := {} }).2

theorem stopper_isParsed : IsParsed stopper :=
  ⟨Token.defaultRange, "funkcja f()\n\tkoniec\n", Program.parse_eq_ok (by decide +kernel)⟩

theorem stoppable_reachable : Reachable IsParsed {} stoppable :=
  .atRest (.ran .fresh stopper_isParsed (by decide +kernel))

/-- A loop from one to two that calls the function in its body. -/
def stoppedInBody : RangeLoop where
  line := ⟨1, "dla i := 1 ... 2 wykonuj"⟩
  name := "i"
  first := .number .one
  last := .number ⟨2, by decide, by decide⟩
  body := [.call "f" [] ⟨2, "\tf()"⟩, .endOfLine]

/-- `koniec` in a call of the body ends the loop, and the iterator is gone. -/
theorem iterators_are_gone_after_koniec :
    let loop := stoppedInBody
    let m₀ := ((Task.execute loop.initializer).run 5 stoppable).machine
    let m' := ((Task.execute loop.node).run 15 m₀).machine
    Program.parse Token.defaultRange "dla i := 1 ... 2 wykonuj\n\tf()\n"
        = .ok [loop.initializer, loop.node]
      ∧ (Task.execute loop.initializer).Yields stoppable (.ok .completed m₀)
      ∧ (Task.execute loop.node).Yields m₀ (.ok .exit m')
      ∧ m'.memory.cellAt (m₀.place loop.name) loop.name = none := by
  intro loop m₀ m'
  have hparse : Program.parse Token.defaultRange "dla i := 1 ... 2 wykonuj\n\tf()\n"
      = .ok [loop.initializer, loop.node] := Program.parse_eq_ok (by decide +kernel)
  have hbound : (Task.execute loop.initializer).Yields stoppable (.ok .completed m₀) :=
    Task.yields_of_answer (by decide +kernel)
  have hended : (Task.execute loop.node).Yields m₀ (.ok .exit m') :=
    Task.yields_of_answer (by decide +kernel)
  refine ⟨hparse, hbound, hended, ?_⟩
  refine (iterators_are_gone_after_their_loop ⟨_, _, hparse⟩ (.here [] []) stoppable_reachable
    hbound hended).1 fun hstopped => ?_
  obtain ⟨k, m, m₁, -, hlast⟩ := hstopped
  cases hlast.unique (Task.evaluate_number_yields _)

/-- A loop that calls the function for its last value. -/
def stoppedInTest : RangeLoop where
  line := ⟨1, "dla i := 1 ... f() wykonuj"⟩
  name := "i"
  first := .number .one
  last := .call "f" [] ⟨1, "dla i := 1 ... f() wykonuj"⟩
  body := [.var "i" [], .endOfLine]

/-- `koniec` in a call for the last value ends the loop too, but the iterator is still there. -/
theorem iterator_outlives_its_loop :
    let loop := stoppedInTest
    let m₀ := ((Task.execute loop.initializer).run 5 stoppable).machine
    let m' := ((Task.execute loop.node).run 15 m₀).machine
    Program.parse Token.defaultRange "dla i := 1 ... f() wykonuj\n\ti\n"
        = .ok [loop.initializer, loop.node]
      ∧ Reachable IsParsed {} stoppable
      ∧ (Task.execute loop.initializer).Yields stoppable (.ok .completed m₀)
      ∧ (Task.execute loop.node).Yields m₀ (.ok .exit m')
      ∧ m'.memory.cellAt (m₀.place loop.name) loop.name = some ⟨.number .one, true⟩ :=
  ⟨Program.parse_eq_ok (by decide +kernel), stoppable_reachable,
    Task.yields_of_answer (by decide +kernel), Task.yields_of_answer (by decide +kernel),
    by decide +kernel⟩

end Koniec

end Tablica
