import Tablica.Proofs.Execution.Blocks
import Tablica.Proofs.Execution.Guard

/-!
# The rounds of a `dla` loop

A `dla` loop binds its iterator to the first value, and before each round it compares the iterator
with the last value.  Each round executes the body and then counts:

    bind a      the initializer
    test        a ≤ last
    body
    count       a + 1, or the range is exhausted
    test        a + 1 ≤ last
    ...

Since every task of the body spares the iterators that it finds, the iterator reads in each round
what the counter left.  When the last value is always the same, this decides how many rounds there
are; at the greatest number the counter fails, and this ends the loop as the test does elsewhere.

* `RangeLoop.Arrives`, `RangeLoop.Begins` — the rounds of a run;
* `RangeLoop.Reads` — what the iterator reads;
* `RangeLoop.IsUndisturbed` — no task of the body changes the iterator;
* `range_loops_visit_their_range` — which rounds there are, and that they are undisturbed.
-/

namespace Tablica

variable {σ : Type}

/-- Numbers are compared as integers. -/
theorem Value.apply_lessOrEqual (l r : Number) :
    apply .lessOrEqual (number l) (number r) = .ok (ofBool (l.val ≤ r.val)) := by
  have hholds : holds .lessOrEqual (compare l.val r.val) = decide (l.val ≤ r.val) := by
    have horder : compare l.val r.val ≠ .gt ↔ l.val ≤ r.val := by
      rw [ne_eq, Int.compare_eq_gt, Int.not_lt]
    simp only [holds, horder]
  rw [← hholds]
  rfl

namespace RangeLoop

/-- What is executed in a round. -/
def rounds (loop : RangeLoop) : List Node :=
  loop.body ++ [loop.counter]

/-- The iterator lies at the place and reads an integer. -/
def Reads (loop : RangeLoop) (place : Option ScopeId) (n : Int) (m : Machine σ) : Prop :=
  m.place loop.name = place ∧ ∃ number : Number, number.val = n
    ∧ m.memory.cellAt place loop.name = some ⟨.number number, true⟩

section Rounds

variable [Console σ]

/-- The loop that was started on a machine arrives at the test before a round. -/
inductive Arrives (loop : RangeLoop) (m : Machine σ) : Nat → Machine σ → Prop
  | first {m₁ m' : Machine σ} (hperform : (Task.execute loop.node).Asks m (.perform loop.node) m₁)
      (hasks : (Task.perform loop.node).Asks m₁ (.loop loop.test loop.rounds) m') :
      Arrives loop m 0 m'
  | next {k : Nat} {m₁ m' : Machine σ} (harrives : Arrives loop m k m₁)
      (hasks : (Task.loop loop.test loop.rounds).Asks m₁ (.loop loop.test loop.rounds) m') :
      Arrives loop m (k + 1) m'

/-- The loop that was started on a machine begins a round. -/
def Begins (loop : RangeLoop) (m : Machine σ) (k : Nat) (m' : Machine σ) : Prop :=
  ∃ m₁, loop.Arrives m k m₁ ∧ (Task.loop loop.test loop.rounds).Asks m₁ (.block loop.rounds) m'

end Rounds

end RangeLoop

/-- A statement attempts to write a key: what it has to do before is done. -/
inductive Node.Attempts [Console σ] : Node → Machine σ → String → SourceLine → Machine σ → Prop
  | assignment {name key : String} {indices : List Node} {value : Node} {isIterator : Bool}
      {line : SourceLine} {v : Value} {m m₁ m₂ : Machine σ}
      (hvalue : (Task.evaluate value).Yields m (.ok v m₁))
      (hkey : (Task.keyOf name indices).Yields m₁ (.ok key m₂)) :
      Attempts (.assignment name indices value isIterator line) m key line m₂
  | read {name key input : String} {indices : List Node} {line : SourceLine}
      {m m₁ m₂ : Machine σ} (hinput : Action.ask s!"{name}: " m = .ok input m₁)
      (hkey : (Task.keyOf name indices).Yields m₁ (.ok key m₂)) :
      Attempts (.command .read (some (.var name indices)) line) m key line m₂

/-- An attempt evaluates the key that it concerns. -/
theorem Node.Attempts.exists_keyOf [Console σ] {node : Node} {key : String} {line : SourceLine}
    {m m' : Machine σ} (h : node.Attempts m key line m') :
    ∃ name indices m₁, (Task.perform node).Asks m (.keyOf name indices) m₁
      ∧ (Task.keyOf name indices).Yields m₁ (.ok key m') := by
  cases h with
  | assignment hvalue hkey =>
    refine ⟨_, _, _, Plan.asks_ask_bind.mpr (.inr ⟨_, _, hvalue, ?_⟩), hkey⟩
    exact Plan.asks_ask_bind.mpr (.inl ⟨rfl, rfl⟩)
  | read hinput hkey =>
    refine ⟨_, _, _, Plan.asks_act_bind_of hinput ?_, hkey⟩
    exact Plan.asks_ask_bind.mpr (.inl ⟨rfl, rfl⟩)

/-! ### What the iterator reads -/

namespace RangeLoop

variable {loop : RangeLoop} {place : Option ScopeId} {n : Int} {m m₁ : Machine σ}

theorem Reads.find? (h : loop.Reads place n m) : ∃ number : Number, number.val = n
    ∧ m.memory.find? loop.name m.scope = some ⟨.number number, true⟩ := by
  obtain ⟨rfl, number, hn, hcell⟩ := h
  exact ⟨number, hn, by rw [Memory.find?_eq_cellAt]; exact hcell⟩

theorem Reads.binds (h : loop.Reads place n m) : m.Binds loop.name := by
  obtain ⟨rfl, number, -, hcell⟩ := h
  rw [Machine.Binds, Memory.IsIteratorAt, hcell]
  rfl

theorem Reads.sparesAll (h : loop.Reads place n m) (hspares : m.SparesAll m₁) :
    loop.Reads place n m₁ := by
  have hbinds := h.binds
  obtain ⟨rfl, number, hn, hcell⟩ := h
  refine ⟨hspares.places loop.name hbinds id, number, hn, ?_⟩
  rw [hspares.cells _ loop.name hbinds id id]
  exact hcell

/-- What is bound to a number reads it. -/
theorem reads_of_binds {number : Number} (hbinds : m.Binds loop.name)
    (hget : m.memory.get loop.name m.scope = .number number) :
    loop.Reads (m.place loop.name) number.val m := by
  refine ⟨rfl, number, rfl, ?_⟩
  have hfind := m.memory.find?_eq_cellAt loop.name m.scope
  rw [Machine.Binds, Memory.IsIteratorAt, Machine.place, ← hfind] at hbinds
  rw [Machine.place, ← hfind]
  rw [Memory.get] at hget
  cases hcell : m.memory.find? loop.name m.scope with
  | none =>
    rw [hcell] at hbinds
    cases hbinds
  | some cell =>
    rw [hcell] at hbinds hget
    obtain ⟨value, isIterator⟩ := cell
    obtain rfl : isIterator = true := hbinds
    obtain rfl : value = .number number := hget
    rfl

theorem Reads.put (h : loop.Reads place n m) {number : Number}
    (hmemory : m₁.memory = m.memory.put loop.name ⟨.number number, true⟩ m.scope)
    (hscope : m₁.scope = m.scope) : loop.Reads place number.val m₁ := by
  have hbinds := h.binds
  obtain ⟨rfl, -⟩ := h
  refine ⟨(Machine.Spares.put (fun _ => rfl) hscope hmemory).places loop.name hbinds id,
    number, rfl, ?_⟩
  rw [hmemory, Memory.cellAt_put, if_pos]
  exact ⟨(Memory.target_eq_home_of_isIteratorAt hbinds).symm, rfl⟩

/-- What holds before a loop is executed whose iterator is bound. -/
theorem guarded_of_binds {inRoutine : Bool} (hlast : IsExpression loop.line loop.last)
    (hbody : IsBlock inRoutine loop.body) (hdisciplined : m.Disciplined)
    (hsound : m.IsSound fun _ => True) (hbinds : m.Binds loop.name) :
    (conduct.and (guarding {})).before (.execute loop.node) m := by
  refine ⟨⟨hdisciplined, ⟨inRoutine, .inl (.range hlast hbody)⟩, hsound⟩, .of_empty nofun ?_⟩
  intro key hfinish
  obtain ⟨test, body, line, heq⟩ := hfinish
  obtain ⟨-, -, hname, -⟩ := Node.loop.inj heq
  exact ⟨Option.some.inj hname ▸ hbinds, nofun⟩

/-! ### A round -/

section Round

variable [Console σ]

/-- The initializer binds the first value, if the name does not mean an iterator already. -/
theorem initializer_yields {value : Value} (hfirst : (Task.evaluate loop.first).Yields
      (m.record (.started loop.initializer)) (.ok value m₁)) (hfree : ¬ m₁.Binds loop.name) :
    ∃ m', (Task.execute loop.initializer).Yields m (.ok .completed m')
      ∧ m'.memory.get loop.name m'.scope = value := by
  have hwrite : m₁.memory.bindIterator loop.name value m₁.scope
      = .ok (m₁.memory.put loop.name ⟨value, true⟩ m₁.scope) :=
    if_neg (mt Memory.isIteratorAt_home.mpr hfree)
  let m' := (m₁.withMemory (m₁.memory.put loop.name ⟨value, true⟩ m₁.scope)).record
    (.assigned loop.name m₁.scope)
  have hperform : (Task.perform loop.initializer).Yields (m.record (.started loop.initializer))
      (.ok .completed m') := by
    refine Task.yields_iff.mpr ⟨id, Plan.ends_ask_bind hfirst ?_⟩
    refine Plan.ends_ask_bind (Task.keyOf_nil_yields loop.name) ?_
    exact Plan.ends_act_bind (Action.store_of_ok hwrite) (Plan.ends_pure.mpr rfl)
  refine ⟨m', Task.execute_yields hperform, ?_⟩
  show Memory.get (m₁.memory.put loop.name ⟨value, true⟩ m₁.scope) loop.name m₁.scope = value
  rw [Memory.get, Memory.find?_put]
  rfl

/-- The counter adds one, or the range is exhausted. -/
theorem counter_yields (h : loop.Reads place n m) :
    (∃ m', (Task.block [loop.counter]).Yields m (.ok .completed m') ∧ loop.Reads place (n + 1) m')
      ∨ n = 9223372036854775807
        ∧ ∃ m', (Task.block [loop.counter]).Yields m (.ok .rangeExhausted m') := by
  have hexecute : ∀ flow m',
      Action.increment loop.name loop.line (m.record (.started loop.counter)) = .ok flow m' →
        (Task.execute loop.counter).Yields m (.ok flow m') := fun flow m' hrun =>
    Task.execute_yields (Task.yields_iff.mpr ⟨id, Plan.ends_act.mpr hrun.symm⟩)
  obtain ⟨number, rfl, hfind⟩ := h.find?
  have hget : m.memory.get loop.name m.scope = .number number := by
    rw [Memory.get, hfind]
    rfl
  rcases Memory.increment_number hget with ⟨number', hn', hincrement⟩ | ⟨hgreatest, hincrement⟩
  · rw [hfind] at hincrement
    have hcounter := hexecute _ _ (Action.increment_of_ok hincrement)
    refine .inl ⟨_, (Task.block_cons_yields hcounter).mpr (Task.block_nil_yields.mpr rfl), ?_⟩
    rw [← hn']
    exact h.put rfl rfl
  · have hcounter := hexecute _ _ (Action.increment_of_overflow hincrement)
    refine .inr ⟨hgreatest, _, Task.block_cons_yields_of_ne hcounter ?_⟩
    intro hcompleted
    cases hcompleted

/-- The test compares what the iterator reads with the last value. -/
theorem test_yields (h : loop.Reads place n m) {b : Number}
    (hlast : (Task.evaluate loop.last).Yields m (.ok (.number b) m₁)) :
    (Task.evaluate loop.test).Yields m (.ok (.ofBool (n ≤ b.val)) m₁) := by
  obtain ⟨number, rfl, hfind⟩ := h.find?
  have hname : (Task.evaluate (.var loop.name [])).Yields m (.ok (.number number) m) := by
    have hget : m.memory.get loop.name m.scope = .number number := by
      rw [Memory.get, hfind]
      rfl
    rw [← hget]
    exact Task.evaluate_var_yields loop.name
  refine Task.yields_iff.mpr ⟨id, Plan.ends_ask_bind hname ?_⟩
  refine Plan.ends_ask_bind hlast (Plan.ends_act.mpr ?_)
  rw [Value.apply_lessOrEqual]
  rfl

/-! ### Every round -/

/-- The test leaves the iterator as it is, so the body begins with it. -/
theorem reads_of_asks (hbefore : (conduct.and (guarding {})).before (.loop loop.test loop.rounds) m)
    (hreads : loop.Reads place n m)
    (hasks : (Task.loop loop.test loop.rounds).Asks m (.block loop.rounds) m₁) :
    loop.Reads place n m₁ := by
  obtain ⟨value, hvalue, -⟩ := Task.loop_asks_block.mp hasks
  have htest : (Task.loop loop.test loop.rounds).Asks m (.evaluate loop.test) m :=
    Plan.asks_ask_bind.mpr (.inl ⟨rfl, rfl⟩)
  have hafter := (guarding_valid {}).after hvalue
    ((guarding_valid {}).before (.further .here htest) hbefore)
  exact hreads.sparesAll (Task.IsFree.sparesAll (fun _ => ⟨id, id⟩) hafter.2.1)

/-- Before the body all iterators are under guard that there are. -/
theorem guarded_body {inRoutine : Bool} (hbody : IsBlock inRoutine loop.body)
    (hbefore : (conduct.and (guarding {})).before (.loop loop.test loop.rounds) m)
    (hasks : (Task.loop loop.test loop.rounds).Asks m (.block loop.rounds) m₁) :
    (conduct.and (guarding m₁.memory)).before (.block loop.body) m₁ := by
  obtain ⟨⟨hdisciplined, -, hsound⟩, -⟩ := (guarding_valid {}).before (.further .here hasks) hbefore
  exact ⟨⟨hdisciplined, ⟨inRoutine, hbody.isPart⟩, hsound⟩,
    hbody.isFree.isReady fun _ _ _ => rfl⟩

/-- The body leaves the iterator as it is, so the counter finds it. -/
theorem reads_of_body {inRoutine : Bool} {m₂ : Machine σ} (hbody : IsBlock inRoutine loop.body)
    (hbefore : (conduct.and (guarding {})).before (.loop loop.test loop.rounds) m)
    (hreads : loop.Reads place n m)
    (hasks : (Task.loop loop.test loop.rounds).Asks m (.block loop.rounds) m₁)
    (hcompletes : (Task.block loop.body).Yields m₁ (.ok .completed m₂)) :
    loop.Reads place n m₂ := by
  have hafter := (guarding_valid m₁.memory).after hcompletes (guarded_body hbody hbefore hasks)
  exact (reads_of_asks hbefore hreads hasks).sparesAll (hbody.isFree.sparesAll hafter.2.1)

/-- **Before the round `k` the iterator reads the first value and `k`.** -/
theorem Arrives.reads {inRoutine : Bool} {k : Nat} {m' : Machine σ}
    (hbody : IsBlock inRoutine loop.body)
    (hbefore : (conduct.and (guarding {})).before (.execute loop.node) m)
    (hreads : loop.Reads place n m) (h : loop.Arrives m k m') :
    (conduct.and (guarding {})).before (.loop loop.test loop.rounds) m'
      ∧ loop.Reads place (n + k) m' := by
  induction h with
  | first hperform hasks =>
    refine ⟨(guarding_valid {}).before (.further (.further .here hperform) hasks) hbefore, ?_⟩
    obtain ⟨-, rfl⟩ := Task.execute_asks.mp hperform
    obtain ⟨-, rfl⟩ := Task.perform_asks_loop.mp hasks
    have hzero : n + (0 : Nat) = n := by omega
    rwa [hzero]
  | @next k m₁ m' _ hasks ih =>
    obtain ⟨hbefore₁, hreads₁⟩ := ih
    refine ⟨(guarding_valid {}).before (.further .here hasks) hbefore₁, ?_⟩
    obtain ⟨m₂, hbegins, hround⟩ := Task.loop_asks_loop.mp hasks
    obtain ⟨m₃, hcompletes, hcounter⟩ := Task.exists_of_block_append_completes hround
    have hreads₃ := reads_of_body hbody hbefore₁ hreads₁ hbegins hcompletes
    rcases counter_yields hreads₃ with ⟨m₄, hcounted, hreads₄⟩ | ⟨-, m₄, hexhausted⟩
    · cases hcounted.unique hcounter
      have hsucc : n + (k + 1 : Nat) = n + k + 1 := by omega
      rwa [hsucc]
    · cases hexhausted.unique hcounter

/-! ### Nothing disturbs the iterator -/

/-- While the body is executed from the machine on, the cell of the iterator stays as it is, from
task to task and from round to counter, and an attempt to write it is an error. -/
structure IsUndisturbed (loop : RangeLoop) (m : Machine σ) : Prop where
  before : ∀ task m', (Task.block loop.body).Visits m task m' →
    m'.memory.cellAt (m.place loop.name) loop.name = m.memory.cellAt (m.place loop.name) loop.name
  after : ∀ task m' outcome, (Task.block loop.body).Visits m task m' → task.Yields m' outcome →
    outcome.machine.memory.cellAt (m.place loop.name) loop.name
      = m.memory.cellAt (m.place loop.name) loop.name
  refused : ∀ node line m' m'', (Task.block loop.body).Visits m (.perform node) m' →
    node.Attempts m' loop.name line m'' → m''.place loop.name = m.place loop.name →
    (Task.perform node).Yields m' (.error (.failed (.runtime ⟨.assignToIterator loop.name, line⟩))
      (m''.failing ⟨.assignToIterator loop.name, line⟩))
  round : ∀ task m', (Task.block loop.rounds).Visits m task m' →
    m'.memory.cellAt (m.place loop.name) loop.name = m.memory.cellAt (m.place loop.name) loop.name
      ∨ ∃ m₁, (Task.block loop.body).Yields m (.ok .completed m₁)
        ∧ (Task.block [loop.counter]).Visits m₁ task m'

/-- An attempt to write an iterator is an error. -/
theorem attempt_yields {node : Node} {key : String} {line : SourceLine} {m' : Machine σ}
    (h : node.Attempts m key line m') (hbinds : m'.Binds key) :
    (Task.perform node).Yields m (.error (.failed (.runtime ⟨.assignToIterator key, line⟩))
      (m'.failing ⟨.assignToIterator key, line⟩)) := by
  have hiterator := Memory.isIteratorAt_home.mp hbinds
  cases h with
  | assignment hvalue hkey =>
    refine Task.yields_iff.mpr ⟨id, Plan.ends_ask_bind hvalue (Plan.ends_ask_bind hkey ?_)⟩
    exact Plan.ends_act_bind_of_error (Action.store_of_error (Memory.write_refused hiterator))
  | read hinput hkey =>
    refine Task.yields_iff.mpr ⟨id, Plan.ends_act_bind hinput (Plan.ends_ask_bind hkey ?_)⟩
    exact Plan.ends_act_bind_of_error (Action.store_of_error (if_pos hiterator))

/-- If all iterators are under guard, the body does not disturb the one of its loop. -/
theorem isUndisturbed_of_guarded
    (hguarded : (conduct.and (guarding m.memory)).before (.block loop.body) m)
    (hbinds : m.Binds loop.name) : loop.IsUndisturbed m := by
  have hready : ∀ task m', (Task.block loop.body).Visits m task m' → task.IsReady m.memory m' :=
    fun task m' hvisits => ((guarding_valid m.memory).before hvisits hguarded).2
  have hbefore : ∀ task m', (Task.block loop.body).Visits m task m' →
      m'.memory.cellAt (m.place loop.name) loop.name
        = m.memory.cellAt (m.place loop.name) loop.name :=
    fun task m' hvisits => (hready task m' hvisits).holds _ _ hbinds
  have hafter : ∀ task m' outcome, (Task.block loop.body).Visits m task m' →
      task.Yields m' outcome → outcome.machine.memory.cellAt (m.place loop.name) loop.name
        = m.memory.cellAt (m.place loop.name) loop.name := by
    intro task m' outcome hvisits hyields
    have hspares := ((guarding_valid m.memory).after hyields
      ((guarding_valid m.memory).before hvisits hguarded)).2.1
    have hcell := hbefore task m' hvisits
    rw [hspares.cells _ _ (hbinds.congr hcell) ((hready task m' hvisits).removes _ _ hbinds)
      ((hready task m' hvisits).moves _ _ hbinds), hcell]
  refine ⟨hbefore, hafter, fun node line m' m'' hvisits hattempts hplace => ?_,
    fun task m' hvisits => ?_⟩
  · obtain ⟨name, indices, m₁, hasks, hkey⟩ := hattempts.exists_keyOf
    have hcell := hafter _ _ _ (hvisits.further hasks) hkey
    refine attempt_yields hattempts ?_
    rw [Machine.Binds, hplace]
    exact hbinds.congr hcell
  · rcases hvisits.of_block_append with hvisits | ⟨part, -, hvisits⟩ | hcounter
    · exact .inl (hbefore task m' hvisits)
    · exact .inl (hbefore _ m' hvisits)
    · exact .inr hcounter

/-! ### How many rounds there are -/

section Count

variable {inRoutine : Bool} {m₀ : Machine σ} {a b : Int} {k : Nat}

/-- The first test comes right after the loop was started. -/
theorem arrives_zero : loop.Arrives m₀ 0 (m₀.record (.started loop.node)) :=
  .first (Task.execute_asks.mpr ⟨rfl, rfl⟩) (Task.perform_asks_loop.mpr ⟨rfl, rfl⟩)

/-- A run of the loop in which all rounds find the same last value and complete. -/
structure IsRegular (loop : RangeLoop) (inRoutine : Bool) (place : Option ScopeId) (a : Int)
    (b : Number) (m₀ : Machine σ) : Prop where
  body : IsBlock inRoutine loop.body
  guarded : (conduct.and (guarding {})).before (.execute loop.node) m₀
  reads : loop.Reads place a m₀
  last : ∀ k m, loop.Arrives m₀ k m → ∃ m', (Task.evaluate loop.last).Yields m (.ok (.number b) m')
  completes : ∀ k m, loop.Begins m₀ k m → ∃ m', (Task.block loop.body).Yields m (.ok .completed m')

variable {b : Number}

/-- A round begins if and only if the iterator has not passed the last value. -/
theorem IsRegular.begins_iff (h : loop.IsRegular inRoutine place a b m₀)
    (harrives : loop.Arrives m₀ k m) :
    (∃ m', (Task.loop loop.test loop.rounds).Asks m (.block loop.rounds) m') ↔ a + k ≤ b.val := by
  obtain ⟨m', hlast⟩ := h.last k m harrives
  have htest := test_yields (harrives.reads h.body h.guarded h.reads).2 hlast
  constructor
  · intro hbegins
    obtain ⟨m₁, hasks⟩ := hbegins
    obtain ⟨value, hvalue, htruthy⟩ := Task.loop_asks_block.mp hasks
    cases hvalue.unique htest
    rw [Value.isTruthy_ofBool] at htruthy
    exact of_decide_eq_true htruthy
  · intro hle
    exact ⟨m', Task.loop_asks_block.mpr ⟨_, htest, by rw [Value.isTruthy_ofBool]; simpa using hle⟩⟩

/-- A loop whose iterator has passed the last value completes. -/
theorem IsRegular.completes_of_passed (h : loop.IsRegular inRoutine place a b m₀)
    (harrives : loop.Arrives m₀ k m) (hpassed : ¬ a + k ≤ b.val) :
    ∃ m', (Task.loop loop.test loop.rounds).Yields m (.ok .completed m') := by
  obtain ⟨m', hlast⟩ := h.last k m harrives
  have htest := test_yields (harrives.reads h.body h.guarded h.reads).2 hlast
  refine ⟨m', Task.loop_yields_of_test htest ?_⟩
  rw [Value.isTruthy_ofBool]
  exact decide_eq_false hpassed

/-- A round ends with the counter, which finds the next number or none. -/
theorem IsRegular.round (h : loop.IsRegular inRoutine place a b m₀)
    (harrives : loop.Arrives m₀ k m)
    (hasks : (Task.loop loop.test loop.rounds).Asks m (.block loop.rounds) m₁) :
    (∃ m', (Task.block loop.rounds).Yields m₁ (.ok .completed m') ∧ loop.Arrives m₀ (k + 1) m')
      ∨ a + k = 9223372036854775807
        ∧ ∃ m', (Task.block loop.rounds).Yields m₁ (.ok .rangeExhausted m') := by
  obtain ⟨m₂, hcompletes⟩ := h.completes k m₁ ⟨m, harrives, hasks⟩
  obtain ⟨hbefore, hreads⟩ := harrives.reads h.body h.guarded h.reads
  rcases counter_yields (reads_of_body h.body hbefore hreads hasks hcompletes) with
    ⟨m', hcounter, -⟩ | ⟨hgreatest, m', hcounter⟩
  · have hround := (Task.block_append_yields hcompletes).mpr hcounter
    exact .inl ⟨m', hround, .next harrives (Task.loop_asks_loop.mpr ⟨m₁, hasks, hround⟩)⟩
  · exact .inr ⟨hgreatest, m', (Task.block_append_yields hcompletes).mpr hcounter⟩

/-- As long as the iterator has not passed the last value there is a test. -/
theorem IsRegular.exists_arrives (h : loop.IsRegular inRoutine place a b m₀)
    (hle : a + k ≤ b.val) : ∃ m, loop.Arrives m₀ k m := by
  induction k with
  | zero => exact ⟨_, arrives_zero⟩
  | succ k ih =>
    have hbefore : a + k < b.val := by omega
    obtain ⟨m, harrives⟩ := ih (Int.le_of_lt hbefore)
    obtain ⟨m₁, hasks⟩ := (h.begins_iff harrives).mpr (Int.le_of_lt hbefore)
    rcases h.round harrives hasks with ⟨m', -, hnext⟩ | ⟨hgreatest, -⟩
    · exact ⟨m', hnext⟩
    · have := b.le_greatest
      omega

/-- **The rounds are those of the range.** -/
theorem IsRegular.exists_begins_iff (h : loop.IsRegular inRoutine place a b m₀) :
    (∃ m, loop.Begins m₀ k m) ↔ k < (b.val - a + 1).toNat := by
  constructor
  · intro hbegins
    obtain ⟨m, m₁, harrives, hasks⟩ := hbegins
    have hle := (h.begins_iff harrives).mp ⟨m, hasks⟩
    omega
  · intro hlt
    have hle : a + k ≤ b.val := by omega
    obtain ⟨m, harrives⟩ := h.exists_arrives hle
    obtain ⟨m', hasks⟩ := (h.begins_iff harrives).mpr hle
    exact ⟨m', m, harrives, hasks⟩

/-- From each test on the loop completes. -/
theorem IsRegular.loop_completes (h : loop.IsRegular inRoutine place a b m₀) (left : Nat) :
    ∀ {k : Nat} {m : Machine σ}, loop.Arrives m₀ k m → b.val - (a + k) < left →
      ∃ m', (Task.loop loop.test loop.rounds).Yields m (.ok .completed m') := by
  -- the induction is on a bound for the rounds that are left
  induction left with
  | zero =>
    intro k m harrives hleft
    exact h.completes_of_passed harrives (by omega)
  | succ left ih =>
    intro k m harrives hleft
    by_cases hle : a + k ≤ b.val
    · obtain ⟨m₁, hasks⟩ := (h.begins_iff harrives).mpr hle
      rcases h.round harrives hasks with ⟨m₂, hround, hnext⟩ | ⟨-, m₂, hround⟩
      · obtain ⟨m', hloop⟩ := ih hnext (by omega)
        exact ⟨m', Task.loop_yields_of_round hasks hround hloop⟩
      · exact ⟨m₂, Task.loop_yields_of_round hasks hround rfl⟩
    · exact h.completes_of_passed harrives hle

theorem IsRegular.execute_completes (h : loop.IsRegular inRoutine place a b m₀) :
    ∃ m', (Task.execute loop.node).Yields m₀ (.ok .completed m') := by
  obtain ⟨m, hloop⟩ := h.loop_completes (b.val - a + 1).toNat arrives_zero (by omega)
  exact ⟨_, Task.execute_yields (Task.perform_yields_of_loop hloop)⟩

end Count

end Round

end RangeLoop

/-- **A `dla` loop visits its range, and its iterator is not disturbed.**  If the first value is
`a`, then the iterator reads `a + k` when the round `k` begins, and it is undisturbed until the
body ends.  If moreover the last value is `b` at every test and each body completes, the rounds are
those with `a + k ≤ b`, and the loop completes. -/
theorem range_loops_visit_their_range [Console σ] {console : σ} {m m₀ : Machine σ}
    {program : List Node} {loop : RangeLoop} {a : Number} (hprogram : IsParsed program)
    (hloop : HasLoop loop program) (hm : Reachable IsParsed console m)
    (hbound : (Task.execute loop.initializer).Yields m (.ok .completed m₀))
    (ha : m₀.memory.get loop.name m₀.scope = .number a) :
    (∀ k m', loop.Begins m₀ k m' →
        (∃ n : Number, n.val = a.val + k
          ∧ m'.memory.find? loop.name m'.scope = some ⟨.number n, true⟩)
        ∧ loop.IsUndisturbed m')
      ∧ ∀ b : Number,
        (∀ k m', loop.Arrives m₀ k m' →
          ∃ m'', (Task.evaluate loop.last).Yields m' (.ok (.number b) m'')) →
        (∀ k m', loop.Begins m₀ k m' →
          ∃ m'', (Task.block loop.body).Yields m' (.ok .completed m'')) →
        (∀ k, (∃ m', loop.Begins m₀ k m') ↔ k < (b.val - a.val + 1).toNat)
          ∧ ∃ m', (Task.execute loop.node).Yields m₀ (.ok .completed m') := by
  obtain ⟨hfirst, hlast, inRoutine, hbody⟩ := hloop.isRead hprogram.isBlock.isBody
  have hinitializer : (conduct.and (guarding {})).before (.execute loop.initializer) m :=
    ⟨⟨hm.disciplined, ⟨inRoutine, .inl (.initializer hfirst)⟩,
      hm.isSound Console.refuses_any trivial⟩, .of_empty nofun nofun⟩
  obtain ⟨⟨hbalanced, hsound⟩, -, htells⟩ := (guarding_valid {}).after hbound hinitializer
  obtain ⟨hbinds, -⟩ := htells loop.name loop.first loop.line m₀ rfl rfl
  have hguarded := RangeLoop.guarded_of_binds hlast hbody
    (Machine.Balanced.disciplined hbalanced) hsound.2 hbinds
  have hreads := RangeLoop.reads_of_binds hbinds ha
  refine ⟨fun k m' hbegins => ?_, fun b hlast hcompletes => ?_⟩
  · obtain ⟨m₁, harrives, hasks⟩ := hbegins
    obtain ⟨hbefore, hreads₁⟩ := harrives.reads hbody hguarded hreads
    have hreads' := RangeLoop.reads_of_asks hbefore hreads₁ hasks
    exact ⟨hreads'.find?, RangeLoop.isUndisturbed_of_guarded
      (RangeLoop.guarded_body hbody hbefore hasks) hreads'.binds⟩
  · have hregular : loop.IsRegular inRoutine (m₀.place loop.name) a.val b m₀ :=
      ⟨hbody, hguarded, hreads, hlast, hcompletes⟩
    exact ⟨fun k => hregular.exists_begins_iff, hregular.execute_completes⟩

/-- The ends of a range, where they are literals and the body only names a variable. -/
def literalEnds : List Node → Option (Int × Int)
  | [.assignment _ _ (.number a) true _,
      .loop (.operation _ _ (.number b) _) [.var _ [], .endOfLine, .increment _ _] _ _] =>
    some (a.val, b.val)
  | _ => none

/-- From one to two there are two rounds. -/
theorem range_loops_visit_their_range_twice :
    ∃ program loop m₀,
      Program.parse Token.defaultRange "dla i := 1 ... 2 wykonuj\n\ti\n" = .ok program
        ∧ HasLoop loop program
        ∧ (Task.execute loop.initializer).Yields ({ console := {} } : Machine Transcript)
          (.ok .completed m₀)
        ∧ (∀ k, (∃ m', loop.Begins m₀ k m') ↔ k < 2)
        ∧ ∃ m', (Task.execute loop.node).Yields m₀ (.ok .completed m') := by
  have hparses : (Program.parse Token.defaultRange
      "dla i := 1 ... 2 wykonuj\n\ti\n").toOption.bind literalEnds = some (1, 2) := by
    decide +kernel
  cases hparse : Program.parse Token.defaultRange "dla i := 1 ... 2 wykonuj\n\ti\n" with
  | error e =>
    rw [hparse] at hparses
    cases hparses
  | ok program =>
    rw [hparse] at hparses
    have hblock : IsBlock false program := IsParsed.isBlock ⟨_, _, hparse⟩
    simp only [Except.toOption, Option.bind_some, literalEnds] at hparses
    split at hparses
    · rename_i _ _ a _ _ _ b _ _ _ _ _ _
      obtain ⟨ha, hb⟩ := Prod.mk.inj (Option.some.inj hparses)
      obtain ⟨loop, after, hinitializer, hrest⟩ := hblock.exists_loop
      obtain ⟨hnode, rfl⟩ := List.cons.inj hrest
      obtain ⟨-, -, hfirst, -, -⟩ := Node.assignment.inj hinitializer
      obtain ⟨htest, hrounds, -, -⟩ := Node.loop.inj hnode
      obtain ⟨-, -, hlast, -⟩ := Node.operation.inj htest
      have hsplit : [Node.var _ [], .endOfLine] ++ [Node.increment _ _]
          = loop.body ++ [loop.counter] := hrounds
      have hbody := (List.append_inj' hsplit rfl).1
      have hcompletes : ∀ m : Machine Transcript,
          ∃ m', (Task.block loop.body).Yields m (.ok .completed m') := by
        intro m
        rw [← hbody]
        exact ⟨_, id, 8, rfl⟩
      let fresh : Machine Transcript := { console := {} }
      let started := fresh.record (.started loop.initializer)
      have hfree : ¬ started.Binds loop.name := Memory.not_isIteratorAt_empty
      have hvalue : (Task.evaluate loop.first).Yields started (.ok (.number a) started) :=
        hfirst ▸ Task.evaluate_number_yields a
      obtain ⟨m₀, hbound, hget⟩ := RangeLoop.initializer_yields hvalue hfree
      obtain ⟨-, hrange⟩ := range_loops_visit_their_range ⟨_, _, hparse⟩
        (hinitializer ▸ hnode ▸ .here [] []) (.atRest .fresh) hbound hget
      obtain ⟨hbegins, hends⟩ := hrange b
        (fun k m _ => ⟨m, hlast ▸ Task.evaluate_number_yields b⟩)
        fun k m _ => hcompletes m
      refine ⟨_, loop, m₀, rfl, hinitializer ▸ hnode ▸ .here [] [], hbound, fun k => ?_, hends⟩
      rw [hbegins, ha, hb]
      rfl
    · cases hparses

end Tablica
