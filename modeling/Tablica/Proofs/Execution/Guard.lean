import Tablica.Proofs.Execution.Iterators
import Tablica.Proofs.Execution.Soundness

/-!
# Iterators are left alone

The cell of an iterator is changed by the counter of its loop, and it is removed when the loop
ends; any other task leaves it as it is.

A task **advances** the names of the counters that stand in it by themselves, and it **finishes**
the name of a loop whose iterator is bound already.  It is ready if all these names mean iterators.
Then the cells that they mean are the task's own: it moves and removes these and spares all others.
That the rest of a block is ready again is due to the grammar, since the rounds of a `dla` loop
stand behind the assignment that binds the iterator.

* `Task.Advances`, `Task.Finishes` — the iterators that are a task's own;
* `Task.IsReady` — what must hold before a task;
* `guarding`, `guarding_valid` — the contract, and that every task keeps it.
-/

namespace Tablica

variable {σ : Type}

/-! ### The iterators of a task -/

/-- The names whose counters stand in a task by themselves. -/
def Task.Advances : Task → String → Prop
  | execute node, key | perform node, key => ∃ line, node = .increment key line
  | block nodes, key | loop _ nodes, key => ∃ line, .increment key line ∈ nodes
  | _, _ => False

/-- The name of the loop that a task begins with, after the iterator was bound. -/
def Task.Finishes : Task → String → Prop
  | execute node, key | perform node, key =>
    ∃ test body line, node = .loop test body (some key) line
  | block nodes, key => ∃ test body line rest, nodes = .loop test body (some key) line :: rest
  | _, _ => False

/-- A free task has no iterators of its own. -/
def Task.IsFree (task : Task) : Prop :=
  ∀ key, ¬ task.Advances key ∧ ¬ task.Finishes key

/-- The cells that a task moves. -/
def Task.Moves (task : Task) (m : Machine σ) (place : Option ScopeId) (key : String) : Prop :=
  place = m.place key ∧ task.Advances key

/-- The cells that a task removes. -/
def Task.Removes (task : Task) (m : Machine σ) (place : Option ScopeId) (key : String) : Prop :=
  place = m.place key ∧ task.Finishes key

/-- The iterators of an earlier memory are as they were. -/
def Machine.Holds (origin : Memory) (m : Machine σ) : Prop :=
  ∀ place key, origin.IsIteratorAt place key →
    m.memory.cellAt place key = origin.cellAt place key

/-- A task is ready if its iterators are bound, if it does not advance the one that it finishes,
and if none of them is an iterator of the earlier memory. -/
structure Task.IsReady (task : Task) (origin : Memory) (m : Machine σ) : Prop where
  advances : ∀ key, task.Advances key → m.Binds key
  finishes : ∀ key, task.Finishes key → m.Binds key ∧ ¬ task.Advances key
  holds : m.Holds origin
  moves : ∀ place key, origin.IsIteratorAt place key → ¬ task.Moves m place key
  removes : ∀ place key, origin.IsIteratorAt place key → ¬ task.Removes m place key

/-- What else is known of an outcome: a name without indices is its own key, and an assignment that
binds an iterator and completes binds one that was none before. -/
def Task.Tells : (task : Task) → Machine σ → Conclusion σ task.Answer → Prop
  | evaluateAll nodes, _, outcome => ∀ values m', nodes = [] → outcome = .ok values m' → values = []
  | keyOf name indices, _, outcome => ∀ key m', indices = [] → outcome = .ok key m' → key = name
  | execute node, m, outcome | perform node, m, outcome =>
    ∀ key value line m', node = .assignment key [] value true line → outcome = .ok .completed m' →
      m'.Binds key ∧ ¬ m.memory.IsIteratorAt (m'.place key) key
  | _, _, _ => True

/-- A task that is ready spares all iterators but its own. -/
def guarding (origin : Memory) : Contract σ where
  before task m := task.IsReady origin m
  after task m outcome :=
    m.Spares (task.Moves m) (task.Removes m) outcome.machine ∧ task.Tells m outcome

/-- What is known of every task: it is balanced and sound. -/
def conduct : Contract σ :=
  balance.and (soundness (fun _ => True) (fun _ => True))

theorem conduct_valid [Console σ] : (conduct : Contract σ).Valid :=
  balance_valid.and fun task m _ hm => (soundness_valid Console.refuses_any task m hm).under

variable {origin : Memory} {m m₁ m₂ : Machine σ} {task : Task}

theorem Machine.Spares.holds {moved gone : Option ScopeId → String → Prop}
    (h : m.Spares moved gone m₁) (hm : m.Holds origin)
    (hmoved : ∀ place key, origin.IsIteratorAt place key → ¬ moved place key)
    (hgone : ∀ place key, origin.IsIteratorAt place key → ¬ gone place key) : m₁.Holds origin := by
  intro place key hkey
  have hbefore := hm place key hkey
  rw [h.cells place key (hkey.congr hbefore) (hgone place key hkey) (hmoved place key hkey)]
  exact hbefore

theorem Machine.SparesAll.holds (h : m.SparesAll m₁) (hm : m.Holds origin) : m₁.Holds origin :=
  Spares.holds h hm (fun _ _ _ => id) fun _ _ _ => id

/-- Where there were no iterators, only a task's own ones matter. -/
theorem Task.IsReady.of_empty (hadvances : ∀ key, task.Advances key → m.Binds key)
    (hfinishes : ∀ key, task.Finishes key → m.Binds key ∧ ¬ task.Advances key) :
    task.IsReady {} m where
  advances := hadvances
  finishes := hfinishes
  holds _ _ hkey := absurd hkey Memory.not_isIteratorAt_empty
  moves _ _ hkey := absurd hkey Memory.not_isIteratorAt_empty
  removes _ _ hkey := absurd hkey Memory.not_isIteratorAt_empty

theorem Task.IsFree.isReady (h : task.IsFree) (hm : m.Holds origin) : task.IsReady origin m where
  advances key hkey := absurd hkey (h key).1
  finishes key hkey := absurd hkey (h key).2
  holds := hm
  moves _ key _ hkey := (h key).1 hkey.2
  removes _ key _ hkey := (h key).2 hkey.2

theorem Task.IsFree.sparesAll (h : task.IsFree)
    (hspares : m.Spares (task.Moves m) (task.Removes m) m₁) : m.SparesAll m₁ :=
  hspares.mono (fun _ key _ hkey => absurd hkey.2 (h key).1)
    fun _ key _ hkey => (h key).2 hkey.2

/-- No iterator is a block's own. -/
theorem IsBlock.isFree {inRoutine : Bool} {nodes : List Node} (h : IsBlock inRoutine nodes) :
    (Task.block nodes).IsFree := by
  refine fun key => ⟨?_, ?_⟩
  · intro hadvance
    obtain ⟨line, hmem⟩ := hadvance
    exact not_isStatement_increment (h.isStatement _ hmem)
  · intro hfinish
    obtain ⟨test, body, line, rest, heq⟩ := hfinish
    exact h.ne_rounds heq

/-- No body of a loop begins with the rounds of a `dla` loop. -/
theorem IsBody.not_finishes {inRoutine : Bool} {nodes : List Node} (h : IsBody inRoutine nodes)
    (key : String) : ¬ (Task.block nodes).Finishes key := by
  intro hfinish
  obtain ⟨test, body, line, rest, rfl⟩ := hfinish
  rcases h with h | ⟨block, name, line', h, heq⟩
  · exact h.ne_rounds rfl
  · cases block with
    | nil => cases heq
    | cons node block =>
      obtain ⟨rfl, -⟩ := List.cons.inj heq
      exact h.ne_rounds rfl

/-- A call begins with the iterators that there are. -/
theorem Machine.Enters.holds {frame : Frame} {locals : List (String × Value)}
    (henters : m.Enters frame locals m₁) (hdisciplined : m.Disciplined) (hm : m.Holds origin) :
    m₁.Holds origin := by
  intro place key hkey
  have hold := hm place key hkey
  rw [← hold, henters.memory]
  cases place with
  | none => rw [Memory.cellAt, Memory.cellAt, Memory.globals_openWith]
  | some scope =>
    refine Memory.cellAt_congr (Memory.scopes_openWith _ _ ?_) key
    intro heq
    subst heq
    have hnone : m.memory.cellAt (some m.memory.nextScope) key = none := by
      simp [Memory.cellAt, Memory.local?, Memory.scopeTable,
        Std.ExtTreeMap.getElem?_eq_none hdisciplined.fresh_notMem]
    rw [Memory.IsIteratorAt, ← hold, hnone] at hkey
    cases hkey

/-! ### Guarded plans -/

/-- A plan that spares all iterators, if those tasks are guarded that it asks for. -/
def Plan.IsGuarded {α : Type} (origin : Memory) (p : Plan σ α) : Prop :=
  ∀ m : Machine σ, m.Holds origin →
    (p m).Keeps (conduct.under (guarding origin)) fun outcome => m.SparesAll outcome.machine

namespace Plan.IsGuarded

variable {α β : Type}

theorem pure (a : α) : IsGuarded origin (Pure.pure a : Plan σ α) := fun m _ =>
  .of_alike (.refl m)

theorem act {action : Action σ α} (h : ∀ m : Machine σ, m.SparesAll (action m).machine) :
    IsGuarded origin (Plan.act action) := fun m _ => h m

theorem act_alike {action : Action σ α} (h : ∀ m : Machine σ, m.Alike (action m).machine) :
    IsGuarded origin (Plan.act action) := act fun m => .of_alike (h m)

theorem ask (h : task.IsFree) : IsGuarded (σ := σ) origin (Plan.ask task) := fun _ hm =>
  keeps_ask (fun _ => h.isReady hm) fun _ houtcome => h.sparesAll houtcome.2.1

theorem bind {p : Plan σ α} {f : α → Plan σ β} (hp : IsGuarded origin p)
    (hf : ∀ a, IsGuarded origin (f a)) : IsGuarded origin (p >>= f) := fun m hm =>
  keeps_bind ((hp m hm).mono fun outcome hspares => by
    cases outcome with
    | ok a m₁ => exact (hf a m₁ (hspares.holds hm)).mono fun _ h => hspares.trans h
    | error e m₁ => exact hspares)

theorem ite {c : Prop} [Decidable c] {p q : Plan σ α} (hp : IsGuarded origin p)
    (hq : IsGuarded origin q) : IsGuarded origin (if c then p else q) := by
  split
  · exact hp
  · exact hq

theorem store {key : String} {line : SourceLine}
    {write : Memory → Option ScopeId → Except RuntimeFault Memory}
    (h : ∀ memory scope memory', write memory scope = .ok memory' →
      (memory.find? key scope).any Cell.isIterator = false
        ∧ ∃ cell, memory' = memory.put key cell scope) :
    IsGuarded (σ := σ) origin (Plan.act (Action.store key line write)) :=
  act fun m => Action.store_sparesAll m key line h

end Plan.IsGuarded

/-! ### Tasks that are ready -/

section Ready

variable {node : Node} {rest : List Node}

theorem Task.IsReady.head (h : (Task.block (node :: rest)).IsReady origin m) :
    (Task.execute node).IsReady origin m where
  advances key hkey := by
    obtain ⟨line, rfl⟩ := hkey
    exact h.advances key ⟨line, List.mem_cons_self⟩
  finishes key hkey := by
    obtain ⟨test, body, line, rfl⟩ := hkey
    exact ⟨(h.finishes key ⟨test, body, line, rest, rfl⟩).1, nofun⟩
  holds := h.holds
  moves place key hkey hmoves := by
    obtain ⟨hplace, line, rfl⟩ := hmoves
    exact h.moves place key hkey ⟨hplace, line, List.mem_cons_self⟩
  removes place key hkey hremoves := by
    obtain ⟨hplace, test, body, line, rfl⟩ := hremoves
    exact h.removes place key hkey ⟨hplace, test, body, line, rest, rfl⟩

/-- What the first statement of a block moves and removes the block moves and removes. -/
theorem Machine.Spares.ofHead
    (h : m.Spares ((Task.execute node).Moves m) ((Task.execute node).Removes m) m₁) :
    m.Spares ((Task.block (node :: rest)).Moves m) ((Task.block (node :: rest)).Removes m) m₁ := by
  refine h.mono ?_ ?_
  · intro place key _ hmove
    obtain ⟨hplace, line, rfl⟩ := hmove
    exact .inl ⟨hplace, line, List.mem_cons_self⟩
  · intro place key _ hremove
    obtain ⟨hplace, test, body, line, rfl⟩ := hremove
    exact ⟨hplace, test, body, line, rest, rfl⟩

/-- After its first statement the rest of a block is ready.  What it moves are iterators of the
block, and what it removes was bound by that statement. -/
theorem Task.IsReady.tail {inRoutine : Bool} (h : (Task.block (node :: rest)).IsReady origin m)
    (hfits : IsPart inRoutine (node :: rest))
    (hnode : (guarding origin).after (.execute node) m (.ok .completed m₁)) :
    (Task.block rest).IsReady origin m₁
      ∧ (∀ place key, (Task.block rest).Moves m₁ place key →
        (Task.block (node :: rest)).Moves m place key)
      ∧ ∀ place key, m.memory.IsIteratorAt place key →
        ¬ (Task.block rest).Removes m₁ place key := by
  obtain ⟨hspares, htells⟩ := hnode
  have hadvances : ∀ key, (Task.block rest).Advances key →
      m.Binds key ∧ m₁.Binds key ∧ m₁.place key = m.place key := by
    intro key hadvance
    obtain ⟨line, hmem⟩ := hadvance
    have hkey : (Task.block (node :: rest)).Advances key := ⟨line, List.mem_cons_of_mem _ hmem⟩
    have hbinds := h.advances key hkey
    have hstays : ¬ (Task.execute node).Removes m (m.place key) key := by
      intro hremove
      obtain ⟨-, test, body, line, rfl⟩ := hremove
      exact (h.finishes key ⟨test, body, line, rest, rfl⟩).2 hkey
    exact ⟨hbinds, hspares.binds hbinds hstays, hspares.places key hbinds hstays⟩
  have hfinishes : ∀ key, (Task.block rest).Finishes key →
      m₁.Binds key ∧ ¬ m.memory.IsIteratorAt (m₁.place key) key := by
    intro key hfinish
    obtain ⟨test, body, line, rest, rfl⟩ := hfinish
    obtain ⟨first, line', hinitializer⟩ := hfits.initializer_of_rounds
    exact htells key first line' m₁ hinitializer rfl
  have hmoves : ∀ place key, (Task.block rest).Moves m₁ place key →
      (Task.block (node :: rest)).Moves m place key := by
    intro place key hmove
    obtain ⟨rfl, line, hmem⟩ := hmove
    exact ⟨(hadvances key ⟨line, hmem⟩).2.2, line, List.mem_cons_of_mem _ hmem⟩
  have hremoves : ∀ place key, m.memory.IsIteratorAt place key →
      ¬ (Task.block rest).Removes m₁ place key := by
    intro place key hkey hremove
    obtain ⟨rfl, hfinish⟩ := hremove
    exact (hfinishes key hfinish).2 hkey
  refine ⟨⟨fun key hkey => (hadvances key hkey).2.1, fun key hkey => ?_, ?_, ?_, ?_⟩, hmoves,
    hremoves⟩
  · refine ⟨(hfinishes key hkey).1, fun hadvance => (hfinishes key hkey).2 ?_⟩
    obtain ⟨hbinds, -, hplace⟩ := hadvances key hadvance
    rw [hplace]
    exact hbinds
  · exact hspares.holds h.holds h.head.moves h.head.removes
  · exact fun place key hkey hmove => h.moves place key hkey (hmoves place key hmove)
  · exact fun place key hkey => hremoves place key (hkey.congr (h.holds place key hkey))

/-- A task that finishes nothing is still ready where it only was moved what it moves. -/
theorem Task.IsReady.again (h : task.IsReady origin m) (hfinishes : ∀ key, ¬ task.Finishes key)
    (hspares : m.Spares (task.Moves m) (fun _ _ => False) m₁) :
    task.IsReady origin m₁ ∧ ∀ place key, task.Moves m₁ place key → task.Moves m place key := by
  have hmoves : ∀ place key, task.Moves m₁ place key → task.Moves m place key := by
    intro place key hmove
    obtain ⟨rfl, hkey⟩ := hmove
    exact ⟨hspares.places key (h.advances key hkey) id, hkey⟩
  refine ⟨⟨fun key hkey => hspares.binds (h.advances key hkey) id, ?_, ?_, ?_, ?_⟩, hmoves⟩
  · exact fun key hkey => absurd hkey (hfinishes key)
  · exact hspares.holds h.holds h.moves fun _ _ _ => id
  · exact fun place key hkey hmove => h.moves place key hkey (hmoves place key hmove)
  · exact fun place key _ hremove => hfinishes key hremove.2

end Ready

/-! ### Every task spares the iterators of others -/

open Plan

theorem Node.evaluation_isGuarded (node : Node) :
    IsGuarded (σ := σ) origin node.evaluation := by
  cases node with
  | number | text | boolean => exact .pure _
  | var name indices =>
    exact .bind (.ask fun _ => ⟨id, id⟩) fun key => .act_alike (Action.load_alike · key)
  | operation operator left right line =>
    refine .bind (.ask fun _ => ⟨id, id⟩) fun left => ?_
    exact .bind (.ask fun _ => ⟨id, id⟩) fun right => .act_alike (Action.ofExcept_alike · line _)
  | call name arguments line => exact .ask fun _ => ⟨id, id⟩
  | _ => exact .act_alike (Action.fail_alike · _)

section Guard

variable [Console σ]

/-- An assignment spares all iterators, and if it binds one, that one is new. -/
theorem Task.assignment_keeps {name : String} {indices : List Node} {value : Node}
    {isIterator : Bool} {line : SourceLine} (hm : m.Holds origin) :
    ((Task.perform (.assignment name indices value isIterator line)).plan m).Keeps
      (conduct.under (guarding origin))
      ((guarding origin).after (.perform (.assignment name indices value isIterator line)) m) := by
  have hfree : (Task.evaluate value).IsFree ∧ (Task.keyOf name indices).IsFree :=
    ⟨fun _ => ⟨id, id⟩, fun _ => ⟨id, id⟩⟩
  refine keeps_ask_bind (fun _ => hfree.1.isReady hm) (fun v m₁ hvalue => ?_)
    fun e m₁ hvalue => ⟨(hfree.1.sparesAll hvalue.2.1).weaken, nofun⟩
  have hspares₁ : m.SparesAll m₁ := hfree.1.sparesAll hvalue.2.1
  refine keeps_ask_bind (fun _ => hfree.2.isReady (hspares₁.holds hm)) (fun key m₂ hkey => ?_)
    fun e m₂ hkey => ⟨(hspares₁.trans (hfree.2.sparesAll hkey.2.1)).weaken, nofun⟩
  have hspares₂ : m.SparesAll m₂ := hspares₁.trans (hfree.2.sparesAll hkey.2.1)
  have hstored := Action.store_sparesAll m₂ key line
    fun memory scope memory' (h : (if isIterator then memory.bindIterator key v scope
      else memory.save key v scope) = .ok memory') =>
      (Memory.write_eq_ok h).imp_right fun hput => ⟨_, hput⟩
  refine keeps_act_bind ?_
  rcases Action.store_cases key line (fun memory scope =>
    if isIterator then memory.bindIterator key v scope else memory.save key v scope) m₂ with
    ⟨memory, hwrite, hrun⟩ | ⟨kind, -, hrun⟩
  · rw [hrun] at hstored ⊢
    refine ⟨(hspares₂.trans hstored).weaken, ?_⟩
    intro name' value' line' m' hnode houtcome
    obtain ⟨hname, hindices, -, hiterator, -⟩ := Node.assignment.inj hnode
    have hkey : key = name' := (hkey.2.2 key m₂ hindices rfl).trans hname
    rw [hiterator, if_pos rfl, hkey] at hwrite
    cases houtcome
    obtain ⟨hbinds, hnew⟩ := Machine.binds_of_bindIterator hwrite
    exact ⟨hbinds, mt (fun h => hspares₂.iterators _ _ h id) hnew⟩
  · rw [hrun] at hstored ⊢
    exact ⟨(hspares₂.trans hstored).weaken, nofun⟩

/-- A statement other than an assignment or the rounds of a `dla` loop spares all iterators. -/
theorem Node.execution_isGuarded {inRoutine : Bool} {node : Node}
    (h : IsStatement inRoutine node)
    (hassignment : ∀ name indices value isIterator line,
      node ≠ .assignment name indices value isIterator line)
    (hrounds : ∀ test body name line, node ≠ .loop test body (some name) line) :
    IsGuarded (σ := σ) origin node.execution := by
  cases node with
  | endOfLine => exact .pure _
  | assignment name indices value isIterator line => exact absurd rfl (hassignment _ _ _ _ _)
  | command command argument line =>
    cases command with
    | print =>
      cases argument with
      | none => exact .pure _
      | some node =>
        refine .bind (.ask fun _ => ⟨id, id⟩) fun value => ?_
        exact .bind (.act_alike (Action.write_alike · _)) fun _ => .pure _
    | read =>
      have hfail : IsGuarded (σ := σ) (α := Flow) origin
          (act (Action.fail (.runtime ⟨.readTargetNotVariable, line⟩))) :=
        .act_alike (Action.fail_alike · _)
      cases argument with
      | none => exact hfail
      | some node =>
        cases node with
        | var name indices =>
          refine .bind (.act_alike (Action.ask_alike · _)) fun input => ?_
          refine .bind (.ask fun _ => ⟨id, id⟩) fun key => .bind (.store ?_) fun _ => .pure _
          exact fun _ _ _ h => (Memory.save_eq_ok h).imp_right fun hput => ⟨_, hput⟩
        | _ => exact hfail
    | stop => exact .pure _
  | condition test thenBlock elseBlock line =>
    obtain ⟨hthen, helse⟩ := h.blocks_of_condition
    refine .bind (.ask fun _ => ⟨id, id⟩) fun value => .ite (.ask hthen.isFree) ?_
    cases elseBlock with
    | none => exact .pure _
    | some block => exact .ask (helse block rfl).isFree
  | loop test body iterator line =>
    cases iterator with
    | none =>
      have hbody := (h.body_of_loop.1 rfl).isFree
      exact .ask fun key => ⟨(hbody key).1, id⟩
    | some name => exact absurd rfl (hrounds _ _ _ _)
  | routine name parameters body isProcedure line =>
    exact .bind (.act fun m => ⟨fun _ _ h _ => h, fun _ _ _ _ _ => rfl, fun _ _ _ => rfl⟩)
      fun _ => .pure _
  | giveBack value line =>
    cases value with
    | none => exact .pure _
    | some node =>
      refine .bind (.ask fun _ => ⟨id, id⟩) fun value => ?_
      exact .bind (.act_alike (Action.checkReturn_alike · _ line)) fun _ => .pure _
  | increment name line => exact absurd h not_isStatement_increment
  | _ => exact .bind (.ask fun _ => ⟨id, id⟩) fun _ => .pure _

/-- The rounds of a `dla` loop move its iterator, and then it is removed. -/
theorem Task.rounds_keeps {inRoutine : Bool} {test : Node} {body : List Node} {name : String}
    {line : SourceLine} (hfits : IsStatement inRoutine (.loop test body (some name) line))
    (hready : (Task.perform (.loop test body (some name) line)).IsReady origin m) :
    ((Task.perform (.loop test body (some name) line)).plan m).Keeps
      (conduct.under (guarding origin))
      ((guarding origin).after (.perform (.loop test body (some name) line)) m) := by
  obtain ⟨hbinds, -⟩ := hready.finishes name ⟨test, body, line, rfl⟩
  have hadvances : ∀ key, (Task.loop test body).Advances key → key = name := by
    intro key hadvance
    obtain ⟨line', hmem⟩ := hadvance
    obtain ⟨block, hblock, rfl⟩ := hfits.body_of_loop.2 name rfl
    rcases List.mem_append.mp hmem with hmem | hmem
    · exact absurd (hblock.isStatement _ hmem) not_isStatement_increment
    · exact (Node.increment.inj (List.mem_singleton.mp hmem)).1
  have hloop : (Task.loop test body).IsReady origin m := by
    refine ⟨fun key hkey => hadvances key hkey ▸ hbinds, fun _ => False.elim, hready.holds, ?_,
      fun _ _ _ hremoves => hremoves.2⟩
    intro place key hkey hmove
    obtain ⟨hplace, hmoves⟩ := hmove
    obtain rfl := hadvances key hmoves
    exact hready.removes place key hkey ⟨hplace, test, body, line, rfl⟩
  -- what the rounds move is gone in the end
  have hremoves : ∀ {m₁ : Machine σ}, m.Spares ((Task.loop test body).Moves m)
      ((Task.loop test body).Removes m) m₁ →
      m.Spares ((Task.perform (.loop test body (some name) line)).Moves m)
        ((Task.perform (.loop test body (some name) line)).Removes m) m₁ := fun hspares => by
    refine hspares.mono ?_ fun _ _ _ hremoves => hremoves.2.elim
    intro place key _ hmove
    obtain ⟨hplace, hmoves⟩ := hmove
    obtain rfl := hadvances key hmoves
    exact .inr ⟨hplace, test, body, line, rfl⟩
  refine keeps_ask_bind (fun _ => hloop) (fun flow m₁ hrounds => ?_)
    fun e m₁ hrounds => ⟨hremoves hrounds.2.1, nofun⟩
  have hplace : m₁.place name = m.place name :=
    hrounds.2.1.places name hbinds fun hremoves => hremoves.2
  refine keeps_act_bind ?_
  rw [Action.remove_run]
  refine ⟨(hremoves hrounds.2.1).chain (.delete rfl rfl) (fun _ _ _ => False.elim) ?_, nofun⟩
  intro place key _ hdeleted
  obtain ⟨rfl, rfl⟩ := hdeleted
  exact ⟨hplace, test, body, line, rfl⟩

theorem Task.perform_keeps {inRoutine : Bool} {node : Node}
    (hfits : (Task.perform node).Fits inRoutine) (hready : (Task.perform node).IsReady origin m) :
    ((Task.perform node).plan m).Keeps (conduct.under (guarding origin))
      ((guarding origin).after (.perform node) m) := by
  rcases hfits with hstatement | ⟨name, line, rfl⟩
  · by_cases hassignment : ∃ name indices value isIterator line,
        node = .assignment name indices value isIterator line
    · obtain ⟨name, indices, value, isIterator, line, rfl⟩ := hassignment
      exact Task.assignment_keeps hready.holds
    · by_cases hrounds : ∃ test body name line, node = .loop test body (some name) line
      · obtain ⟨test, body, name, line, rfl⟩ := hrounds
        exact Task.rounds_keeps hstatement hready
      · have hguarded : Plan.IsGuarded (σ := σ) origin node.execution :=
          Node.execution_isGuarded hstatement
            (fun name indices value isIterator line h =>
              hassignment ⟨name, indices, value, isIterator, line, h⟩)
            fun test body name line h => hrounds ⟨test, body, name, line, h⟩
        refine (hguarded m hready.holds).mono fun outcome hspares => ⟨hspares.weaken, ?_⟩
        intro key value line m' hnode
        exact absurd ⟨key, [], value, true, line, hnode⟩ hassignment
  · have hspares := Action.increment_spares line (hready.advances name ⟨line, rfl⟩)
    refine ⟨hspares.mono ?_ fun _ _ _ => False.elim, nofun⟩
    intro place key _ hput
    obtain ⟨hplace, rfl⟩ := hput
    exact .inl ⟨hplace, line, rfl⟩

theorem Task.execute_keeps {node : Node} (hready : (Task.execute node).IsReady origin m) :
    ((Task.execute node).plan m).Keeps (conduct.under (guarding origin))
      ((guarding origin).after (.execute node) m) := by
  have hperform : (Task.perform node).IsReady origin (m.record (.started node)) :=
    ⟨hready.advances, hready.finishes, hready.holds, hready.moves, hready.removes⟩
  refine keeps_act_bind ?_
  refine Course.Keeps.bind ⟨fun _ => hperform, fun outcome houtcome => ?_⟩
  have hspares : m.Spares ((Task.execute node).Moves m) ((Task.execute node).Removes m)
      outcome.machine :=
    ⟨houtcome.2.1.iterators, houtcome.2.1.cells, houtcome.2.1.places⟩
  cases outcome with
  | ok flow m' => exact ⟨hspares, houtcome.2.2⟩
  | error e m' => cases e <;> exact ⟨hspares, nofun⟩

theorem Task.block_keeps {inRoutine : Bool} {nodes : List Node} (hfits : IsPart inRoutine nodes)
    (hready : (Task.block nodes).IsReady origin m) :
    ((Task.block nodes).plan m).Keeps (conduct.under (guarding origin))
      ((guarding origin).after (.block nodes) m) := by
  cases nodes with
  | nil => exact ⟨.of_alike (.refl m), trivial⟩
  | cons node rest =>
    refine keeps_ask_bind (fun _ => hready.head) (fun flow m₁ hnode => ?_)
      fun e m₁ hnode => ⟨hnode.2.1.ofHead, trivial⟩
    split
    · rename_i hflow
      subst hflow
      obtain ⟨hrest, hmoves, hremoves⟩ := hready.tail hfits hnode.2
      refine keeps_ask (fun _ => hrest) fun outcome houtcome => ⟨?_, trivial⟩
      refine hnode.2.1.ofHead.chain houtcome.2.1 (fun place key _ h => .inl (hmoves place key h)) ?_
      exact fun place key hkey h => absurd h (hremoves place key hkey)
    · exact ⟨hnode.2.1.ofHead, trivial⟩

theorem Task.loop_keeps {inRoutine : Bool} {test : Node} {body : List Node}
    (hbody : IsBody inRoutine body) (hready : (Task.loop test body).IsReady origin m) :
    ((Task.loop test body).plan m).Keeps (conduct.under (guarding origin))
      ((guarding origin).after (.loop test body) m) := by
  have hnothing : ∀ {m : Machine σ} {place key}, ¬ (Task.block body).Removes m place key :=
    fun h => hbody.not_finishes _ h.2
  refine keeps_ask_bind (fun _ => Task.IsFree.isReady (fun _ => ⟨id, id⟩) hready.holds)
    (fun value m₁ hvalue => ?_)
    fun e m₁ hvalue => ⟨(Task.IsFree.sparesAll (fun _ => ⟨id, id⟩) hvalue.2.1).weaken, trivial⟩
  have hspares₁ : m.SparesAll m₁ := Task.IsFree.sparesAll (fun _ => ⟨id, id⟩) hvalue.2.1
  obtain ⟨hready₁, hmoves₁⟩ := hready.again (fun _ => id) hspares₁.weaken
  have hblock : (Task.block body).IsReady origin m₁ :=
    ⟨hready₁.advances, fun key h => absurd h (hbody.not_finishes key), hready₁.holds, hready₁.moves,
      fun _ _ _ => hnothing⟩
  split
  · refine keeps_ask_bind (fun _ => hblock) (fun flow m₂ hflow => ?_) fun e m₂ hflow => ?_
    · have hspares₂ : m₁.Spares ((Task.loop test body).Moves m₁) (fun _ _ => False) m₂ :=
        hflow.2.1.mono (fun _ _ _ => .inl) fun _ _ _ h => hnothing h
      obtain ⟨hready₂, hmoves₂⟩ := hready₁.again (fun _ => id) hspares₂
      have hround : m.Spares ((Task.loop test body).Moves m) ((Task.loop test body).Removes m) m₂ :=
        hspares₁.weaken.chain hspares₂ (fun place key _ h => .inl (hmoves₁ place key h))
          fun _ _ _ => False.elim
      split
      · refine keeps_ask (fun _ => hready₂) fun outcome houtcome => ⟨?_, trivial⟩
        refine hround.chain houtcome.2.1 (fun place key _ h => ?_) fun _ _ _ h => h.2.elim
        exact .inl (hmoves₁ place key (hmoves₂ place key h))
      · exact ⟨hround, trivial⟩
    · refine ⟨hspares₁.weaken.chain hflow.2.1 (fun place key _ h => ?_) ?_, trivial⟩
      · exact .inl (hmoves₁ place key h)
      · exact fun _ _ _ h => absurd h hnothing
  · exact ⟨hspares₁.weaken, trivial⟩

theorem Task.call_keeps {name : String} {arguments : List Node} {line : SourceLine}
    (hconduct : conduct.before (.call name arguments line) m) (hm : m.Holds origin) :
    ((Task.call name arguments line).plan m).Keeps (conduct.under (guarding origin))
      ((guarding origin).after (.call name arguments line) m) := by
  have hfree : (Task.evaluateAll arguments).IsFree := fun _ => ⟨id, id⟩
  refine keeps_act_bind ?_
  rcases Action.lookUp_cases name arguments.length line m with
    ⟨routine, hroutine, -, -, hrun⟩ | ⟨kind, hrun⟩
  · have hbody := (hconduct.2.2.blocks name routine hroutine).isFree
    rw [hrun]
    refine keeps_ask_bind (fun _ => hfree.isReady hm) (fun values m₁ hvalues => ?_)
      fun e m₁ hvalues => ⟨(hfree.sparesAll hvalues.2.1).weaken, trivial⟩
    have hspares₁ : m.SparesAll m₁ := hfree.sparesAll hvalues.2.1
    have hdisciplined : m₁.Disciplined := Machine.Balanced.disciplined hvalues.1.1
    refine keeps_enter_bind fun m₂ henters => ⟨fun _ => ?_, fun outcome houtcome => ?_⟩
    · exact hbody.isReady (henters.holds hdisciplined (hspares₁.holds hm))
    · have hcall := hspares₁.trans (.call henters (hbody.sparesAll houtcome.2.1)
        (.call hdisciplined henters houtcome.1.1))
      cases outcome with
      | ok flow m₃ =>
        exact ⟨(hcall.trans (.of_alike (Action.ofFlow_alike _ flow))).weaken, trivial⟩
      | error e m₃ => exact ⟨hcall.weaken, trivial⟩
  · rw [hrun]
    exact ⟨.of_alike (.record m _), trivial⟩

/-- **Every task spares the iterators that are not its own.** -/
theorem guarding_valid (origin : Memory) : (conduct.and (guarding origin) : Contract σ).Valid := by
  refine conduct_valid.and fun task m hconduct hready => ?_
  obtain ⟨-, ⟨inRoutine, hfits⟩, -⟩ := id hconduct
  cases task with
  | evaluate node =>
    refine (node.evaluation_isGuarded m hready.holds).mono fun outcome hspares => ?_
    exact ⟨hspares.weaken, trivial⟩
  | evaluateAll nodes =>
    cases nodes with
    | nil =>
      refine ⟨.of_alike (.refl m), fun values m' _ houtcome => ?_⟩
      cases houtcome
      rfl
    | cons node rest =>
      have hguarded : Plan.IsGuarded (σ := σ) origin (Task.evaluateAll (node :: rest)).plan :=
        .bind (.ask fun _ => ⟨id, id⟩) fun _ => .bind (.ask fun _ => ⟨id, id⟩) fun _ => .pure _
      exact (hguarded m hready.holds).mono fun outcome hspares => ⟨hspares.weaken, nofun⟩
  | keyOf name indices =>
    have hfree : (Task.evaluateAll indices).IsFree := fun _ => ⟨id, id⟩
    refine keeps_ask_bind (fun _ => hfree.isReady hready.holds) (fun values m₁ hvalues => ?_)
      fun e m₁ hvalues => ⟨(hfree.sparesAll hvalues.2.1).weaken, nofun⟩
    refine ⟨(hfree.sparesAll hvalues.2.1).weaken, fun key m' hindices houtcome => ?_⟩
    obtain rfl : values = [] := hvalues.2.2 values m₁ hindices rfl
    cases houtcome
    rfl
  | call name arguments line => exact Task.call_keeps hconduct hready.holds
  | execute node => exact Task.execute_keeps hready
  | perform node => exact Task.perform_keeps hfits hready
  | block nodes => exact Task.block_keeps hfits hready
  | loop test body => exact Task.loop_keeps hfits.2 hready

end Guard

end Tablica
