import Mathlib.Logic.Relation
import Tablica.Proofs.Execution.Literals
import Tablica.Proofs.Execution.Soundness
import Tablica.Proofs.Syntax.Equality

/-!
# Parameters and globals of the same name

A parameter is a cell in the scope of its call, and as long as that cell is there its name means
nothing else: the global of the same name is out of reach.  But a `dla` loop over the parameter
takes the parameter for its iterator, and when the loop is over it removes the cell.  From then on
the name means the global.

A task without calls changes the memory by one write or removal after the other, all of them in the
same scope, and each is entered in the journal.

    quiet                     memory and frames as they are
    written key               assigned key
    removed key               removed key, at the end of a loop over it

So the journal of a call tells whether its parameter came to be removed and was used afterwards.

* `Node.every` — a property of all nodes that are evaluated or executed with a node;
* `Machine.Change`, `tracing_valid` — what a task without calls does to a machine;
* `Machine.Covers` — as long as the parameter was not removed it covers the global;
* `parameters_shadow_globals` — a call leaves the globals named like its parameters as they are,
  unless a parameter is used again after a `dla` loop has removed it.
-/

namespace Tablica

variable {σ : Type}

/-! ### All nodes of a tree -/

namespace Node

mutual

/-- Whether a property holds of a node and of all nodes that are evaluated or executed with it.  The
body of a routine is not executed with its definition. -/
def every (P : Node → Bool) : Node → Bool
  | number n => P (number n)
  | text s => P (text s)
  | boolean b => P (boolean b)
  | var name indices => P (var name indices) && everyOfList P indices
  | operation operator left right line =>
    P (operation operator left right line) && (every P left && every P right)
  | call name arguments line => P (call name arguments line) && everyOfList P arguments
  | assignment name indices value isIterator line =>
    P (assignment name indices value isIterator line) && (everyOfList P indices && every P value)
  | command command' argument line =>
    P (command command' argument line) && everyOfOption P argument
  | condition test thenBlock elseBlock line =>
    P (condition test thenBlock elseBlock line)
      && (every P test && (everyOfList P thenBlock && everyOfBlock P elseBlock))
  | loop test body iterator line =>
    P (loop test body iterator line) && (every P test && everyOfList P body)
  | routine name parameters body isProcedure line =>
    P (routine name parameters body isProcedure line)
  | giveBack value line => P (giveBack value line) && everyOfOption P value
  | increment name line => P (increment name line)
  | endOfLine => P endOfLine

/-- The same for the nodes of a list. -/
def everyOfList (P : Node → Bool) : List Node → Bool
  | [] => true
  | node :: rest => every P node && everyOfList P rest

/-- The same for a node, if there is one. -/
def everyOfOption (P : Node → Bool) : Option Node → Bool
  | none => true
  | some node => every P node

/-- The same for a block, if there is one. -/
def everyOfBlock (P : Node → Bool) : Option (List Node) → Bool
  | none => true
  | some block => everyOfList P block

end

/-- Whether a node is no call. -/
def isNoCall : Node → Bool
  | call _ _ _ => false
  | _ => true

/-- Whether a node is no `dla` loop over the given name. -/
def isNoLoopOver (key : String) : Node → Bool
  | loop _ _ (some name) _ => name ≠ key
  | _ => true

section And

variable (P Q : Node → Bool)

mutual

theorem every_and : ∀ node : Node,
    every (fun node => P node && Q node) node = (every P node && every Q node)
  | number _ | text _ | boolean _ | routine _ _ _ _ _ | increment _ _ | endOfLine => rfl
  | var _ indices | call _ indices _ => by
    simp only [every, everyOfList_and indices]
    ac_rfl
  | operation _ left right _ => by
    simp only [every, every_and left, every_and right]
    ac_rfl
  | assignment _ indices value _ _ => by
    simp only [every, everyOfList_and indices, every_and value]
    ac_rfl
  | command _ argument _ | giveBack argument _ => by
    simp only [every, everyOfOption_and argument]
    ac_rfl
  | condition test thenBlock elseBlock _ => by
    simp only [every, every_and test, everyOfList_and thenBlock, everyOfBlock_and elseBlock]
    ac_rfl
  | loop test body _ _ => by
    simp only [every, every_and test, everyOfList_and body]
    ac_rfl

theorem everyOfList_and : ∀ nodes : List Node,
    everyOfList (fun node => P node && Q node) nodes = (everyOfList P nodes && everyOfList Q nodes)
  | [] => rfl
  | node :: rest => by
    simp only [everyOfList, every_and node, everyOfList_and rest]
    ac_rfl

theorem everyOfOption_and : ∀ node : Option Node,
    everyOfOption (fun node => P node && Q node) node
      = (everyOfOption P node && everyOfOption Q node)
  | none => rfl
  | some node => every_and node

theorem everyOfBlock_and : ∀ block : Option (List Node),
    everyOfBlock (fun node => P node && Q node) block
      = (everyOfBlock P block && everyOfBlock Q block)
  | none => rfl
  | some block => everyOfList_and block

end

end And

end Node

/-! ### What a task without calls does -/

/-- All nodes of a task have a property; a call is not one of these tasks. -/
def Task.Every (P : Node → Bool) : Task → Prop
  | evaluate node | execute node | perform node => node.every P
  | evaluateAll nodes | keyOf _ nodes | block nodes => Node.everyOfList P nodes
  | call _ _ _ => False
  | loop test body => test.every P ∧ Node.everyOfList P body

/-- One change of a machine between the beginnings and ends of calls.  What is written or removed
is entered in the journal, and only a `dla` loop removes its iterator. -/
inductive Machine.Change (P : Node → Bool) (m m' : Machine σ) : Prop
  | quiet (hframes : m'.frames = m.frames) (hmemory : m'.memory = m.memory)
      (hjournal : m.journal <:+ m'.journal)
  | written (key : String) (cell : Cell) (hframes : m'.frames = m.frames)
      (hmemory : m'.memory = m.memory.put key cell m.scope)
      (hjournal : m'.journal = .assigned key m.scope :: m.journal)
  | removed (key : String) (hframes : m'.frames = m.frames)
      (hmemory : m'.memory = m.memory.delete key m.scope)
      (hjournal : m'.journal = .removed key m.scope :: m.journal)
      (hloop : ∃ test body line, P (.loop test body (some key) line) = true)

/-- Changes, one after the other. -/
def Machine.Changes (P : Node → Bool) : Machine σ → Machine σ → Prop :=
  Relation.ReflTransGen (Machine.Change P)

/-- A task without calls makes changes. -/
def tracing (P : Node → Bool) : Contract σ where
  before task _ := task.Every P
  after _ m outcome := m.Changes P outcome.machine

/-- A plan that makes changes, if the tasks do that it asks for. -/
def Plan.IsTraced {α : Type} (P : Node → Bool) (p : Plan σ α) : Prop :=
  ∀ m : Machine σ, (p m).Keeps (tracing P) fun outcome => m.Changes P outcome.machine

variable {P : Node → Bool}

namespace Plan.IsTraced

variable {α β : Type}

theorem pure (a : α) : IsTraced P (Pure.pure a : Plan σ α) := fun _ => .refl

theorem act {action : Action σ α} (h : ∀ m : Machine σ, m.Change P (action m).machine) :
    IsTraced P (Plan.act action) := fun m => .single (h m)

theorem act_alike {action : Action σ α} (h : ∀ m : Machine σ, m.Alike (action m).machine) :
    IsTraced P (Plan.act action) :=
  act fun m => .quiet (h m).frames (h m).memory (h m).journal

theorem ask {task : Task} (h : task.Every P) : IsTraced (σ := σ) P (Plan.ask task) := fun _ =>
  keeps_ask h fun _ => id

theorem bind {p : Plan σ α} {f : α → Plan σ β} (hp : IsTraced P p)
    (hf : ∀ a, IsTraced P (f a)) : IsTraced P (p >>= f) := fun m =>
  keeps_bind ((hp m).mono fun outcome hchanges => by
    cases outcome with
    | ok a m' => exact (hf a m').mono fun _ h => Relation.ReflTransGen.trans hchanges h
    | error e m' => exact hchanges)

theorem ite {c : Prop} [Decidable c] {p q : Plan σ α} (hp : IsTraced P p) (hq : IsTraced P q) :
    IsTraced P (if c then p else q) := by
  split
  · exact hp
  · exact hq

theorem catchStop {p : Plan σ Flow} (hp : IsTraced P p) : IsTraced P (Plan.catchStop p) := fun m =>
  Course.Keeps.bind ((hp m).mono fun outcome hchanges => by
    cases outcome with
    | ok flow m' => exact hchanges
    | error e m' => cases e <;> exact hchanges)

theorem store {key : String} {line : SourceLine}
    {write : Memory → Option ScopeId → Except RuntimeFault Memory}
    (h : ∀ memory scope memory', write memory scope = .ok memory' →
      ∃ cell, memory' = memory.put key cell scope) :
    IsTraced (σ := σ) P (Plan.act (Action.store key line write)) := by
  refine act fun m => ?_
  rcases Action.store_cases key line write m with ⟨memory, hwrite, hrun⟩ | ⟨kind, -, hrun⟩
  · rw [hrun]
    obtain ⟨cell, rfl⟩ := h _ _ _ hwrite
    exact .written key cell rfl rfl rfl
  · rw [hrun]
    exact .quiet rfl rfl (List.suffix_cons _ _)

theorem increment (name : String) (line : SourceLine) :
    IsTraced (σ := σ) P (Plan.act (Action.increment name line)) := by
  refine act fun m => ?_
  rcases Action.increment_cases name line m with ⟨memory, hwrite, hrun⟩ | hrun | ⟨_, hrun⟩
  · rw [hrun]
    obtain ⟨value, -, rfl⟩ := Memory.increment_eq_ok hwrite
    exact .written name _ rfl rfl rfl
  · rw [hrun]
    exact .quiet rfl rfl (List.suffix_cons _ _)
  · rw [hrun]
    exact .quiet rfl rfl (List.suffix_cons _ _)

end Plan.IsTraced

open Plan

theorem Node.evaluation_isTraced {node : Node} (h : node.every P)
    (hcalls : ∀ name arguments line, P (.call name arguments line) = false) :
    Plan.IsTraced (σ := σ) P node.evaluation := by
  cases node with
  | number | text | boolean => exact .pure _
  | var name indices =>
    exact .bind (.ask (Bool.and_eq_true_iff.mp h).2) fun key => .act_alike (Action.load_alike · key)
  | operation operator left right line =>
    obtain ⟨hleft, hright⟩ := Bool.and_eq_true_iff.mp (Bool.and_eq_true_iff.mp h).2
    exact .bind (.ask hleft) fun left => .bind (.ask hright) fun right =>
      .act_alike (Action.ofExcept_alike · line _)
  | call name arguments line =>
    rw [every, hcalls] at h
    cases h
  | _ => exact .act_alike (Action.fail_alike · _)

section Tracing

variable [Console σ]

theorem Node.execution_isTraced {node : Node} (h : node.every P) :
    Plan.IsTraced (σ := σ) P node.execution := by
  cases node with
  | endOfLine => exact .pure _
  | assignment name indices value isIterator line =>
    obtain ⟨hindices, hvalue⟩ := Bool.and_eq_true_iff.mp (Bool.and_eq_true_iff.mp h).2
    refine .bind (.ask hvalue) fun value => .bind (.ask hindices) fun key => ?_
    exact .bind (.store fun _ _ _ h => ⟨_, (Memory.write_eq_ok h).2⟩) fun _ => .pure _
  | command command argument line =>
    cases command with
    | print =>
      cases argument with
      | none => exact .pure _
      | some node =>
        refine .bind (.ask (Bool.and_eq_true_iff.mp h).2) fun value => ?_
        exact .bind (.act_alike (Action.write_alike · _)) fun _ => .pure _
    | read =>
      have hfail : Plan.IsTraced (σ := σ) (α := Flow) P
          (act (Action.fail (.runtime ⟨.readTargetNotVariable, line⟩))) :=
        .act_alike (Action.fail_alike · _)
      cases argument with
      | none => exact hfail
      | some node =>
        cases node with
        | var name indices =>
          have hindices := (Bool.and_eq_true_iff.mp (Bool.and_eq_true_iff.mp h).2).2
          refine .bind (.act_alike (Action.ask_alike · _)) fun input => ?_
          refine .bind (.ask hindices) fun key => ?_
          exact .bind (.store fun _ _ _ h => ⟨_, (Memory.save_eq_ok h).2⟩) fun _ => .pure _
        | _ => exact hfail
    | stop => exact .pure _
  | condition test thenBlock elseBlock line =>
    obtain ⟨htest, hblocks⟩ := Bool.and_eq_true_iff.mp (Bool.and_eq_true_iff.mp h).2
    obtain ⟨hthen, helse⟩ := Bool.and_eq_true_iff.mp hblocks
    refine .bind (.ask htest) fun value => .ite (.ask hthen) ?_
    cases elseBlock with
    | none => exact .pure _
    | some block => exact .ask helse
  | loop test body iterator line =>
    obtain ⟨hloop, hparts⟩ := Bool.and_eq_true_iff.mp h
    have hrounds : (Task.loop test body).Every P := Bool.and_eq_true_iff.mp hparts
    cases iterator with
    | none => exact .ask hrounds
    | some name =>
      refine .bind (.ask hrounds) fun flow => .bind (.act fun m => ?_) fun _ => .pure _
      exact .removed name rfl rfl rfl ⟨test, body, line, hloop⟩
  | routine name parameters body isProcedure line =>
    exact .bind (.act fun m => .quiet rfl rfl (List.suffix_refl _)) fun _ => .pure _
  | giveBack value line =>
    cases value with
    | none => exact .pure _
    | some node =>
      refine .bind (.ask (Bool.and_eq_true_iff.mp h).2) fun value => ?_
      exact .bind (.act_alike (Action.checkReturn_alike · _ line)) fun _ => .pure _
  | increment name line => exact .increment name line
  | _ => exact .bind (.ask h) fun _ => .pure _

/-- **A task without calls changes the machine by one write or removal after the other.** -/
theorem tracing_valid (hcalls : ∀ name arguments line, P (.call name arguments line) = false) :
    (tracing P : Contract σ).Valid := by
  intro task m h
  suffices htraced : Plan.IsTraced (σ := σ) P task.plan from htraced m
  cases task with
  | evaluate node => exact Node.evaluation_isTraced h hcalls
  | evaluateAll nodes =>
    cases nodes with
    | nil => exact .pure _
    | cons node rest =>
      obtain ⟨hnode, hrest⟩ := Bool.and_eq_true_iff.mp h
      exact .bind (.ask hnode) fun _ => .bind (.ask hrest) fun _ => .pure _
  | keyOf name indices => exact .bind (.ask h) fun _ => .pure _
  | call name arguments line => exact h.elim
  | execute node =>
    exact .bind (.act_alike (Action.note_alike · _)) fun _ => .catchStop (.ask h)
  | perform node => exact Node.execution_isTraced h
  | block nodes =>
    cases nodes with
    | nil => exact .pure _
    | cons node rest =>
      obtain ⟨hnode, hrest⟩ := Bool.and_eq_true_iff.mp h
      exact .bind (.ask hnode) fun flow => .ite (.ask hrest) (.pure _)
  | loop test body =>
    refine .bind (.ask h.1) fun value => .ite ?_ (.pure _)
    exact .bind (.ask h.2) fun flow => .ite (.ask h) (.pure _)

end Tracing

/-! ### A parameter that was not removed -/

/-- The event is the removal of a variable. -/
def Event.Removes (key : String) : Event → Prop
  | removed key' _ => key' = key
  | _ => False

/-- The event is a write or the removal of a variable. -/
def Event.Touches (key : String) : Event → Prop
  | assigned key' _ | removed key' _ => key' = key
  | _ => False

/-- After the removal of a variable its name is not written or removed again.  The last event is the
first one. -/
def StaysRemoved (key : String) (events : List Event) : Prop :=
  events.Pairwise fun later earlier => earlier.Removes key → ¬ later.Touches key

/-- In the scope the name means a cell of the scope, and the global is as it was. -/
def Machine.Shields (scope : ScopeId) (key : String) (m₀ m : Machine σ) : Prop :=
  m.scope = some scope ∧ (m.memory.cellAt (some scope) key).isSome
    ∧ m.memory.globals[key]? = m₀.memory.globals[key]?

/-- The global is as it was, unless the name was used again after a removal; and without a removal
the name means a cell of the scope. -/
def Machine.Covers (scope : ScopeId) (key : String) (m₀ m : Machine σ) : Prop :=
  m.scope = some scope ∧ ∃ events, m.journal = events ++ m₀.journal
    ∧ (StaysRemoved key events → m.memory.globals[key]? = m₀.memory.globals[key]?
      ∧ ((∀ event ∈ events, ¬ event.Removes key) → (m.memory.cellAt (some scope) key).isSome))

namespace Machine

variable {m₀ m m' : Machine σ} {scope : ScopeId} {key : String}

theorem Change.frames_eq (h : m.Change P m') : m'.frames = m.frames := by
  cases h <;> assumption

/-- A change that leaves all cells of a name as they are, or is entered in the journal as one of
them. -/
theorem Change.untouched_or_touches (h : m.Change P m') (key : String) :
    (m.journal <:+ m'.journal ∧ ∀ place, m'.memory.cellAt place key = m.memory.cellAt place key)
      ∨ ∃ event, m'.journal = event :: m.journal ∧ event.Touches key := by
  cases h with
  | quiet _ hmemory hjournal => exact .inl ⟨hjournal, fun place => by rw [hmemory]⟩
  | written key' cell _ hmemory hjournal =>
    by_cases hkey : key' = key
    · exact .inr ⟨_, hjournal, hkey⟩
    · refine .inl ⟨hjournal ▸ List.suffix_cons _ _, fun place => ?_⟩
      rw [hmemory, Memory.cellAt_put, if_neg fun hsame => hkey hsame.2.symm]
  | removed key' _ hmemory hjournal =>
    by_cases hkey : key' = key
    · exact .inr ⟨_, hjournal, hkey⟩
    · refine .inl ⟨hjournal ▸ List.suffix_cons _ _, fun place => ?_⟩
      rw [hmemory, Memory.cellAt_delete, if_neg fun hsame => hkey hsame.2.symm]

/-- **One change does not reach the global** of a name that means a cell of the scope.  The cell
stays, or it is removed at the end of a loop over it. -/
theorem Change.of_local (h : m.Change P m') (hscope : m.scope = some scope)
    (hlocal : (m.memory.cellAt (some scope) key).isSome) :
    m'.memory.globals[key]? = m.memory.globals[key]?
      ∧ ((m'.memory.cellAt (some scope) key).isSome
        ∨ m'.journal = .removed key (some scope) :: m.journal
          ∧ ∃ test body line, P (.loop test body (some key) line) = true) := by
  have hglobals : ∀ memory : Memory,
      memory.cellAt none key = m.memory.cellAt none key → memory.globals[key]?
        = m.memory.globals[key]? := fun _ => id
  cases h with
  | quiet _ hmemory => exact ⟨by rw [hmemory], .inl (by rwa [hmemory])⟩
  | written key' cell _ hmemory =>
    have htarget : key' = key → m.memory.target key' m.scope = some scope := by
      intro hkey
      subst hkey
      rw [hscope]
      exact if_pos (by rw [Bool.or_eq_true]; exact .inl hlocal)
    refine ⟨hglobals _ ?_, .inl ?_⟩
    · rw [hmemory, Memory.cellAt_put, if_neg]
      intro hsame
      cases hsame.1.trans (htarget hsame.2.symm)
    · rw [hmemory, Memory.cellAt_put]
      split
      · rfl
      · exact hlocal
  | removed key' _ hmemory hjournal hloop =>
    have hhome : key' = key → m.memory.home key' m.scope = some scope := by
      intro hkey
      subst hkey
      rw [hscope]
      exact if_pos hlocal
    refine ⟨hglobals _ ?_, ?_⟩
    · rw [hmemory, Memory.cellAt_delete, if_neg]
      intro hsame
      cases hsame.1.trans (hhome hsame.2.symm)
    · by_cases hkey : key' = key
      · subst hkey
        exact .inr ⟨by rw [hjournal, hscope], hloop⟩
      · refine .inl ?_
        rwa [hmemory, Memory.cellAt_delete, if_neg fun hsame => hkey hsame.2.symm]

/-- Without a loop over it the name goes on to mean the cell of the scope. -/
theorem Shields.changes (h : Shields scope key m₀ m)
    (hloop : ∀ test body line, P (.loop test body (some key) line) = false)
    (hchanges : m.Changes P m') : Shields scope key m₀ m' := by
  induction hchanges with
  | refl => exact h
  | tail _ hchange ih =>
    obtain ⟨hscope, hlocal, hglobal⟩ := ih
    obtain ⟨hsame, hstays | ⟨-, test, body, line, hremoves⟩⟩ := hchange.of_local hscope hlocal
    · refine ⟨?_, hstays, hsame.trans hglobal⟩
      rw [Machine.scope, hchange.frames_eq]
      exact hscope
    · rw [hloop] at hremoves
      cases hremoves

theorem Covers.change (h : Covers scope key m₀ m) (hchange : m.Change P m') :
    Covers scope key m₀ m' := by
  obtain ⟨hscope, events, hevents, hcovers⟩ := h
  refine ⟨by rw [Machine.scope, hchange.frames_eq]; exact hscope, ?_⟩
  rcases hchange.untouched_or_touches key with ⟨⟨later, hlater⟩, hsame⟩ | ⟨event, hevent, htouches⟩
  · refine ⟨later ++ events, by rw [← hlater, hevents, List.append_assoc], fun hstays => ?_⟩
    obtain ⟨hglobal, hlocal⟩ := hcovers (hstays.sublist (List.sublist_append_right _ _))
    refine ⟨(hsame none).trans hglobal, fun hremoves => ?_⟩
    rw [hsame]
    exact hlocal fun event hmem => hremoves event (List.mem_append_right _ hmem)
  · refine ⟨event :: events, by rw [hevent, hevents, List.cons_append], fun hstays => ?_⟩
    obtain ⟨hfirst, hbefore⟩ := List.pairwise_cons.mp hstays
    obtain ⟨hglobal, hlocal⟩ := hcovers hbefore
    have hpresent := hlocal fun earlier hmem hremoves => hfirst earlier hmem hremoves htouches
    obtain ⟨hsame, hstays | ⟨hjournal, -⟩⟩ := hchange.of_local hscope hpresent
    · exact ⟨hsame.trans hglobal, fun _ => hstays⟩
    · obtain ⟨rfl, -⟩ := List.cons.inj (hevent.symm.trans hjournal)
      exact ⟨hsame.trans hglobal, fun hremoves => absurd rfl (hremoves _ List.mem_cons_self)⟩

/-- **Until it is used after a removal the name does not mean the global.** -/
theorem Covers.changes (h : Covers scope key m₀ m) (hchanges : m.Changes P m') :
    Covers scope key m₀ m' := by
  induction hchanges with
  | refl => exact h
  | tail _ hchange ih => exact ih.change hchange

/-- A call begins with its parameters in its scope. -/
theorem shields_enter {routine : Routine} {values : List Value}
    (hlength : routine.parameters.length = values.length) (hkey : key ∈ routine.parameters) :
    Shields m.memory.nextScope key m (m.enter routine values) := by
  refine ⟨rfl, ?_, congrArg (·[key]?) (Memory.globals_openWith _ _)⟩
  refine Memory.isSome_cellAt_openWith ?_
  rwa [List.map_fst_zip (Nat.le_of_eq hlength)]

end Machine

/-! ### Calls -/


section Calls

variable [Console σ] {m : Machine σ} {name p : String} {arguments : List Node} {line : SourceLine}
  {routine : Routine} {outcome : Conclusion σ Value}

/-- What a call with literal arguments does whose routine makes no calls: it does nothing to the
memory, or the body makes changes and then the scope is left. -/
theorem Task.call_changes (hroutine : m.routines[name]? = some routine)
    (hbody : Node.everyOfList P routine.body)
    (hcalls : ∀ name arguments line, P (.call name arguments line) = false)
    (hliterals : ∀ argument ∈ arguments, argument.isLiteral)
    (h : (Task.evaluate (.call name arguments line)).Yields m outcome) :
    m.Alike outcome.machine
      ∨ ∃ values m', routine.parameters.length = values.length
        ∧ (m.enter routine values).Changes P m' ∧ m'.journal <:+ outcome.machine.journal
        ∧ outcome.machine.memory.globals = m'.memory.globals := by
  obtain ⟨values, hlength, hvalues⟩ := Task.evaluateAll_literals (σ := σ) hliterals
  rcases (Task.call_yields_iff hvalues).mp (Task.evaluate_call_yields.mp h) with
    ⟨error, -, rfl⟩ | ⟨routine', hlookUp, body, hyields, rfl⟩
  · exact .inl (.record m _)
  · obtain ⟨hfound, hcount⟩ := Action.lookUp_eq_ok hlookUp
    obtain rfl : routine' = routine := Option.some.inj (hfound.symm.trans hroutine)
    have hchanges := (tracing_valid hcalls).after hyields hbody
    obtain ⟨hjournal, hmemory⟩ := Action.answerCall_alike m.memory.nextScope body
    exact .inr ⟨values, body.machine, by rw [hlength, hcount], hchanges, hjournal,
      by rw [hmemory]; rfl⟩

/-- **A parameter shadows the global of the same name** for the whole of a call whose body makes no
calls, unless it is used again after a `dla` loop over it has removed it; so it does if there is no
such loop. -/
theorem parameters_shadow_globals (hroutine : m.routines[name]? = some routine)
    (hparameter : p ∈ routine.parameters) (hbody : Node.everyOfList Node.isNoCall routine.body)
    (hliterals : ∀ argument ∈ arguments, argument.isLiteral)
    (h : (Task.evaluate (.call name arguments line)).Yields m outcome) :
    (∃ events, outcome.machine.journal = events ++ m.journal
      ∧ (StaysRemoved p events →
        outcome.machine.memory.globals[p]? = m.memory.globals[p]?))
      ∧ (Node.everyOfList (Node.isNoLoopOver p) routine.body →
        outcome.machine.memory.globals[p]? = m.memory.globals[p]?) := by
  constructor
  · rcases Task.call_changes hroutine hbody (fun _ _ _ => rfl) hliterals h with
      halike | ⟨values, m', hlength, hchanges, hjournal, hglobals⟩
    · obtain ⟨events, hevents⟩ := halike.journal
      exact ⟨events, hevents.symm, fun _ => by rw [halike.memory]⟩
    · obtain ⟨hscope, hlocal, hglobal⟩ := Machine.shields_enter (m := m) hlength hparameter
      have hcovers : Machine.Covers m.memory.nextScope p (m.enter routine values)
          (m.enter routine values) := ⟨hscope, [], rfl, fun _ => ⟨rfl, fun _ => hlocal⟩⟩
      obtain ⟨-, events, hevents, hcovered⟩ := hcovers.changes hchanges
      obtain ⟨later, hlater⟩ := hjournal
      obtain ⟨opening, hopening⟩ := m.journal_enter routine values
      refine ⟨later ++ (events ++ opening), ?_, fun hstays => ?_⟩
      · rw [← hlater, hevents, ← hopening, List.append_assoc, List.append_assoc]
      · have hbody := (hstays.sublist (List.sublist_append_right _ _)).sublist
          (List.sublist_append_left _ _)
        rw [hglobals]
        exact (hcovered hbody).1.trans hglobal
  · intro hloops
    have hboth : Node.everyOfList (fun node => node.isNoCall && node.isNoLoopOver p)
        routine.body := by
      rw [Node.everyOfList_and, hbody, hloops]
      rfl
    rcases Task.call_changes hroutine hboth (fun _ _ _ => rfl) hliterals h with
      halike | ⟨values, m', hlength, hchanges, -, hglobals⟩
    · rw [halike.memory]
    · have hshields := Machine.shields_enter (m := m) hlength hparameter
      rw [hglobals]
      exact (hshields.changes (fun _ _ _ => by simp [Node.isNoCall, Node.isNoLoopOver])
        hchanges).2.2

end Calls

section Parameter

deriving instance DecidableEq for Routine

/-- A function that assigns to its parameter. -/
def assigning : Routine where
  name := "f"
  parameters := ["p"]
  body := [.assignment "p" [] (.number ⟨5, by decide, by decide⟩) false ⟨3, "\tp := 5"⟩, .endOfLine]
  isProcedure := false

/-- A function that assigns to its parameter after a `dla` loop over it. -/
def reassigning : Routine where
  name := "f"
  parameters := ["p"]
  body :=
    let line : SourceLine := ⟨3, "\tdla p := 1 ... 1 wykonuj"⟩
    let loop : RangeLoop :=
      ⟨line, "p", .number .one, .number .one,
        [.command .print (some (.var "p" [])) ⟨4, "\t\tpisz p"⟩, .endOfLine]⟩
    [loop.initializer, loop.node,
      .assignment "p" [] (.number ⟨5, by decide, by decide⟩) false ⟨5, "\tp := 5"⟩, .endOfLine]
  isProcedure := false

/-- A program with a global that is named like the parameter of a function. -/
def overshadowed (routine : Routine) : List Node :=
  [.assignment "p" [] (.number .one) false ⟨1, "p := 1"⟩, .endOfLine,
    .routine routine.name routine.parameters routine.body routine.isProcedure
      ⟨2, "funkcja f(p)"⟩]

/-- A call of `f` with the argument `0`. -/
def callOfF : Node :=
  .call "f" [.number .zero] ⟨1, "f(0)"⟩

/-- The global keeps its value when the parameter is assigned to. -/
theorem parameters_shadow_globals_on_assignment :
    let m : Machine Transcript := (run 10 (overshadowed assigning) { console := {} }).2
    let m' := ((Task.evaluate callOfF).run 10 m).machine
    (Task.evaluate callOfF).Yields m (.ok Value.nil m')
      ∧ m.memory.globals["p"]? = some ⟨.number .one, false⟩
      ∧ m'.memory.globals["p"]? = m.memory.globals["p"]? := by
  intro m m'
  have hyields : (Task.evaluate callOfF).Yields m (.ok Value.nil m') :=
    Task.yields_of_answer (by decide +kernel)
  have hroutine : m.routines["f"]? = some assigning := by decide +kernel
  refine ⟨hyields, by decide +kernel, ?_⟩
  exact (parameters_shadow_globals hroutine (by decide) (by decide) (by decide) hyields).2
    (by decide)

/-- The global is assigned to when the parameter was removed by a loop over it. -/
theorem parameter_is_gone_after_loop :
    let m : Machine Transcript := (run 10 (overshadowed reassigning) { console := {} }).2
    let m' := ((Task.evaluate callOfF).run 20 m).machine
    Program.parse Token.defaultRange
        "p := 1\nfunkcja f(p)\n\tdla p := 1 ... 1 wykonuj\n\t\tpisz p\n\tp := 5\n"
        = .ok (overshadowed reassigning)
      ∧ Reachable IsParsed {} m
      ∧ m.routines["f"]? = some reassigning ∧ "p" ∈ reassigning.parameters
      ∧ Node.everyOfList Node.isNoCall reassigning.body
      ∧ (Task.evaluate callOfF).Yields m (.ok Value.nil m')
      ∧ m.memory.globals["p"]? = some ⟨.number .one, false⟩
      ∧ m'.memory.globals["p"]? = some ⟨.number ⟨5, by decide, by decide⟩, false⟩ := by
  intro m m'
  have hparse : Program.parse Token.defaultRange
      "p := 1\nfunkcja f(p)\n\tdla p := 1 ... 1 wykonuj\n\t\tpisz p\n\tp := 5\n"
      = .ok (overshadowed reassigning) := Program.parse_eq_ok (by decide +kernel)
  have hm : Reachable IsParsed {} m := .atRest (.ran .fresh ⟨_, _, hparse⟩ (by decide +kernel))
  have hyields : (Task.evaluate callOfF).Yields m (.ok Value.nil m') :=
    Task.yields_of_answer (by decide +kernel)
  exact ⟨hparse, hm, by decide +kernel, by decide, by decide, hyields, by decide +kernel,
    by decide +kernel⟩

end Parameter

end Tablica
