import Tablica.Proofs.Execution.Actions

/-!
# A name means one cell

Each operation looks up its key in a way of its own: reading falls back from the scope to the
globals, removing asks the scope and takes the globals otherwise, and writing asks both.  They all
arrive at the same cell.

    get, delete                       the cell at the key's home
    save, bindIterator, increment     the cell at its target, which is the home if there is a cell

So an operation changes what is read under its own key only: in the scope for which it is done and,
if the cell is a global one, in all those scopes that have no cell of their own for the key.

* `Memory.ChangedAt` — two memories that agree but for one cell;
* `Memory.Written`, `Memory.written_put` — what is read of a memory after a write;
* `Memory.find?_put_same` — where a cell that was put is found;
* `Memory.write_eq_error_iff`, `Memory.increment_eq_error_iff` — when a write fails;
* `Action.memory_store_of_error`, `Action.memory_increment_of_error` — what is left of it then;
* `names_mean_one_cell` — all operations of the memory.
-/

namespace Tablica

namespace Memory

variable {m m' : Memory} {key : String} {scope : Option ScopeId} {cell : Cell} {value : Value}

/-! ### One cell -/

/-- Both memories have the same cells at all places, but for the one with the key at the given
place, which is now the given one or gone. -/
def ChangedAt (m : Memory) (place : Option ScopeId) (key : String) (cell? : Option Cell)
    (m' : Memory) : Prop :=
  ∀ place' key', m'.cellAt place' key'
    = if place' = place ∧ key' = key then cell? else m.cellAt place' key'

/-- What a key means depends on its cells only. -/
theorem find?_congr (h : ∀ place, m'.cellAt place key = m.cellAt place key)
    (scope : Option ScopeId) : m'.find? key scope = m.find? key scope := by
  have hglobal : m'.globals[key]? = m.globals[key]? := h none
  cases scope with
  | none => rw [find?_none, find?_none, hglobal]
  | some scope =>
    have hlocal : m'.local? key (some scope) = m.local? key (some scope) := h (some scope)
    rw [find?, find?, hlocal, hglobal]

/-- No other key is affected. -/
theorem ChangedAt.get_of_ne {place : Option ScopeId} {cell? : Option Cell}
    (h : m.ChangedAt place key cell? m') {key' : String} (hne : key' ≠ key)
    (scope' : Option ScopeId) : m'.get key' scope' = m.get key' scope' := by
  have hcells : ∀ place', m'.cellAt place' key' = m.cellAt place' key' := fun place' => by
    rw [h place' key', if_neg fun hsame => hne hsame.2]
  rw [get, get, find?_congr hcells]

/-- A key is written in the scope or among the globals. -/
theorem target_eq_or (m : Memory) (key : String) (scope : Option ScopeId) :
    m.target key scope = scope ∨ m.target key scope = none := by
  unfold target
  split
  · exact .inl rfl
  · exact .inr rfl

/-- **A cell that is put is found** in the scope for which it was put and, if it is a global cell,
in all scopes without a cell of their own.  Everywhere else the key means what it did. -/
theorem find?_put_same (m : Memory) (key : String) (cell : Cell) (scope scope' : Option ScopeId) :
    (m.put key cell scope).find? key scope'
      = if scope' = scope ∨ m.target key scope = none ∧ m.local? key scope' = none then some cell
        else m.find? key scope' := by
  by_cases hsame : scope' = scope
  · subst hsame
    rw [if_pos (.inl rfl), find?_put]
  have hlocal : (m.put key cell scope).local? key scope' = m.local? key scope' := by
    cases scope' with
    | none => rfl
    | some id =>
      have hne : ¬ (some id = m.target key scope ∧ key = key) := by
        rintro ⟨htarget, -⟩
        rcases m.target_eq_or key scope with heq | heq
        · exact hsame (htarget.trans heq)
        · cases htarget.trans heq
      exact (m.cellAt_put key key cell scope (some id)).trans (if_neg hne)
  have hglobal : (m.put key cell scope).globals[key]?
      = if none = m.target key scope ∧ key = key then some cell else m.globals[key]? :=
    m.cellAt_put key key cell scope none
  rw [find?, find?, hlocal, hglobal]
  by_cases htarget : m.target key scope = none
  · cases hown : m.local? key scope' with
    | none => simp [htarget]
    | some own => simp [hsame]
  · rw [if_neg fun h => htarget h.1.symm, if_neg fun h => h.elim hsame fun h => htarget h.1]

/-! ### The operations -/

/-- What is read after the cell that a key means in a scope was replaced, or created. -/
structure Written (m : Memory) (key : String) (scope : Option ScopeId) (cell : Cell)
    (m' : Memory) : Prop where
  changed : m.ChangedAt (m.target key scope) key (some cell) m'
  same : m'.get key scope = cell.value
  otherKeys : ∀ key', key' ≠ key → ∀ scope', m'.get key' scope' = m.get key' scope'
  otherScopes : ∀ scope', scope' ≠ scope → m'.get key scope'
    = if m.target key scope = none ∧ m.local? key scope' = none then cell.value
      else m.get key scope'

theorem written_put (m : Memory) (key : String) (scope : Option ScopeId) (cell : Cell) :
    m.Written key scope cell (m.put key cell scope) := by
  have hchanged : m.ChangedAt (m.target key scope) key (some cell) (m.put key cell scope) :=
    fun place' key' => m.cellAt_put key key' cell scope place'
  refine ⟨hchanged, ?_, fun key' hne => hchanged.get_of_ne hne, fun scope' hne => ?_⟩
  · rw [get, find?_put]
    rfl
  · rw [get, find?_put_same]
    by_cases hglobal : m.target key scope = none ∧ m.local? key scope' = none
    · rw [if_pos (.inr hglobal), if_pos hglobal]
      rfl
    · rw [if_neg fun h => h.elim hne hglobal, if_neg hglobal]
      rfl

/-- **An iterator and nothing else** refuses to be assigned or bound. -/
theorem write_eq_error_iff (isIterator : Bool) {kind : RuntimeFault} :
    (if isIterator then m.bindIterator key value scope else m.save key value scope) = .error kind
      ↔ kind = .assignToIterator key
        ∧ ∃ cell, m.find? key scope = some cell ∧ cell.isIterator = true := by
  rw [← Option.any_eq_true]
  cases hany : (m.find? key scope).any Cell.isIterator with
  | true =>
    rw [write_refused hany]
    simp [eq_comm]
  | false => cases isIterator <;> simp [save, bindIterator, hany]

/-- An increment fails where adding one does. -/
theorem increment_eq_error_iff {kind : RuntimeFault} :
    m.increment key scope = .error kind
      ↔ Value.apply .add (m.get key scope) (.number .one) = .error kind := by
  unfold increment
  cases Value.apply .add (m.get key scope) (.number .one) with
  | ok next => exact iff_of_false nofun nofun
  | error kind' => simp [Except.map]

end Memory

/-! ### Failing operations -/

namespace Action

variable {σ : Type} {machine : Machine σ} {key : String} {line : SourceLine} {kind : RuntimeFault}

/-- A write that fails leaves the memory as it was. -/
theorem memory_store_of_error {write : Memory → Option ScopeId → Except RuntimeFault Memory}
    (h : write machine.memory machine.scope = .error kind) :
    (store key line write machine).machine.memory = machine.memory := by
  rw [store_of_error h]
  rfl

/-- So does an increment, whether it fails or ends its loop. -/
theorem memory_increment_of_error
    (h : machine.memory.increment key machine.scope = .error kind) :
    (increment key line machine).machine.memory = machine.memory := by
  rcases increment_cases key line machine with ⟨memory, hok, -⟩ | hexhausted | ⟨kind', herror⟩
  · cases h.symm.trans hok
  · rw [hexhausted]
    rfl
  · rw [herror]
    rfl

end Action

open Memory in
/-- **A name means one cell**, in every memory and in every scope, open or closed.  The cell that is
read under a key is the one that is written, incremented and removed.  A write that succeeds is read
back; it affects no other key, and the same key in another scope exactly if the cell is global and
that scope has none of its own.  Only an iterator refuses to be saved or bound, and only what has no
successor to be incremented; what fails leaves the memory as it was.  Removing affects the one cell
and nothing else. -/
theorem names_mean_one_cell (m : Memory) (key : String) (scope : Option ScopeId) (value : Value) :
    (m.cellAt (m.home key scope) key = m.find? key scope
        ∧ m.cellAt (m.target key scope) key = m.find? key scope)
      ∧ (∀ kind, m.save key value scope = .error kind ↔ kind = .assignToIterator key
          ∧ ∃ cell, m.find? key scope = some cell ∧ cell.isIterator = true)
      ∧ (∀ m', m.save key value scope = .ok m' → m.Written key scope ⟨value, false⟩ m')
      ∧ (∀ kind, m.bindIterator key value scope = .error kind ↔ kind = .assignToIterator key
          ∧ ∃ cell, m.find? key scope = some cell ∧ cell.isIterator = true)
      ∧ (∀ m', m.bindIterator key value scope = .ok m' → m.Written key scope ⟨value, true⟩ m')
      ∧ (∀ kind, m.increment key scope = .error kind
          ↔ Value.apply .add (m.get key scope) (.number .one) = .error kind)
      ∧ (∀ m', m.increment key scope = .ok m' → ∃ next,
          Value.apply .add (m.get key scope) (.number .one) = .ok next
            ∧ m.Written key scope ⟨next, (m.find? key scope).any Cell.isIterator⟩ m')
      ∧ m.ChangedAt (m.home key scope) key none (m.delete key scope)
      ∧ (∀ key', key' ≠ key → ∀ scope', (m.delete key scope).get key' scope' = m.get key' scope')
      ∧ ∀ (σ : Type) (machine : Machine σ) (line : SourceLine) (kind : RuntimeFault),
          (∀ write, write machine.memory machine.scope = .error kind →
              (Action.store key line write machine).machine.memory = machine.memory)
            ∧ (machine.memory.increment key machine.scope = .error kind →
              (Action.increment key line machine).machine.memory = machine.memory) := by
  have hdelete : m.ChangedAt (m.home key scope) key none (m.delete key scope) :=
    fun place' key' => m.cellAt_delete key key' scope place'
  refine ⟨⟨(m.find?_eq_cellAt key scope).symm, m.cellAt_target key scope⟩,
    fun _ => write_eq_error_iff false, fun m' hsave => ?_,
    fun _ => write_eq_error_iff true, fun m' hbind => ?_,
    fun _ => increment_eq_error_iff, fun m' hincrement => ?_,
    hdelete, fun _ hne => hdelete.get_of_ne hne, fun σ machine line kind =>
      ⟨fun _ => Action.memory_store_of_error, Action.memory_increment_of_error⟩⟩
  · obtain ⟨-, rfl⟩ := save_eq_ok hsave
    exact m.written_put key scope _
  · obtain ⟨-, rfl⟩ := bindIterator_eq_ok hbind
    exact m.written_put key scope _
  · obtain ⟨next, hnext, rfl⟩ := increment_eq_ok hincrement
    exact ⟨next, hnext, m.written_put key scope _⟩

/-- A variable of a call that shadows a global one is written, and the global one is not. -/
theorem names_mean_one_cell_of_a_call :
    let m := (({} : Memory).putGlobal "a" ⟨.number .one, true⟩).openScope.2.defineLocal "a" .nil 0
    ∃ m', m.save "a" (.text "b") (some 0) = .ok m' ∧ m'.get "a" (some 0) = .text "b"
      ∧ m'.get "a" none = .number .one := by
  intro m
  have hsave : m.save "a" (.text "b") (some 0) = .ok (m.put "a" ⟨.text "b", false⟩ (some 0)) :=
    if_neg (by decide +kernel)
  obtain ⟨-, -, hsaved, -⟩ := names_mean_one_cell m "a" (some 0) (.text "b")
  have hwritten := hsaved _ hsave
  refine ⟨_, hsave, hwritten.same, ?_⟩
  rw [hwritten.otherScopes none nofun, if_neg (by decide +kernel)]
  decide +kernel

end Tablica
