import Tablica.Proofs.Execution.Calls

/-!
# Iterators and what spares them

An iterator is a cell that only a counter may write.  Which cell that is a name alone does not
tell: it depends on the innermost call, and on whether that call has a variable of its own with
this name.  So it is said of a cell at its place that it is **spared**.  The place at which a name
is read has to stay the same too; this is so because a variable is created only where the name
means nothing.

* `Machine.Binds` — a name means an iterator;
* `Machine.Spares` — from one machine to another all iterators are spared but certain ones;
* `Machine.Spares.chain` — one change after another;
* `Machine.Spares.put`, `Machine.Spares.delete`, `Machine.Spares.call` — single changes;
* `Action.store_sparesAll`, `Action.increment_spares` — what the actions do to iterators.
-/

namespace Tablica

variable {σ : Type}

namespace Memory

variable {m m' : Memory} {key : String} {scope : Option ScopeId}

/-- Under the key an iterator lies at the place. -/
def IsIteratorAt (m : Memory) (place : Option ScopeId) (key : String) : Prop :=
  (m.cellAt place key).any Cell.isIterator = true

theorem IsIteratorAt.congr {place : Option ScopeId} (h : m.IsIteratorAt place key)
    (hcell : m'.cellAt place key = m.cellAt place key) : m'.IsIteratorAt place key := by
  unfold IsIteratorAt
  rw [hcell]
  exact h

theorem not_isIteratorAt_empty {place : Option ScopeId} : ¬ IsIteratorAt {} place key := by
  cases place <;> simp [IsIteratorAt, cellAt, local?, scopeTable]

theorem isIteratorAt_home :
    m.IsIteratorAt (m.home key scope) key ↔ (m.find? key scope).any Cell.isIterator = true := by
  rw [IsIteratorAt, ← find?_eq_cellAt]

/-- An iterator where a key is written is the one that the key means. -/
theorem isIteratorAt_target :
    m.IsIteratorAt (m.target key scope) key ↔ m.IsIteratorAt (m.home key scope) key := by
  rw [isIteratorAt_home, IsIteratorAt, cellAt_target]

theorem target_eq_home_of_isIteratorAt (h : m.IsIteratorAt (m.home key scope) key) :
    m.target key scope = m.home key scope := by
  rw [isIteratorAt_home] at h
  cases hfind : m.find? key scope with
  | none =>
    rw [hfind] at h
    cases h
  | some cell => exact target_eq_home hfind

/-- Where a key is read depends on whether there is a cell in the scope. -/
theorem home_congr (h : (m'.cellAt scope key).isSome = (m.cellAt scope key).isSome) :
    m'.home key scope = m.home key scope := by
  cases scope with
  | none => simp [home]
  | some scope =>
    have hlocal : (m'.local? key (some scope)).isSome = (m.local? key (some scope)).isSome := h
    simp only [home, hlocal]

theorem cellAt_congr {scope : ScopeId} (h : m'.scopes[scope]? = m.scopes[scope]?) (key : String) :
    m'.cellAt (some scope) key = m.cellAt (some scope) key := by
  simp only [cellAt, local?, Option.bind_some, scopeTable, h]

end Memory

namespace Machine

/-- The place at which a key is read. -/
def place (m : Machine σ) (key : String) : Option ScopeId :=
  m.memory.home key m.scope

/-- The key means an iterator. -/
def Binds (m : Machine σ) (key : String) : Prop :=
  m.memory.IsIteratorAt (m.place key) key

/-- From the first machine to the second one every iterator stays where it is unless it is gone,
and keeps its value unless it is moved. -/
structure Spares (moved gone : Option ScopeId → String → Prop) (m m' : Machine σ) : Prop where
  iterators : ∀ place key, m.memory.IsIteratorAt place key → ¬ gone place key →
    m'.memory.IsIteratorAt place key
  cells : ∀ place key, m.memory.IsIteratorAt place key → ¬ gone place key → ¬ moved place key →
    m'.memory.cellAt place key = m.memory.cellAt place key
  places : ∀ key, m.Binds key → ¬ gone (m.place key) key → m'.place key = m.place key

/-- All iterators are spared. -/
def SparesAll (m m' : Machine σ) : Prop :=
  m.Spares (fun _ _ => False) (fun _ _ => False) m'

theorem place_congr {m m' : Machine σ} (halike : m.Alike m') (key : String) :
    m'.place key = m.place key := by
  rw [place, place, halike.memory, halike.scope]

namespace Spares

variable {m m₁ m₂ : Machine σ} {moved moved' gone gone' : Option ScopeId → String → Prop}

theorem of_alike (h : m.Alike m₁) : m.Spares moved gone m₁ where
  iterators place key hkey _ := by rwa [h.memory]
  cells place key _ _ _ := by rw [h.memory]
  places key _ _ := place_congr h key

/-- What is moved and gone matters for the iterators only, and what is gone may have been moved. -/
theorem mono (h : m.Spares moved gone m₁)
    (hmoved : ∀ place key, m.memory.IsIteratorAt place key → moved place key →
      moved' place key ∨ gone' place key)
    (hgone : ∀ place key, m.memory.IsIteratorAt place key → gone place key → gone' place key) :
    m.Spares moved' gone' m₁ where
  iterators place key hkey hgone' := h.iterators place key hkey (mt (hgone place key hkey) hgone')
  cells place key hkey hgone' hmoved' := by
    refine h.cells place key hkey (mt (hgone place key hkey) hgone') fun hmove => ?_
    rcases hmoved place key hkey hmove with hmove | hmove
    · exact hmoved' hmove
    · exact hgone' hmove
  places key hkey hgone' := h.places key hkey (mt (hgone _ key hkey) hgone')

theorem binds (h : m.Spares moved gone m₁) {key : String} (hkey : m.Binds key)
    (hgone : ¬ gone (m.place key) key) : m₁.Binds key := by
  rw [Binds, h.places key hkey hgone]
  exact h.iterators _ key hkey hgone

/-- Later on only those cells matter that are iterators in the beginning. -/
theorem chain (h : m.Spares moved gone m₁) (h' : m₁.Spares moved' gone' m₂)
    (hmoved : ∀ place key, m.memory.IsIteratorAt place key → moved' place key →
      moved place key ∨ gone place key)
    (hgone : ∀ place key, m.memory.IsIteratorAt place key → gone' place key → gone place key) :
    m.Spares moved gone m₂ where
  iterators place key hkey hstays :=
    h'.iterators place key (h.iterators place key hkey hstays) (mt (hgone place key hkey) hstays)
  cells place key hkey hstays hrests := by
    have hrests' : ¬ moved' place key := fun hmove =>
      (hmoved place key hkey hmove).elim hrests hstays
    rw [h'.cells place key (h.iterators place key hkey hstays) (mt (hgone place key hkey) hstays)
      hrests']
    exact h.cells place key hkey hstays hrests
  places key hkey hstays := by
    have hplace := h.places key hkey hstays
    rw [h'.places key (h.binds hkey hstays) (by rw [hplace]; exact mt (hgone _ key hkey) hstays),
      hplace]

theorem trans (h : m.Spares moved gone m₁) (h' : m₁.Spares moved gone m₂) :
    m.Spares moved gone m₂ :=
  h.chain h' (fun _ _ _ => .inl) fun _ _ _ => id

/-- Writing a key moves the iterator that it means, if it writes an iterator. -/
theorem put {key : String} {cell : Cell} (hcell : m.Binds key → cell.isIterator = true)
    (hscope : m₁.scope = m.scope) (hmemory : m₁.memory = m.memory.put key cell m.scope) :
    m.Spares (fun place key' => place = m.place key ∧ key' = key) (fun _ _ => False) m₁ where
  iterators place key' hkey _ := by
    rw [Memory.IsIteratorAt, hmemory, Memory.cellAt_put]
    split
    · rename_i h
      obtain ⟨rfl, rfl⟩ := h
      exact hcell (Memory.isIteratorAt_target.mp hkey)
    · exact hkey
  cells place key' hkey _ hmoved := by
    rw [hmemory, Memory.cellAt_put, if_neg]
    intro htarget
    obtain ⟨rfl, rfl⟩ := htarget
    have hbinds := Memory.isIteratorAt_target.mp hkey
    exact hmoved ⟨Memory.target_eq_home_of_isIteratorAt hbinds, rfl⟩
  places key' hkey _ := by
    rw [place, place, hscope]
    refine Memory.home_congr ?_
    rw [hmemory, Memory.cellAt_put]
    split
    · rename_i h
      obtain ⟨htarget, rfl⟩ := h
      have hwritten := Memory.isIteratorAt_target.mpr hkey
      rw [← htarget] at hwritten
      cases hold : m.memory.cellAt m.scope key' with
      | none =>
        rw [Memory.IsIteratorAt, hold] at hwritten
        cases hwritten
      | some old => rfl
    · rfl

/-- Removing a key removes the cell that it means. -/
theorem delete {key : String} (hscope : m₁.scope = m.scope)
    (hmemory : m₁.memory = m.memory.delete key m.scope) :
    m.Spares (fun _ _ => False) (fun place key' => place = m.place key ∧ key' = key) m₁ := by
  have hcells : ∀ place key', ¬ (place = m.place key ∧ key' = key) →
      m₁.memory.cellAt place key' = m.memory.cellAt place key' := by
    intro place key' hgone
    rw [hmemory, Memory.cellAt_delete]
    exact if_neg hgone
  refine ⟨fun place key' hkey hgone => hkey.congr (hcells place key' hgone),
    fun place key' _ hgone _ => hcells place key' hgone, fun key' hkey hgone => ?_⟩
  have hne : key' ≠ key := by
    intro heq
    subst heq
    exact hgone ⟨rfl, rfl⟩
  rw [place, place, hscope]
  exact Memory.home_congr (by rw [hcells m.scope key' fun h => hne h.2])

/-- If the tables of all scopes stay the same, only the globals matter. -/
theorem of_tables (hscope : m₁.scope = m.scope)
    (htables : ∀ scope : ScopeId, m₁.memory.scopes[scope]? = m.memory.scopes[scope]?)
    (hglobals : ∀ key, m.memory.IsIteratorAt none key →
      m₁.memory.cellAt none key = m.memory.cellAt none key) : m.SparesAll m₁ := by
  have hcells : ∀ place key, m.memory.IsIteratorAt place key →
      m₁.memory.cellAt place key = m.memory.cellAt place key := by
    intro place key hkey
    cases place with
    | none => exact hglobals key hkey
    | some scope => exact Memory.cellAt_congr (htables scope) key
  refine ⟨fun place key hkey _ => hkey.congr (hcells place key hkey),
    fun place key hkey _ _ => hcells place key hkey, fun key hkey _ => ?_⟩
  rw [place, place, hscope]
  cases hm : m.scope with
  | none => simp [Memory.home, Memory.local?]
  | some scope => exact Memory.home_congr (by rw [Memory.cellAt_congr (htables scope)])

/-- A call spares what its body spares. -/
theorem call {frame : Frame} {locals : List (String × Value)} (henters : m.Enters frame locals m₁)
    (hbody : m₁.SparesAll m₂) (hbalanced : m.Balanced false (Action.leave frame.scope m₂)) :
    m.SparesAll (Action.leave frame.scope m₂) := by
  have hglobals : ∀ key, m₁.memory.cellAt none key = m.memory.cellAt none key := by
    intro key
    rw [henters.memory, Memory.cellAt, Memory.cellAt, Memory.globals_openWith]
  have htables : ∀ scope : ScopeId,
      (Action.leave frame.scope m₂).memory.scopes[scope]? = m.memory.scopes[scope]? := fun scope =>
    hbalanced.tables scope fun hfalse => absurd hfalse Bool.false_ne_true
  refine of_tables (scope_congr hbalanced.frames) htables fun key hkey => ?_
  have hclosed : (Action.leave frame.scope m₂).memory.cellAt none key
      = m₂.memory.cellAt none key := by
    rw [Action.leave_memory]
    rfl
  rw [hclosed, hbody.cells none key (hkey.congr (hglobals key)) id id, hglobals]

end Spares

end Machine

theorem Machine.Spares.weaken {m m₁ : Machine σ} {moved gone : Option ScopeId → String → Prop}
    (h : m.Spares (fun _ _ => False) (fun _ _ => False) m₁) : m.Spares moved gone m₁ :=
  h.mono (fun _ _ _ => False.elim) fun _ _ _ => False.elim

/-! ### Actions -/

variable {m : Machine σ}

/-- A write that succeeds spares all iterators, since it writes none. -/
theorem Action.store_sparesAll (m : Machine σ) (key : String) (line : SourceLine)
    {write : Memory → Option ScopeId → Except RuntimeFault Memory}
    (h : ∀ memory scope memory', write memory scope = .ok memory' →
      (memory.find? key scope).any Cell.isIterator = false
        ∧ ∃ cell, memory' = memory.put key cell scope) :
    m.SparesAll (Action.store key line write m).machine := by
  rcases Action.store_cases key line write m with ⟨memory, hwrite, hrun⟩ | ⟨kind, -, hrun⟩
  · rw [hrun]
    obtain ⟨hany, cell, rfl⟩ := h _ _ _ hwrite
    have hfree : ¬ m.Binds key := by
      intro hbinds
      rw [Machine.Binds, Machine.place, Memory.isIteratorAt_home, hany] at hbinds
      cases hbinds
    refine Machine.Spares.mono (.put (fun hbinds => absurd hbinds hfree) rfl rfl) ?_ fun _ _ _ => id
    intro place key' hkey hput
    obtain ⟨rfl, rfl⟩ := hput
    exact absurd hkey hfree
  · rw [hrun]
    exact .of_alike (.record m _)

/-- An iterator that is bound was none before, where it is now. -/
theorem Machine.binds_of_bindIterator {key : String} {value : Value} {memory : Memory}
    (h : m.memory.bindIterator key value m.scope = .ok memory) :
    (m.withMemory memory).Binds key
      ∧ ¬ m.memory.IsIteratorAt ((m.withMemory memory).place key) key := by
  obtain ⟨hany, rfl⟩ := Memory.bindIterator_eq_ok h
  have hplace : (m.withMemory (m.memory.put key ⟨value, true⟩ m.scope)).place key
      = m.memory.target key m.scope := m.memory.home_put key _ m.scope
  have hfind := m.memory.find?_put key ⟨value, true⟩ m.scope
  constructor
  · refine Memory.isIteratorAt_home.mpr ?_
    rw [withMemory]
    exact hfind ▸ rfl
  · rw [hplace, Memory.isIteratorAt_target, Memory.isIteratorAt_home, hany]
    exact Bool.false_ne_true

/-- The counter moves its iterator. -/
theorem Action.increment_spares {name : String} (line : SourceLine) (hbinds : m.Binds name) :
    m.Spares (fun place key => place = m.place name ∧ key = name) (fun _ _ => False)
      (Action.increment name line m).machine := by
  rcases Action.increment_cases name line m with
    ⟨memory, hincrement, hrun⟩ | hrun | ⟨error, hrun⟩
  · rw [hrun]
    obtain ⟨value, -, rfl⟩ := Memory.increment_eq_ok hincrement
    exact .put (fun _ => Memory.isIteratorAt_home.mp hbinds) rfl rfl
  · rw [hrun]
    exact .of_alike (.record m _)
  · rw [hrun]
    exact .of_alike (.record m _)

end Tablica
