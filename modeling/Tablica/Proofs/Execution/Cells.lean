import Tablica.Execution.Memory

/-!
# Cells and their places

A cell lies among the globals or in the table of a scope; that is its **place**.  Together with
its key the place identifies the cell, so every operation on the memory can be described by the
one cell that it concerns: reading and removing concern the cell at the key's *home*, writing the
cell at its *target*.  The two differ only for a key without a cell.

* `Memory.cellAt` — the cell at a place;
* `Memory.home`, `Memory.target` — where a key is read, and where it is written;
* `Memory.cellAt_put`, `Memory.cellAt_delete` — nothing but the one cell changes;
* `Memory.scopes_put`, `Memory.scopes_delete` — the tables of other scopes are not touched;
* `Memory.openWith` — the memory in which a call begins.
-/

namespace Tablica.Memory

/-- The cell with the key at a place: among the globals, or in the table of a scope. -/
def cellAt (m : Memory) : Option ScopeId → String → Option Cell
  | none, key => m.globals[key]?
  | some scope, key => m.local? key (some scope)

/-- The place at which a key is read in a scope. -/
def home (m : Memory) (key : String) (scope : Option ScopeId) : Option ScopeId :=
  if (m.local? key scope).isSome then scope else none

/-- The place at which a key is written in a scope. -/
def target (m : Memory) (key : String) (scope : Option ScopeId) : Option ScopeId :=
  if (m.local? key scope).isSome || !m.globals.contains key then scope else none

/-- Puts a cell at a place. -/
def putAt (m : Memory) (key : String) (cell : Cell) : Option ScopeId → Memory
  | none => m.putGlobal key cell
  | some scope => m.putLocal key cell scope

theorem find?_eq_cellAt (m : Memory) (key : String) (scope : Option ScopeId) :
    m.find? key scope = m.cellAt (m.home key scope) key := by
  unfold find? home
  cases scope with
  | none => rfl
  | some scope =>
    cases h : m.local? key (some scope) with
    | none => rfl
    | some cell => simp [cellAt, h]

theorem put_eq_putAt (m : Memory) (key : String) (cell : Cell) (scope : Option ScopeId) :
    m.put key cell scope = m.putAt key cell (m.target key scope) := by
  unfold put target
  cases scope with
  | none => simp [putAt]
  | some scope => simp only; split <;> rfl

/-- A key with a cell is written where it is read. -/
theorem target_eq_home {m : Memory} {key : String} {scope : Option ScopeId} {cell : Cell}
    (h : m.find? key scope = some cell) : m.target key scope = m.home key scope := by
  unfold find? at h
  unfold target home
  cases hlocal : m.local? key scope with
  | some => rfl
  | none =>
    rw [hlocal, Option.none_or] at h
    have hmem : m.globals.contains key = true := by
      rw [Std.ExtTreeMap.contains_iff_mem, Std.ExtTreeMap.mem_iff_isSome_getElem?, h]
      rfl
    simp [hmem]

/-- Where a key is written there is the cell that it means, or no cell. -/
theorem cellAt_target (m : Memory) (key : String) (scope : Option ScopeId) :
    m.cellAt (m.target key scope) key = m.find? key scope := by
  cases hfind : m.find? key scope with
  | some cell => rw [target_eq_home hfind, ← find?_eq_cellAt, hfind]
  | none =>
    obtain ⟨hlocal, hglobal⟩ := Option.or_eq_none_iff.mp hfind
    unfold target
    split
    · cases scope with
      | none => exact hglobal
      | some scope => exact hlocal
    · exact hglobal

/-! ### One cell changes -/

theorem cellAt_putAt (m : Memory) (key key' : String) (cell : Cell)
    (place place' : Option ScopeId) :
    (m.putAt key cell place).cellAt place' key'
      = if place' = place ∧ key' = key then some cell else m.cellAt place' key' := by
  cases place with
  | none =>
    cases place' with
    | none =>
      simp only [putAt, putGlobal, cellAt, Std.ExtTreeMap.getElem?_insert,
        Std.LawfulEqCmp.compare_eq_iff_eq]
      grind
    | some scope' => simp [putAt, putGlobal, cellAt, local?, scopeTable]
  | some scope =>
    cases place' with
    | none => simp [putAt, putLocal, cellAt]
    | some scope' =>
      simp only [putAt, cellAt, local?, Option.bind_some, scopeTable_putLocal]
      by_cases hscope : scope = scope'
      · subst hscope
        simp only [if_true, true_and, Std.ExtTreeMap.getElem?_insert,
          Std.LawfulEqCmp.compare_eq_iff_eq]
        grind
      · have hne : ¬ (some scope' = some scope ∧ key' = key) := by
          intro hsame
          obtain ⟨h, -⟩ := hsame
          exact hscope (Option.some.inj h).symm
        rw [if_neg hscope, if_neg hne]

/-- **Writing changes the cell at the target** and no other. -/
theorem cellAt_put (m : Memory) (key key' : String) (cell : Cell)
    (scope place' : Option ScopeId) :
    (m.put key cell scope).cellAt place' key'
      = if place' = m.target key scope ∧ key' = key then some cell else m.cellAt place' key' := by
  rw [put_eq_putAt, cellAt_putAt]

/-- A key that was put is read where it was written. -/
theorem home_put (m : Memory) (key : String) (cell : Cell) (scope : Option ScopeId) :
    (m.put key cell scope).home key scope = m.target key scope := by
  cases scope with
  | none => simp [home, target]
  | some scope =>
    have hlocal : (m.put key cell (some scope)).local? key (some scope)
        = if some scope = m.target key (some scope) ∧ key = key then some cell
          else m.local? key (some scope) := m.cellAt_put key key cell (some scope) (some scope)
    by_cases hput : ((m.local? key (some scope)).isSome || !m.globals.contains key) = true
    · have htarget : m.target key (some scope) = some scope := if_pos hput
      rw [if_pos ⟨htarget.symm, rfl⟩] at hlocal
      rw [htarget, home, hlocal]
      rfl
    · have htarget : m.target key (some scope) = none := if_neg hput
      rw [htarget, if_neg (by simp)] at hlocal
      simp only [Bool.or_eq_true, not_or] at hput
      rw [htarget, home, hlocal, if_neg hput.1]

/-- **Removing changes the cell at the home** and no other. -/
theorem cellAt_delete (m : Memory) (key key' : String) (scope place' : Option ScopeId) :
    (m.delete key scope).cellAt place' key'
      = if place' = m.home key scope ∧ key' = key then none else m.cellAt place' key' := by
  unfold delete home
  cases scope with
  | none =>
    cases place' with
    | none =>
      simp only [cellAt, Std.ExtTreeMap.getElem?_erase, Std.LawfulEqCmp.compare_eq_iff_eq]
      grind
    | some scope' => simp [cellAt, local?, scopeTable]
  | some scope =>
    cases hlocal : (m.local? key (some scope)).isSome with
    | false =>
      cases place' with
      | none =>
        simp only [cellAt, Bool.false_eq_true, if_false, Std.ExtTreeMap.getElem?_erase,
          Std.LawfulEqCmp.compare_eq_iff_eq]
        grind
      | some scope' => simp [cellAt, local?, scopeTable]
    | true =>
      cases place' with
      | none => simp [cellAt]
      | some scope' =>
        simp only [cellAt, local?, scopeTable, Option.bind_some, if_true,
          Std.ExtTreeMap.getElem?_insert, Std.LawfulEqCmp.compare_eq_iff_eq]
        by_cases hscope : scope = scope'
        · subst hscope
          simp only [if_true, Option.getD_some, Std.ExtTreeMap.getElem?_erase,
            Std.LawfulEqCmp.compare_eq_iff_eq]
          grind
        · have hne : ¬ (some scope' = some scope ∧ key' = key) := by
            intro hsame
            obtain ⟨h, -⟩ := hsame
            exact hscope (Option.some.inj h).symm
          rw [if_neg hscope, if_neg hne]

/-! ### Tables -/

theorem scopes_put (m : Memory) (key : String) (cell : Cell) {scope : Option ScopeId}
    {scope' : ScopeId} (h : some scope' ≠ scope) :
    (m.put key cell scope).scopes[scope']? = m.scopes[scope']? := by
  cases scope with
  | none => rfl
  | some scope =>
    have hne : scope ≠ scope' := fun heq => h (congrArg some heq.symm)
    simp only [put]
    split <;> simp [putLocal, putGlobal, Std.ExtTreeMap.getElem?_insert, hne]

theorem mem_scopes_put {m : Memory} {key : String} {cell : Cell} {scope : Option ScopeId}
    (h : ∀ open', scope = some open' → open' ∈ m.scopes) (scope' : ScopeId) :
    scope' ∈ (m.put key cell scope).scopes ↔ scope' ∈ m.scopes := by
  cases scope with
  | none => rfl
  | some scope =>
    have hopen := h scope rfl
    simp only [put]
    split
    · simp only [putLocal, Std.ExtTreeMap.mem_insert, Std.LawfulEqCmp.compare_eq_iff_eq]
      grind
    · rfl

/-- Writing inside a scope creates no global. -/
theorem mem_globals_of_put {m : Memory} {key key' : String} {cell : Cell} {scope : ScopeId}
    (h : key' ∈ (m.put key cell (some scope)).globals) : key' ∈ m.globals := by
  simp only [put] at h
  split at h
  · exact h
  · rename_i hput
    simp only [putGlobal, Std.ExtTreeMap.mem_insert, Std.LawfulEqCmp.compare_eq_iff_eq] at h
    simp only [Bool.or_eq_true, Bool.not_eq_true', not_or, Bool.not_eq_false] at hput
    rcases h with rfl | h
    · exact Std.ExtTreeMap.contains_iff_mem.mp hput.2
    · exact h

theorem scopes_delete (m : Memory) (key : String) {scope : Option ScopeId} {scope' : ScopeId}
    (h : some scope' ≠ scope) : (m.delete key scope).scopes[scope']? = m.scopes[scope']? := by
  cases scope with
  | none => rfl
  | some scope =>
    have hne : scope ≠ scope' := fun heq => h (congrArg some heq.symm)
    simp only [delete]
    split
    · simp [Std.ExtTreeMap.getElem?_insert, hne]
    · rfl

theorem mem_scopes_delete {m : Memory} {key : String} {scope : Option ScopeId}
    (h : ∀ open', scope = some open' → open' ∈ m.scopes) (scope' : ScopeId) :
    scope' ∈ (m.delete key scope).scopes ↔ scope' ∈ m.scopes := by
  cases scope with
  | none => rfl
  | some scope =>
    have hopen := h scope rfl
    simp only [delete]
    split
    · simp only [Std.ExtTreeMap.mem_insert, Std.LawfulEqCmp.compare_eq_iff_eq]
      grind
    · rfl

theorem mem_globals_of_delete {m : Memory} {key key' : String} {scope : Option ScopeId}
    (h : key' ∈ (m.delete key scope).globals) : key' ∈ m.globals := by
  cases scope with
  | none => exact Std.ExtTreeMap.mem_of_mem_erase h
  | some scope =>
    simp only [delete] at h
    split at h
    · exact h
    · exact Std.ExtTreeMap.mem_of_mem_erase h

/-! ### The number of scopes, and the memory of a call -/

theorem nextScope_put (m : Memory) (key : String) (cell : Cell) (scope : Option ScopeId) :
    (m.put key cell scope).nextScope = m.nextScope := by
  cases scope with
  | none => rfl
  | some scope => simp only [put]; split <;> rfl

theorem nextScope_delete (m : Memory) (key : String) (scope : Option ScopeId) :
    (m.delete key scope).nextScope = m.nextScope := by
  cases scope with
  | none => rfl
  | some scope => simp only [delete]; split <;> rfl

/-- The memory in which a call begins: a new scope with the given variables. -/
def openWith (m : Memory) (locals : List (String × Value)) : Memory :=
  locals.foldl (fun memory entry => memory.defineLocal entry.1 entry.2 m.nextScope) m.openScope.2

/-- Defining variables in an open scope changes the table of that scope only. -/
theorem foldl_defineLocal (locals : List (String × Value)) (scope : ScopeId) (m : Memory)
    (h : scope ∈ m.scopes) :
    let m' := locals.foldl (fun memory entry => memory.defineLocal entry.1 entry.2 scope) m
    m'.globals = m.globals ∧ m'.nextScope = m.nextScope
      ∧ (∀ scope', scope' ∈ m'.scopes ↔ scope' ∈ m.scopes)
      ∧ ∀ scope', scope' ≠ scope → m'.scopes[scope']? = m.scopes[scope']? := by
  induction locals generalizing m with
  | nil => exact ⟨rfl, rfl, fun _ => Iff.rfl, fun _ _ => rfl⟩
  | cons entry locals ih =>
    have hmem : ∀ scope', scope' ∈ (m.defineLocal entry.1 entry.2 scope).scopes
        ↔ scope' ∈ m.scopes := by
      intro scope'
      simp only [defineLocal, putLocal, Std.ExtTreeMap.mem_insert,
        Std.LawfulEqCmp.compare_eq_iff_eq]
      grind
    obtain ⟨hglobals, hnext, hopened, htables⟩ :=
      ih (m.defineLocal entry.1 entry.2 scope) ((hmem scope).mpr h)
    refine ⟨hglobals, hnext, fun scope' => (hopened scope').trans (hmem scope'), ?_⟩
    intro scope' hne
    rw [List.foldl_cons, htables scope' hne]
    simp [defineLocal, putLocal, Std.ExtTreeMap.getElem?_insert, hne.symm]

/-- A variable that is defined in a scope has a cell there. -/
theorem isSome_cellAt_foldl_defineLocal {key : String} (locals : List (String × Value))
    (scope : ScopeId) (m : Memory)
    (h : key ∈ locals.map Prod.fst ∨ (m.cellAt (some scope) key).isSome) :
    ((locals.foldl (fun memory entry => memory.defineLocal entry.1 entry.2 scope) m).cellAt
      (some scope) key).isSome := by
  induction locals generalizing m with
  | nil => exact h.resolve_left List.not_mem_nil
  | cons entry locals ih =>
    refine ih _ ?_
    have hput : (m.defineLocal entry.1 entry.2 scope).cellAt (some scope) key
        = if some scope = some scope ∧ key = entry.1 then some ⟨entry.2, false⟩
          else m.cellAt (some scope) key := m.cellAt_putAt entry.1 key _ (some scope) (some scope)
    by_cases hkey : key = entry.1
    · refine .inr ?_
      rw [hput, if_pos ⟨rfl, hkey⟩]
      rfl
    · rw [hput, if_neg fun hsame => hkey hsame.2]
      exact h.imp_left fun hmem => (List.mem_cons.mp hmem).resolve_left hkey

section OpenWith

variable (m : Memory) (locals : List (String × Value))

private theorem nextScope_mem_openScope : m.nextScope ∈ m.openScope.2.scopes := by
  simp [openScope]

theorem globals_openWith : (m.openWith locals).globals = m.globals :=
  (foldl_defineLocal locals _ _ m.nextScope_mem_openScope).1

theorem nextScope_openWith : (m.openWith locals).nextScope = m.nextScope + 1 :=
  (foldl_defineLocal locals _ _ m.nextScope_mem_openScope).2.1

theorem mem_scopes_openWith (scope : ScopeId) :
    scope ∈ (m.openWith locals).scopes ↔ scope = m.nextScope ∨ scope ∈ m.scopes := by
  refine ((foldl_defineLocal locals _ _ m.nextScope_mem_openScope).2.2.1 scope).trans ?_
  simp only [openScope, Std.ExtTreeMap.mem_insert, Std.LawfulEqCmp.compare_eq_iff_eq]
  grind

theorem scopes_openWith {scope : ScopeId} (h : scope ≠ m.nextScope) :
    (m.openWith locals).scopes[scope]? = m.scopes[scope]? := by
  refine ((foldl_defineLocal locals _ _ m.nextScope_mem_openScope).2.2.2 scope h).trans ?_
  simp [openScope, Std.ExtTreeMap.getElem?_insert, h.symm]

theorem isSome_cellAt_openWith {m : Memory} {locals : List (String × Value)} {key : String}
    (h : key ∈ locals.map Prod.fst) :
    ((m.openWith locals).cellAt (some m.nextScope) key).isSome :=
  isSome_cellAt_foldl_defineLocal locals _ _ (.inl h)

end OpenWith

/-! ### Successful writes -/

/-- What is saved goes where no iterator was. -/
theorem save_eq_ok {m m' : Memory} {key : String} {value : Value} {scope : Option ScopeId}
    (h : m.save key value scope = .ok m') :
    (m.find? key scope).any Cell.isIterator = false ∧ m' = m.put key ⟨value, false⟩ scope := by
  unfold save at h
  split at h
  · cases h
  · rename_i hany
    cases h
    exact ⟨Bool.eq_false_iff.mpr hany, rfl⟩

theorem bindIterator_eq_ok {m m' : Memory} {key : String} {value : Value}
    {scope : Option ScopeId} (h : m.bindIterator key value scope = .ok m') :
    (m.find? key scope).any Cell.isIterator = false ∧ m' = m.put key ⟨value, true⟩ scope := by
  unfold bindIterator at h
  split at h
  · cases h
  · rename_i hany
    cases h
    exact ⟨Bool.eq_false_iff.mpr hany, rfl⟩

/-- Nothing is written over an iterator. -/
theorem write_refused {m : Memory} {isIterator : Bool} {key : String} {value : Value}
    {scope : Option ScopeId} (h : (m.find? key scope).any Cell.isIterator = true) :
    (if isIterator then m.bindIterator key value scope else m.save key value scope)
      = .error (.assignToIterator key) := by
  cases isIterator with
  | true => exact if_pos h
  | false => exact if_pos h

/-- What is written by an assignment goes where no iterator was. -/
theorem write_eq_ok {m m' : Memory} {isIterator : Bool} {key : String} {value : Value}
    {scope : Option ScopeId}
    (h : (if isIterator then m.bindIterator key value scope else m.save key value scope) = .ok m') :
    (m.find? key scope).any Cell.isIterator = false ∧ m' = m.put key ⟨value, isIterator⟩ scope := by
  cases isIterator with
  | true => exact bindIterator_eq_ok h
  | false => exact save_eq_ok h

theorem increment_eq_ok {m m' : Memory} {key : String} {scope : Option ScopeId}
    (h : m.increment key scope = .ok m') :
    ∃ value, Value.apply .add (m.get key scope) (.number .one) = .ok value
      ∧ m' = m.put key ⟨value, (m.find? key scope).any Cell.isIterator⟩ scope := by
  unfold increment at h
  cases happly : Value.apply .add (m.get key scope) (.number .one) with
  | error kind => rw [happly] at h; cases h
  | ok value =>
    rw [happly] at h
    cases h
    exact ⟨value, rfl, rfl⟩

/-- One is added to a number, unless it is the greatest one. -/
theorem increment_number {m : Memory} {key : String} {scope : Option ScopeId} {n : Number}
    (h : m.get key scope = .number n) :
    (∃ n' : Number, n'.val = n.val + 1 ∧ m.increment key scope
        = .ok (m.put key ⟨.number n', (m.find? key scope).any Cell.isIterator⟩ scope))
      ∨ n.val = 9223372036854775807 ∧ m.increment key scope = .error (.overflow .add) := by
  rw [increment, h, Value.apply_add_numbers, Number.add?]
  cases hsum : Number.ofInt? (n.val + Number.one.val) with
  | some n' => exact .inl ⟨n', Number.ofInt?_eq_some_iff.mp hsum, rfl⟩
  | none =>
    have hrange := Number.ofInt?_eq_none_iff.mp hsum
    have hone : Number.one.val = 1 := rfl
    have hleast := n.least_le
    have hgreatest := n.le_greatest
    exact .inr ⟨by omega, rfl⟩

end Tablica.Memory
