import Std.Data.ExtTreeMap
import Tablica.Execution.Value

/-!
# Memory

The variables of a running program live in tables: one for the globals, and one for
each call that is under way, which is the **scope** of that call.  An element of an
array is a variable of its own, whose key is the name followed by the indices.

From inside a call a key means the cell in the scope of the call or, if there is
none, the global cell.  Reading, writing and removing all resolve a key in this way;
only a key that has no cell at all is created in the scope of the call.

The variable of a `dla` loop is an **iterator**.  Nothing changes it but the
increment at the end of the body, until it is removed.

* `Cell`, `Table`, `Memory` — the types;
* `Memory.key` — the key of an array element;
* `Memory.find?` — the cell that a key means;
* `Memory.save`, `Memory.bindIterator`, `Memory.defineLocal`, `Memory.increment`,
  `Memory.delete` — changing cells;
* `Memory.openScope`, `Memory.closeScope` — the scope of a call.
-/

namespace Tablica

/-- A variable's value, and whether the variable is an iterator. -/
structure Cell where
  value : Value
  isIterator : Bool
deriving DecidableEq, Repr, Inhabited

/-- Cells by their keys. -/
abbrev Table := Std.ExtTreeMap String Cell compare

/-- Scopes are numbered in the order in which they are opened. -/
abbrev ScopeId := Nat

/-- The variables of a running program. -/
structure Memory where
  globals : Table := ∅
  scopes : Std.ExtTreeMap ScopeId Table compare := ∅
  nextScope : ScopeId := 0

namespace Memory

instance : Inhabited Memory := ⟨{}⟩

/-- The key of a variable with the given indices. -/
def key (name : String) (indices : List Value) : String :=
  indices.foldl (fun key index => key ++ "[" ++ index.keyFragment ++ "]") name

/-- The cells of a scope, none if the scope is not open. -/
def scopeTable (m : Memory) (scope : ScopeId) : Table :=
  (m.scopes[scope]?).getD ∅

/-- The cell that a scope holds for a key. -/
def local? (m : Memory) (key : String) (scope : Option ScopeId) : Option Cell :=
  scope.bind fun scope => (m.scopeTable scope)[key]?

/-- The cell that a key means in a scope. -/
def find? (m : Memory) (key : String) (scope : Option ScopeId) : Option Cell :=
  (m.local? key scope).or m.globals[key]?

/-- The value of a variable, which is nothing if there is no such variable. -/
def get (m : Memory) (key : String) (scope : Option ScopeId) : Value :=
  ((m.find? key scope).map Cell.value).getD .nil

/-- Puts a cell into a scope. -/
def putLocal (m : Memory) (key : String) (cell : Cell) (scope : ScopeId) : Memory :=
  { m with scopes := m.scopes.insert scope ((m.scopeTable scope).insert key cell) }

/-- Puts a cell among the globals. -/
def putGlobal (m : Memory) (key : String) (cell : Cell) : Memory :=
  { m with globals := m.globals.insert key cell }

/-- Puts a cell where the key is found in the scope; a key that has no cell yet is created in the
scope, and among the globals outside of every scope. -/
def put (m : Memory) (key : String) (cell : Cell) : Option ScopeId → Memory
  | none => m.putGlobal key cell
  | some scope =>
    if (m.local? key (some scope)).isSome || !m.globals.contains key then
      m.putLocal key cell scope
    else m.putGlobal key cell

/-- Writes a variable, which must not be an iterator. -/
def save (m : Memory) (key : String) (value : Value) (scope : Option ScopeId) :
    Except RuntimeFault Memory :=
  if (m.find? key scope).any Cell.isIterator then .error (.assignToIterator key)
  else .ok (m.put key ⟨value, false⟩ scope)

/-- Creates an iterator, or makes one out of an ordinary variable. -/
def bindIterator (m : Memory) (key : String) (value : Value) (scope : Option ScopeId) :
    Except RuntimeFault Memory :=
  if (m.find? key scope).any Cell.isIterator then .error (.assignToIterator key)
  else .ok (m.put key ⟨value, true⟩ scope)

/-- Creates a variable in a scope, whatever the globals hold. -/
def defineLocal (m : Memory) (key : String) (value : Value) (scope : ScopeId) : Memory :=
  m.putLocal key ⟨value, false⟩ scope

/-- Adds one to a variable; an iterator stays one. -/
def increment (m : Memory) (key : String) (scope : Option ScopeId) : Except RuntimeFault Memory :=
  (Value.apply .add (m.get key scope) (.number .one)).map fun value =>
    m.put key ⟨value, (m.find? key scope).any Cell.isIterator⟩ scope

/-- Removes the cell that a key means. -/
def delete (m : Memory) (key : String) (scope : Option ScopeId) : Memory :=
  match scope with
  | none => { m with globals := m.globals.erase key }
  | some id =>
    if (m.local? key scope).isSome then
      { m with scopes := m.scopes.insert id ((m.scopeTable id).erase key) }
    else { m with globals := m.globals.erase key }

/-- Opens a scope, which gets the next number. -/
def openScope (m : Memory) : ScopeId × Memory :=
  (m.nextScope,
    { m with scopes := m.scopes.insert m.nextScope ∅, nextScope := m.nextScope + 1 })

/-- Closes a scope with all its cells. -/
def closeScope (m : Memory) (scope : ScopeId) : Memory :=
  { m with scopes := m.scopes.erase scope }

/-- The name of a scope in the log. -/
def scopeName (scope : ScopeId) : String :=
  s!"#{scope}"

/-! ### Resolution -/

/-- Outside of every scope a key means the global cell. -/
theorem find?_none (m : Memory) (key : String) : m.find? key none = m.globals[key]? := by
  simp [find?, local?]

/-- A variable without indices is its own key. -/
theorem key_nil (name : String) : key name [] = name := rfl

theorem scopeTable_putLocal (m : Memory) (key : String) (cell : Cell) (scope scope' : ScopeId) :
    (m.putLocal key cell scope).scopeTable scope'
      = if scope = scope' then (m.scopeTable scope).insert key cell else m.scopeTable scope' := by
  simp only [scopeTable, putLocal, Std.ExtTreeMap.getElem?_insert, Std.LawfulEqCmp.compare_eq_iff_eq]
  split <;> simp_all

theorem scopeTable_putGlobal (m : Memory) (key : String) (cell : Cell) (scope : ScopeId) :
    (m.putGlobal key cell).scopeTable scope = m.scopeTable scope := rfl

/-- A cell that is put is the one that its key means afterwards. -/
theorem find?_put (m : Memory) (key : String) (cell : Cell) (scope : Option ScopeId) :
    (m.put key cell scope).find? key scope = some cell := by
  cases scope with
  | none => simp [put, putGlobal, find?, local?]
  | some scope =>
    simp only [put]
    split
    · simp [find?, local?, scopeTable_putLocal]
    · rename_i h
      simp only [Bool.or_eq_true, not_or, Bool.not_eq_true, Option.isSome_eq_false_iff,
        Option.isNone_iff_eq_none] at h
      have hlocal : (m.putGlobal key cell).local? key (some scope) = none := by
        simpa [local?, scopeTable_putGlobal] using h.1
      rw [find?, hlocal]
      simp [putGlobal]

/-- What was saved is read back. -/
theorem get_of_save {m m' : Memory} {key : String} {value : Value} {scope : Option ScopeId}
    (h : m.save key value scope = .ok m') : m'.get key scope = value := by
  simp only [save] at h
  split at h
  · cases h
  · cases h
    simp [get, find?_put]

end Memory

end Tablica
