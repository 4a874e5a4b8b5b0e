import Tablica.Proofs.Descent.Rounds
import Tablica.Proofs.Descent.Rows

/-!
# A descent reads the program

The outline of a program goes along the rows once and keeps the open blocks on a stack.  A descent
goes back and forth, and its open blocks are calls that have not returned.  At the beginning of every
row the two agree: what the outline comes to from there is what it comes to with the answer of the
descent, from where the descent ends.

                   if T[1] > 0 to       ◂─ the outline ⟨nodes, layers⟩
    descent  ───▸      pisz 1           ◂─ the outline ⟨[], if :: layers⟩
    begins             pisz 2
                   pisz 3               ◂─ the outline ⟨[pisz 1, pisz 2], if :: layers⟩
    descent  ───▸
    ends

This is `Accounts`, and it is kept by each function that reads blocks, by induction on the depth that
is allowed.  The first fault is the same on both sides, for where a descent stops at a fault, the
outline stops at it, too.  So a descent through a whole text ends, and with what the rows are read
as.

* `Parser.Before` — a parser at the beginning of some rows;
* `Accounts` — a descent and the outline agree;
* `Descent.statement_accounts`, `Descent.pass_accounts`, … — the functions that read blocks;
* `Descent.exists_parse` — whole texts;
* `parsing_ends` — the end of every descent, and how it is come to.
-/

namespace Tablica

open Narrated (Gives)

/-- The parser is at the beginning of the first of the rows, and the unit is known. -/
structure Parser.Before (symbol : List Char) (routines : Nat) (rows : List Row)
    (unit : Option IndentUnit) (p : Parser) : Prop where
  symbol_eq : p.symbol = symbol
  routines_eq : p.routines = routines
  unit_eq : p.unit = unit
  faces : p.cursor.Faces rows
  blank : IndentUnit.Blank unit

/-- The answer of a descent, with the rows that are left and the unit that is known then. -/
structure Answer (α : Type) where
  value : α
  rows : List Row
  unit : Option IndentUnit

/-- The descent reads what the outline reads.  The outline that is to read the rows when the descent
begins comes to what the outline comes to that is to read the other rows when it ends. -/
def Accounts {α : Type} (symbol : List Char) (routines : Nat) (m : Descent α) (p : Parser)
    (rows : List Row) (start : Outline) (P : Answer α → Prop) (finish : Answer α → Outline) : Prop :=
  ∃ x : Except Fault (Answer α),
    Follows m p (fun found a p' => a = found.value
        ∧ p'.Before symbol routines found.rows found.unit ∧ P found) x
      ∧ ∀ g : Answer α → Except Fault Outline,
        (∀ found, x = .ok found → Gives ((finish found).readAll symbol found.rows) (g found)) →
          Gives (start.readAll symbol rows) (x.bind g)

namespace Accounts

variable {α β : Type} {symbol : List Char} {routines routines' : Nat} {m m' : Descent α}
  {k : α → Descent β} {p p' : Parser} {rows : List Row} {start : Outline}
  {P : Answer α → Prop} {P' : Answer β → Prop} {middle : Answer α → Outline}
  {finish : Answer β → Outline}

/-- Both stop at the fault. -/
theorem of_error {fault : Fault} (hrun : m p = some (.error (.ofFault p.cursor.lines fault)))
    (hread : Gives (start.readAll symbol rows) (.error fault)) :
    Accounts symbol routines m p rows start P middle :=
  ⟨.error fault, .fault hrun, fun _ _ => hread⟩

theorem of_ok (found : Answer α) (hrun : m p = some (.ok (found.value, p')))
    (hlines : p'.cursor.lines = p.cursor.lines)
    (hbefore : p'.Before symbol routines found.rows found.unit) (hfound : P found)
    (hread : ∀ y, Gives ((middle found).readAll symbol found.rows) y →
      Gives (start.readAll symbol rows) y) :
    Accounts symbol routines m p rows start P middle :=
  ⟨.ok found, .value hrun hlines ⟨rfl, hbefore, hfound⟩, fun _ hg => hread _ (hg found rfl)⟩

/-- A step within a row. -/
theorem step {a : α} (hrun : m p = some (.ok (a, p'))) (hlines : p'.cursor.lines = p.cursor.lines)
    (h : Accounts symbol routines (k a) p' rows start P' finish) :
    Accounts symbol routines (m >>= k) p rows start P' finish :=
  h.imp fun _ h => ⟨.step hrun hlines h.1, h.2⟩

theorem congr (hrun : m' p = m p) (h : Accounts symbol routines m p rows start P middle) :
    Accounts symbol routines m' p rows start P middle :=
  h.imp fun _ h => ⟨h.1.congr hrun, h.2⟩

theorem mono {P₁ : Answer α → Prop} (h : Accounts symbol routines m p rows start P middle)
    (hP : ∀ found, P found → P₁ found) : Accounts symbol routines m p rows start P₁ middle :=
  h.imp fun _ h => ⟨h.1.mono fun found _ _ _ hfound =>
    ⟨hfound.1, hfound.2.1, hP found hfound.2.2⟩, h.2⟩

/-- The outline has come as far as the descent. -/
theorem of_later (rows' : List Row) (start' : Outline)
    (hread : ∀ y, Gives (start'.readAll symbol rows') y → Gives (start.readAll symbol rows) y)
    (h : Accounts symbol routines m p rows' start' P middle) :
    Accounts symbol routines m p rows start P middle :=
  h.imp fun _ h => ⟨h.1, fun g hg => hread _ (h.2 g hg)⟩

/-- Where one descent ends, the next one begins. -/
theorem bind (h : Accounts symbol routines m p rows start P middle)
    (hk : ∀ found p', p'.cursor.lines = p.cursor.lines →
      p'.Before symbol routines found.rows found.unit → P found →
      Accounts symbol routines' (k found.value) p' found.rows (middle found) P' finish) :
    Accounts symbol routines' (m >>= k) p rows start P' finish := by
  obtain ⟨x, hfollows, hread⟩ := h
  cases x with
  | error fault =>
    exact .of_error (Descent.bind_of_error hfollows.of_error)
      (hread (fun _ => .error fault) fun _ heq => nomatch heq)
  | ok found =>
    obtain ⟨_, p', hrun, hlines, rfl, hbefore, hfound⟩ := hfollows.of_ok
    obtain ⟨x', hfollows', hread'⟩ := hk found p' hlines hbefore hfound
    refine ⟨x', .step hrun hlines hfollows', fun g hg => hread (fun _ => x'.bind g) ?_⟩
    intro found' heq
    cases heq
    exact hread' g hg

/-- A part that is read of the row. -/
theorem of_follows {γ : Type} {x : Except Fault γ} {R : γ → α → Parser → Prop}
    (h : Follows m p R x)
    (hfault : ∀ fault, x = .error fault → Gives (start.readAll symbol rows) (.error fault))
    (hk : ∀ c a p', x = .ok c → R c a p' → p'.cursor.lines = p.cursor.lines →
      Accounts symbol routines (k a) p' rows start P' finish) :
    Accounts symbol routines (m >>= k) p rows start P' finish := by
  cases x with
  | error fault => exact .of_error (Descent.bind_of_error h.of_error) (hfault fault rfl)
  | ok c =>
    obtain ⟨a, p', hrun, hlines, hrelated⟩ := h.of_ok
    exact .step hrun hlines (hk c a p' rfl hrelated hlines)

end Accounts

/-! ### Measuring rows -/

namespace Parser.Before

variable {symbol : List Char} {routines level depth : Nat} {row : Row} {rows : List Row}
  {unit found : Option IndentUnit} {p : Parser}

theorem column (h : p.Before symbol routines (row :: rows) unit) : p.cursor.column = 0 := h.faces.1

theorem row_eq (h : p.Before symbol routines (row :: rows) unit) : p.cursor.row = row :=
  h.faces.2.2.1

theorem more (h : p.Before symbol routines (row :: rows) unit) : p.cursor.atEndOfInput = false :=
  h.faces.2.1

theorem nextLine (h : p.Before symbol routines (row :: rows) unit) :
    p.nextLine.Before symbol routines rows unit :=
  ⟨h.symbol_eq, h.routines_eq, h.unit_eq, h.faces.2.2.2, h.blank⟩

theorem known (h : p.Before symbol routines (row :: rows) unit) (hblank : IndentUnit.Blank found) :
    ({ p with unit := found }).Before symbol routines (row :: rows) found :=
  ⟨h.symbol_eq, h.routines_eq, rfl, h.faces, hblank⟩

theorem measured_eq (h : p.Before symbol routines (row :: rows) unit) (level : Nat) :
    IndentUnit.measured (p.cursor.line + 1) level p.unit p.cursor.rest
      = IndentUnit.measured row.line.number level unit row.chars := by
  rw [Cursor.rest_of_column h.column, h.row_eq, h.unit_eq, ← h.row_eq]
  rfl

/-- The lexemes of the row from a column on. -/
theorem lexemes_moved (h : p.Before symbol routines (row :: rows) unit) (column : Nat) :
    (p.moved column).lexemes = row.lexemes symbol column := by
  rw [← h.row_eq, ← h.symbol_eq, Row.lexemes, Cursor.chars_row]
  rfl

end Parser.Before

namespace Descent

section Measuring

variable {symbol : List Char} {routines level depth : Nat} {row : Row} {rows : List Row}
  {unit found : Option IndentUnit} {p : Parser}

/-- On the level of the block the indentation is passed. -/
theorem measure_of_level (h : p.Before symbol routines (row :: rows) unit)
    (hmeasured : IndentUnit.measured row.line.number level unit row.chars = .ok (level, found)) :
    measure level p
      = some (.ok (true, ({ p with unit := found }).moved (IndentUnit.indent level found))) := by
  have hfollows := measure_follows level p
  rw [h.measured_eq, hmeasured] at hfollows
  obtain ⟨goesOn, p', hrun, -, hgoesOn, -, hstate, hpasses, -⟩ := hfollows.of_ok
  obtain rfl : goesOn = true := hgoesOn.trans (decide_eq_true (Nat.le_refl _))
  have hcolumn := hpasses rfl
  rw [h.column, Nat.zero_add] at hcolumn
  rw [hrun, hstate, hcolumn]
  rfl

/-- Where the line is not that deep, nothing moves. -/
theorem measure_of_outer (h : p.Before symbol routines (row :: rows) unit)
    (hmeasured : IndentUnit.measured row.line.number level unit row.chars = .ok (depth, found))
    (hdepth : depth < level) : measure level p = some (.ok (false, { p with unit := found })) := by
  have hfollows := measure_follows level p
  rw [h.measured_eq, hmeasured] at hfollows
  obtain ⟨goesOn, p', hrun, -, hgoesOn, -, hstate, -, hstays⟩ := hfollows.of_ok
  obtain rfl : goesOn = false := hgoesOn.trans (decide_eq_false (Nat.not_le_of_lt hdepth))
  have hcolumn : p'.cursor.column = p.cursor.column := (hstays rfl h.column).trans h.column.symm
  rw [hrun, hstate, hcolumn]

theorem measure_of_error {fault : Fault} (h : p.Before symbol routines (row :: rows) unit)
    (hmeasured : IndentUnit.measured row.line.number level unit row.chars = .error fault) :
    measure level p = some (.error (.ofFault p.cursor.lines fault)) := by
  have hfollows := measure_follows level p
  rw [h.measured_eq, hmeasured] at hfollows
  exact hfollows.of_error

theorem findAlternative_of_end (h : p.cursor.atEndOfInput = true) :
    findAlternative level p = some (.ok (false, p)) := by
  rw [findAlternative, get_bind]
  simp only [h, if_true]
  rfl

theorem findAlternative_of_more (h : p.cursor.atEndOfInput = false) :
    findAlternative level p = (measure level >>= fun goesOn =>
      if goesOn then peekToken >>= fun stop =>
        if stop.is (.keyword .wpp) then pure true
        else move (·.restore p.cursor.position) >>= fun _ => pure false
      else move (·.restore p.cursor.position) >>= fun _ => pure false) p := by
  rw [findAlternative, get_bind]
  simp only [h, Bool.false_eq_true, if_false]

/-- Going back on the line. -/
theorem restore_run (column : Nat) (p : Parser) :
    (move (·.restore p.cursor.position) >>= fun _ => pure false) (p.moved column)
      = some (.ok (false, p)) := by
  have hback : ({ p.moved column with
      cursor := (p.moved column).cursor.restore p.cursor.position } : Parser) = p := by
    simp only [Parser.moved, Cursor.restore_position]
  rw [bind_of_ok (move_eq _ _), hback]
  rfl

theorem findAlternative_of_outer (h : p.Before symbol routines (row :: rows) unit)
    (hmeasured : IndentUnit.measured row.line.number level unit row.chars = .ok (depth, unit))
    (hdepth : depth < level) : findAlternative level p = some (.ok (false, p)) := by
  have hsame : ({ p with unit := unit } : Parser) = p := by rw [← h.unit_eq]
  have hmeasure := measure_of_outer h hmeasured hdepth
  rw [hsame] at hmeasure
  rw [findAlternative_of_more h.more, bind_of_ok hmeasure, if_neg Bool.false_ne_true]
  exact restore_run p.cursor.column p

/-- The token that a line of the block starts with is looked at. -/
theorem findAlternative_of_level (h : p.Before symbol routines (row :: rows) unit)
    (hmeasured : IndentUnit.measured row.line.number level unit row.chars = .ok (level, unit)) :
    findAlternative level p = (peekToken >>= fun stop =>
      if stop.is (.keyword .wpp) then pure true
      else move (·.restore p.cursor.position) >>= fun _ => pure false)
        (p.moved (IndentUnit.indent level unit)) := by
  have hsame : ({ p with unit := unit } : Parser) = p := by rw [← h.unit_eq]
  have hmeasure := measure_of_level h hmeasured
  rw [hsame] at hmeasure
  rw [findAlternative_of_more h.more, bind_of_ok hmeasure, if_pos rfl]

end Measuring

section Counting

variable {symbol : List Char} {routines : Nat} {rows : List Row} {unit : Option IndentUnit}
  {p : Parser}

theorem enter_run (heading : Heading) (h : p.Before symbol routines rows unit) :
    ∃ p', enter heading p = some (.ok ((), p')) ∧ p'.cursor = p.cursor
      ∧ p'.Before symbol (routines + if heading.isRoutine then 1 else 0) rows unit :=
  ⟨_, rfl, rfl, h.symbol_eq, congrArg (· + _) h.routines_eq, h.unit_eq, h.faces, h.blank⟩

theorem leave_run (heading : Heading)
    (h : p.Before symbol (routines + if heading.isRoutine then 1 else 0) rows unit) :
    ∃ p', leave heading p = some (.ok ((), p')) ∧ p'.cursor = p.cursor
      ∧ p'.Before symbol routines rows unit := by
  have hcount : p.routines - (if heading.isRoutine then 1 else 0) = routines := by
    rw [h.routines_eq, Nat.add_sub_cancel]
  exact ⟨_, rfl, rfl, h.symbol_eq, hcount, h.unit_eq, h.faces, h.blank⟩

end Counting

end Descent

/-- A line that starts with a fault holds that fault. -/
theorem readForm_of_error {line : SourceLine} {inRoutine : Bool} {lexemes : Lexemes} {fault : Fault}
    (h : Stop.next lexemes.ending lexemes.items = .error fault) :
    readForm line inRoutine lexemes = .error fault := by
  have hexpression : Form.expressionToEnd line lexemes.ending lexemes.items = .error fault := by
    rw [Form.expressionToEnd_eq, Reader.outcome_of_error h]
    rfl
  unfold readForm
  rcases hitems : lexemes.items with _ | ⟨⟨token, next⟩ | fault', items⟩
  · rw [hitems] at hexpression
    simp only [hexpression]
    rfl
  · rw [hitems] at h
    cases h
  · rw [hitems] at hexpression
    simp only [hexpression]
    rfl

/-- Whether a line starts with `wpp`, by its first token. -/
theorem startsAlternative_eq_is {lexemes : Lexemes} {stop : Stop}
    (h : Stop.next lexemes.ending lexemes.items = .ok stop) :
    Outline.startsAlternative lexemes = stop.is (.keyword .wpp) := by
  unfold Outline.startsAlternative
  split
  · rename_i position next items hitems
    rw [hitems] at h
    cases h
    rfl
  · rename_i hnot
    symm
    rw [Bool.eq_false_iff]
    intro his
    obtain ⟨⟨kind, position⟩, next, hitems, hkind⟩ := Stop.token_of_next h his (by simp)
    obtain rfl : kind = _ := hkind
    exact hnot _ _ _ hitems

theorem startsAlternative_of_error {lexemes : Lexemes} {fault : Fault}
    (h : Stop.next lexemes.ending lexemes.items = .error fault) :
    Outline.startsAlternative lexemes = false := by
  unfold Outline.startsAlternative
  split
  · rename_i hitems
    rw [hitems] at h
    cases h
  · rfl

/-- Behind the indentation of a row that is not blank the text is not over. -/
theorem Row.kind_ne_none {symbol : List Char} {level : Nat} {row : Row}
    {unit found : Option IndentUnit} {stop : Stop} (hrow : row.isBlank = false)
    (hmeasured : IndentUnit.measured row.line.number level unit row.chars = .ok (level, found))
    (hblank : IndentUnit.Blank found)
    (hnext : Stop.next (row.lexemes symbol (IndentUnit.indent level found)).ending
      (row.lexemes symbol (IndentUnit.indent level found)).items = .ok stop) :
    stop.kind? ≠ none := by
  have hdrop := IndentUnit.dropWhile_indent hmeasured hblank
  intro hkind
  cases hchars : row.chars.dropWhile Text.isBlank with
  | nil =>
    unfold Row.isBlank at hrow
    rw [hchars] at hrow
    cases hrow
  | cons c rest =>
    rw [hchars] at hdrop
    rw [Row.lexemes, Token.lexemesFrom_of_dropWhile_cons hdrop] at hnext
    split at hnext
    · simp only at hnext
      split at hnext
      · cases hnext
        cases hkind
      · cases hnext
    · cases hnext

namespace Descent

/-- Blocks are read as the outline reads them, within every depth below the bound that is deep enough
for the rows ahead. -/
def BodyAccounts (width bound : Nat) : Prop :=
  ∀ depth < bound, ∀ (symbol : List Char) (routines : Nat) (unit : Option IndentUnit)
    (rows : List Row) (layers : List Layer) (nodes : List Node) (p : Parser),
    Source.Fits width p.cursor.lines → p.Before symbol routines rows unit →
    (layers.any (·.heading.isRoutine) = true ↔ routines ≠ 0) →
    6 * rows.length + width + 6 ≤ depth →
      Accounts symbol routines (body depth layers.length nodes) p rows ⟨unit, nodes, layers⟩
        (fun found => found.rows.length ≤ rows.length
          ∧ Row.EndBlock layers.length found.unit found.rows)
        fun found => ⟨found.unit, found.value.reverse, layers⟩

section Blocks

variable {width bound depth routines : Nat} {symbol : List Char} {unit : Option IndentUnit}
  {rows : List Row} {layer : Layer} {layers : List Layer} {nodes : List Node} {p : Parser}

/-- **A block** is read as the outline reads it, and is not empty. -/
theorem block_accounts (hbody : BodyAccounts width bound) (hbound : depth ≤ bound)
    (hfits : Source.Fits width p.cursor.lines) (hbefore : p.Before symbol routines rows unit)
    (hroutines : (layer :: layers).any (·.heading.isRoutine) = true ↔ routines ≠ 0)
    (hstart : layer.start = p.cursor.position) (hdepth : 6 * rows.length + width + 7 ≤ depth) :
    Accounts symbol routines (block depth (layers.length + 1)) p rows ⟨unit, [], layer :: layers⟩
      (fun found => found.rows.length ≤ rows.length
        ∧ Row.EndBlock (layers.length + 1) found.unit found.rows
        ∧ found.value.all Node.isEndOfLine = false)
      fun found => ⟨found.unit, found.value.reverse, layer :: layers⟩ := by
  obtain ⟨depth, rfl⟩ : ∃ depth', depth = depth' + 1 := ⟨depth - 1, by omega⟩
  rw [block]
  refine .congr (get_bind _ p) ?_
  refine (hbody depth (by omega) symbol routines unit rows (layer :: layers) [] p hfits hbefore
    hroutines (by omega)).bind fun found p' _ hbefore' hfound => ?_
  obtain ⟨hlength, hends⟩ := hfound
  cases hempty : found.value.all Node.isEndOfLine with
  | true =>
    have hempty' : found.value.reverse.all Node.isEndOfLine = true := by rw [List.all_reverse, hempty]
    have hread : Gives (Outline.readAll symbol found.rows
        ⟨found.unit, found.value.reverse, layer :: layers⟩) _ :=
      Outline.gives_of_empty hends hempty'
    rw [hstart] at hread
    exact .of_error rfl hread
  | false =>
    have hrun : (pure found.value : Descent (List Node)) p' = some (.ok (found.value, p')) := rfl
    exact .of_ok found hrun rfl hbefore' ⟨hlength, hends, hempty⟩ fun _ hgives => hgives

section Alternative

variable {test : Node} {line : SourceLine} {start : Position} {before : List Node}

/-- The rows go on behind the `jeżeli`. -/
theorem alternative_of_none (hbefore : p.Before symbol routines rows unit)
    (hends : Row.EndBlock (layers.length + 1) unit rows)
    (hfilled : nodes.all Node.isEndOfLine = false)
    (hrun : findAlternative layers.length p = some (.ok (false, p)))
    (hnot : ∀ row ∈ rows.head?, IndentUnit.measured row.line.number (layers.length + 1) unit
        row.chars = .ok (layers.length, unit) →
      Outline.startsAlternative (row.lexemes symbol (IndentUnit.indent layers.length unit))
        = false) :
    Accounts symbol routines (alternative (depth + 1) layers.length) p rows
      ⟨unit, nodes.reverse, ⟨.condition test, line, start, before⟩ :: layers⟩
      (fun found => found.rows.length ≤ rows.length)
      fun found => ⟨found.unit, (conditionNodes test nodes line found.value).reverse ++ before,
        layers⟩ := by
  rw [alternative]
  refine .step hrun rfl ?_
  have hnone : (pure none : Descent (Option (List Node))) p = some (.ok (none, p)) := rfl
  refine .of_ok ⟨none, rows, unit⟩ hnone rfl hbefore (Nat.le_refl _) fun y hgives => ?_
  exact Outline.gives_of_closed hends (fun row hrow hmeasured hgoesOn =>
    Bool.false_ne_true ((hnot row hrow hmeasured).symm.trans hgoesOn.2)) hfilled hgives

/-- The row begins the other block. -/
theorem alternative_of_some {row : Row} {p₁ : Parser} (hbody : BodyAccounts width bound)
    (hbound : depth ≤ bound) (hfits : Source.Fits width p.cursor.lines)
    (hbefore : p.Before symbol routines (row :: rows) unit)
    (hroutines : layers.any (·.heading.isRoutine) = true ↔ routines ≠ 0)
    (hfilled : nodes.all Node.isEndOfLine = false) (hrow : row.isBlank = false)
    (hmeasured : IndentUnit.measured row.line.number (layers.length + 1) unit row.chars
      = .ok (layers.length, unit))
    (hp₁ : p₁ = p.moved (IndentUnit.indent layers.length unit))
    (hrun : findAlternative layers.length p = some (.ok (true, p₁))) {stop : Stop}
    (hnext : Stop.next p₁.lexemes.ending p₁.lexemes.items = .ok stop)
    (his : stop.is (.keyword .wpp) = true)
    (hdepth : 6 * rows.length + width + 7 ≤ depth) :
    Accounts symbol routines (alternative (depth + 1) layers.length) p (row :: rows)
      ⟨unit, nodes.reverse, ⟨.condition test, line, start, before⟩ :: layers⟩
      (fun found => found.rows.length ≤ (row :: rows).length)
      fun found => ⟨found.unit, (conditionNodes test nodes line found.value).reverse ++ before,
        layers⟩ := by
  have hlexemes : p₁.lexemes = row.lexemes symbol (IndentUnit.indent layers.length unit) :=
    hp₁ ▸ hbefore.lexemes_moved _
  have hlines₁ : p₁.cursor.lines = p.cursor.lines := by rw [hp₁]; rfl
  have hchecked : nodes.reverse.all Node.isEndOfLine = false := by rw [List.all_reverse, hfilled]
  have hstarts := (startsAlternative_eq_is hnext).trans his
  rw [hlexemes] at hstarts
  have hread : Outline.readAll symbol (row :: rows)
      ⟨unit, nodes.reverse, ⟨.condition test, line, start, before⟩ :: layers⟩ = _ :=
    Outline.readAll_alternative hrow hmeasured hstarts
  rw [List.reverse_reverse, ← hlexemes] at hread
  have hfinishing := Gives.of_except (Form.finishLine p₁.lexemes.ending p₁.lexemes.items.tail)
  rw [alternative]
  refine .step hrun hlines₁ ?_
  obtain ⟨p₂, htoken, hreads⟩ := nextToken_of_ok hnext
  rw [if_pos rfl]
  refine .step htoken hreads.leaves.lines ?_
  have hfinish := finishLine_follows p₂
  rw [hreads.leaves.lexemes] at hfinish
  refine .of_follows hfinish (fun fault hfault => ?_) fun _ _ p₃ hfinished hp₃ _ => ?_
  · rw [hread]
    exact Outline.gives_of_checked hchecked (.bind_error (hfinishing.congr hfault))
  · have hnextLine : p₃ = p.nextLine := by
      rw [hp₃, hreads.leaves.nextLine, hp₁, Parser.nextLine_moved]
    subst hnextLine
    have hbefore₃ := hbefore.nextLine
    have hstart : Outline.blockStart row = p.nextLine.cursor.position := by
      rw [← hbefore.row_eq]
      exact (Cursor.position_nextLine p.cursor).symm
    have hfits₃ : Source.Fits width p.nextLine.cursor.lines :=
      (Cursor.lines_nextLine p.cursor).symm ▸ hfits
    have hroutines₃ : (⟨.alternative test nodes, line, Outline.blockStart row, before⟩
        :: layers : List Layer).any (·.heading.isRoutine) = true ↔ routines ≠ 0 := hroutines
    refine .of_later rows ⟨unit, [],
      ⟨.alternative test nodes, line, Outline.blockStart row, before⟩ :: layers⟩
      (fun y hgives => ?_) ?_
    · rw [hread]
      exact Outline.gives_of_checked hchecked (.bind_ok (hfinishing.congr hfinished) hgives)
    · refine (block_accounts hbody hbound hfits₃ hbefore₃ hroutines₃ hstart hdepth).bind
        fun found p₄ _ hbefore₄ hfound => ?_
      obtain ⟨hlength, hends, hfilled₄⟩ := hfound
      have hsome : (pure (some found.value) : Descent (Option (List Node))) p₄
          = some (.ok (some found.value, p₄)) := rfl
      refine .of_ok ⟨some found.value, found.rows, found.unit⟩ hsome rfl hbefore₄
        (Nat.le_succ_of_le hlength) fun y hgives => ?_
      refine Outline.gives_of_closed hends (fun _ _ _ hgoesOn => ?_) hfilled₄ hgives
      obtain ⟨⟨_, heq⟩, -⟩ := hgoesOn
      cases heq

/-- The row starts with a fault. -/
theorem alternative_of_fault {row : Row} {p₁ : Parser} {fault : Fault}
    (hbefore : p.Before symbol routines (row :: rows) unit)
    (hends : Row.EndBlock (layers.length + 1) unit (row :: rows))
    (hfilled : nodes.all Node.isEndOfLine = false) (hrow : row.isBlank = false)
    (houter : IndentUnit.measured row.line.number layers.length unit row.chars
      = .ok (layers.length, unit))
    (hp₁ : p₁ = p.moved (IndentUnit.indent layers.length unit))
    (hrun : findAlternative layers.length p = some (.error (.ofFault p.cursor.lines fault)))
    (hnext : Stop.next p₁.lexemes.ending p₁.lexemes.items = .error fault) :
    Accounts symbol routines (alternative (depth + 1) layers.length) p (row :: rows)
      ⟨unit, nodes.reverse, ⟨.condition test, line, start, before⟩ :: layers⟩
      (fun found => found.rows.length ≤ (row :: rows).length)
      fun found => ⟨found.unit, (conditionNodes test nodes line found.value).reverse ++ before,
        layers⟩ := by
  have hlexemes : p₁.lexemes = row.lexemes symbol (IndentUnit.indent layers.length unit) :=
    hp₁ ▸ hbefore.lexemes_moved _
  rw [alternative]
  refine .of_error (bind_of_error hrun) ?_
  refine Outline.gives_of_closed hends (fun row' heq _ hgoesOn => ?_) hfilled ?_
  · cases heq
    rw [← hlexemes] at hgoesOn
    exact Bool.false_ne_true ((startsAlternative_of_error hnext).symm.trans hgoesOn.2)
  · rw [Outline.readAll_statement hrow houter, ← hlexemes]
    refine .bind_error ((Outline.readStatement_gives _ _ _).congr ?_)
    rw [readForm_of_error hnext]
    rfl

/-- **What follows the block of a `jeżeli`** is read as the outline reads it. -/
theorem alternative_accounts (hbody : BodyAccounts width bound) (hbound : depth ≤ bound)
    (hfits : Source.Fits width p.cursor.lines) (hbefore : p.Before symbol routines rows unit)
    (hroutines : layers.any (·.heading.isRoutine) = true ↔ routines ≠ 0)
    (hends : Row.EndBlock (layers.length + 1) unit rows)
    (hfilled : nodes.all Node.isEndOfLine = false) (hdepth : 6 * rows.length + width + 3 ≤ depth) :
    Accounts symbol routines (alternative depth layers.length) p rows
      ⟨unit, nodes.reverse, ⟨.condition test, line, start, before⟩ :: layers⟩
      (fun found => found.rows.length ≤ rows.length)
      fun found => ⟨found.unit, (conditionNodes test nodes line found.value).reverse ++ before,
        layers⟩ := by
  obtain ⟨depth, rfl⟩ : ∃ depth', depth = depth' + 1 := ⟨depth - 1, by omega⟩
  cases rows with
  | nil =>
    exact alternative_of_none hbefore hends hfilled (findAlternative_of_end hbefore.faces)
      fun _ h => nomatch h
  | cons row rows =>
    rw [List.length_cons] at hdepth
    obtain ⟨hrow, depth', hlt, hmeasured⟩ := hends row rfl
    have hle : depth' ≤ layers.length := Nat.le_of_lt_succ hlt
    -- the block has measured this row already, and outside the block it is measured again
    have houter := IndentUnit.measured_outer hmeasured (Nat.le_succ _) hle
    rcases Nat.lt_or_eq_of_le hle with hless | rfl
    · refine alternative_of_none hbefore hends hfilled
        (findAlternative_of_outer hbefore houter hless) fun row' heq hmeasured' => ?_
      cases heq
      rw [hmeasured] at hmeasured'
      cases hmeasured'
      exact absurd hless (Nat.lt_irrefl _)
    · have hfind := findAlternative_of_level hbefore houter
      have hlexemes := hbefore.lexemes_moved (IndentUnit.indent layers.length unit)
      generalize hp₁ : p.moved (IndentUnit.indent layers.length unit) = p₁ at hfind hlexemes
      have hlines₁ : p₁.cursor.lines = p.cursor.lines := by rw [← hp₁]; rfl
      cases hnext : Stop.next p₁.lexemes.ending p₁.lexemes.items with
      | error fault =>
        have hpeek := peekToken_of_error hnext
        rw [hlines₁] at hpeek
        exact alternative_of_fault hbefore hends hfilled hrow houter hp₁.symm
          (hfind.trans (bind_of_error hpeek)) hnext
      | ok stop =>
        rw [bind_of_ok (peekToken_of_ok hnext)] at hfind
        cases his : stop.is (.keyword .wpp) with
        | true =>
          rw [if_pos his] at hfind
          exact alternative_of_some hbody (by omega) hfits hbefore hroutines hfilled hrow hmeasured
            hp₁.symm hfind hnext his (by omega)
        | false =>
          rw [if_neg (by rw [his]; exact Bool.false_ne_true), ← hp₁] at hfind
          refine alternative_of_none hbefore hends hfilled (hfind.trans (restore_run _ p))
            fun row' heq _ => ?_
          cases heq
          rw [← hlexemes, startsAlternative_eq_is hnext, his]

end Alternative

/-- **What belongs to a heading** is read as the outline reads it. -/
theorem headed_accounts {heading : Heading} {line : SourceLine} {start : Position}
    {before : List Node} (hbody : BodyAccounts width bound) (hbound : depth ≤ bound)
    (hfits : Source.Fits width p.cursor.lines) (hbefore : p.Before symbol routines rows unit)
    (hroutines : layers.any (·.heading.isRoutine) = true ↔ routines ≠ 0)
    (hstart : start = p.cursor.position) (hdepth : 6 * rows.length + width + 7 ≤ depth) :
    Accounts symbol routines
      (headed (block depth (layers.length + 1)) (alternative depth layers.length) line heading) p rows
      ⟨unit, [], ⟨heading, line, start, before⟩ :: layers⟩
      (fun found => found.rows.length ≤ rows.length)
      fun found => ⟨found.unit, found.value.reverse ++ before, layers⟩ := by
  have hroutines' : (⟨heading, line, start, before⟩ :: layers : List Layer).any
      (·.heading.isRoutine) = true ↔ routines + (if heading.isRoutine then 1 else 0) ≠ 0 := by
    rw [List.any_cons]
    cases heading.isRoutine with
    | true => simp
    | false => simpa using hroutines
  obtain ⟨p₁, henter, hcursor₁, hbefore₁⟩ := enter_run heading hbefore
  rw [← hcursor₁] at hfits hstart
  have hlayer : (⟨heading, line, start, before⟩ : Layer).start = p₁.cursor.position := hstart
  refine .step henter (congrArg Cursor.lines hcursor₁) ?_
  refine (block_accounts hbody hbound hfits hbefore₁ hroutines' hlayer hdepth).bind
    fun found p₂ hlines₂ hbefore₂ hfound => ?_
  obtain ⟨hlength, hends, hfilled⟩ := hfound
  obtain ⟨p₃, hleave, hcursor₃, hbefore₃⟩ := leave_run heading hbefore₂
  have hlines₃ := congrArg Cursor.lines hcursor₃
  have hfits₃ : Source.Fits width p₃.cursor.lines := (hlines₃.trans hlines₂).symm ▸ hfits
  refine .step hleave hlines₃ ?_
  cases heading with
  | condition test =>
    refine (alternative_accounts hbody hbound hfits₃ hbefore₃ hroutines hends hfilled
      (by omega)).bind fun others p₄ _ hbefore₄ hlength₄ => ?_
    have hrun : (pure (conditionNodes test found.value line others.value) : Descent (List Node)) p₄
        = some (.ok (conditionNodes test found.value line others.value, p₄)) := rfl
    exact .of_ok ⟨conditionNodes test found.value line others.value, others.rows, others.unit⟩ hrun
      rfl hbefore₄ (Nat.le_trans hlength₄ hlength) fun _ hgives => hgives
  | _ =>
    refine .of_ok ⟨_, found.rows, found.unit⟩ rfl rfl hbefore₃ hlength fun y hgives => ?_
    refine Outline.gives_of_closed hends (fun _ _ _ hgoesOn => ?_) hfilled hgives
    obtain ⟨⟨_, heq⟩, -⟩ := hgoesOn
    cases heq

section Statement

variable {row : Row} {p₁ : Parser}

/-- The outline reads a row on the level of its innermost block and takes what the row holds. -/
theorem gives_of_form {read : Form} {y : Except Fault Outline} (hrow : row.isBlank = false)
    (hmeasured : IndentUnit.measured row.line.number layers.length unit row.chars
      = .ok (layers.length, unit))
    (hform : readForm row.line (layers.any (·.heading.isRoutine))
      (row.lexemes symbol (IndentUnit.indent layers.length unit)) = .ok read)
    (hgives : Gives (((⟨unit, nodes, layers⟩ : Outline).take row read).readAll symbol rows) y) :
    Gives (Outline.readAll symbol (row :: rows) ⟨unit, nodes, layers⟩) y := by
  rw [Outline.readAll_statement hrow hmeasured]
  refine .bind_ok ((Outline.readStatement_gives _ row _).congr ?_) hgives
  show (readForm row.line (layers.any _) _).bind _ = _
  rw [hform]
  rfl

theorem gives_of_no_form {fault : Fault} (hrow : row.isBlank = false)
    (hmeasured : IndentUnit.measured row.line.number layers.length unit row.chars
      = .ok (layers.length, unit))
    (hform : readForm row.line (layers.any (·.heading.isRoutine))
      (row.lexemes symbol (IndentUnit.indent layers.length unit)) = .error fault) :
    Gives (Outline.readAll symbol (row :: rows) ⟨unit, nodes, layers⟩) (.error fault) := by
  rw [Outline.readAll_statement hrow hmeasured]
  refine .bind_error ((Outline.readStatement_gives _ row _).congr ?_)
  show (readForm row.line (layers.any _) _).bind _ = _
  rw [hform]
  rfl

/-- What the row holds is read into the outline. -/
theorem taken_accounts {read : Form} (hbody : BodyAccounts width bound) (hbound : depth ≤ bound)
    (hfits : Source.Fits width p.cursor.lines)
    (hbefore : p.Before symbol routines (row :: rows) unit)
    (hroutines : layers.any (·.heading.isRoutine) = true ↔ routines ≠ 0)
    (hdepth : 6 * rows.length + width + 7 ≤ depth) :
    Accounts symbol routines (taken (block depth (layers.length + 1))
        (alternative depth layers.length) row.line read) p.nextLine rows
      ((⟨unit, nodes, layers⟩ : Outline).take row read)
      (fun found => found.rows.length ≤ rows.length)
      fun found => ⟨found.unit, found.value.reverse ++ nodes, layers⟩ := by
  cases read with
  | simple node =>
    have hrun : (pure [node, .endOfLine] : Descent (List Node)) p.nextLine
        = some (.ok ([node, .endOfLine], p.nextLine)) := rfl
    exact .of_ok ⟨[node, .endOfLine], rows, unit⟩ hrun rfl hbefore.nextLine (Nat.le_refl _)
      fun _ hgives => hgives
  | heading heading =>
    have hstart : Outline.blockStart row = p.nextLine.cursor.position := by
      rw [← hbefore.row_eq]
      exact (Cursor.position_nextLine p.cursor).symm
    have hfits' : Source.Fits width p.nextLine.cursor.lines :=
      (Cursor.lines_nextLine p.cursor).symm ▸ hfits
    exact headed_accounts hbody hbound hfits' hbefore.nextLine hroutines hstart hdepth

/-- **A statement** is read as the outline reads it. -/
theorem statement_accounts (hbody : BodyAccounts width bound)
    (hbound : depth ≤ bound) (hfits : Source.Fits width p.cursor.lines)
    (hbefore : p.Before symbol routines (row :: rows) unit)
    (hroutines : layers.any (·.heading.isRoutine) = true ↔ routines ≠ 0)
    (hrow : row.isBlank = false)
    (hmeasured : IndentUnit.measured row.line.number layers.length unit row.chars
      = .ok (layers.length, unit))
    (hp₁ : p₁ = p.moved (IndentUnit.indent layers.length unit))
    (hdepth : 6 * rows.length + width + 8 ≤ depth) :
    Accounts symbol routines (statement depth layers.length) p₁ (row :: rows) ⟨unit, nodes, layers⟩
      (fun found => found.rows.length ≤ rows.length)
      fun found => ⟨found.unit, found.value.reverse ++ nodes, layers⟩ := by
  obtain ⟨depth, rfl⟩ : ∃ depth', depth = depth' + 1 := ⟨depth - 1, by omega⟩
  have hlexemes : p₁.lexemes = row.lexemes symbol (IndentUnit.indent layers.length unit) :=
    hp₁ ▸ hbefore.lexemes_moved _
  have hline : p₁.cursor.currentLine = row.line := by rw [hp₁, ← hbefore.row_eq]; rfl
  have hfits₁ : Source.Fits depth p₁.cursor.lines := by
    rw [hp₁]
    exact hfits.mono (by omega)
  rw [statement]
  refine .congr (get_bind _ p₁) ?_
  simp only [hline]
  refine .of_follows (nextToken_follows p₁) (fun fault hfault => ?_)
    fun _ stop p₂ hnext hstop _ => ?_
  · rw [hlexemes] at hfault
    exact gives_of_no_form hrow hmeasured (readForm_of_error hfault)
  · obtain ⟨rfl, hreads⟩ := hstop
    cases hkind : stop.kind? with
    | none =>
      -- behind the indentation of a row that is not blank the text cannot be over
      rw [hlexemes] at hnext
      exact absurd hkind (Row.kind_ne_none hrow hmeasured hbefore.blank hnext)
    | some kind =>
      have hroutines₂ : layers.any (·.heading.isRoutine) = true ↔ p₂.routines ≠ 0 := by
        rw [hreads.leaves.moved, hp₁]
        exact hbefore.routines_eq.symm ▸ hroutines
      have hform := form_follows hfits₁ row.line hnext hkind hreads hroutines₂
      rw [hlexemes] at hform
      refine .of_follows hform (fun fault hfault => gives_of_no_form hrow hmeasured hfault)
        fun _ read p₃ hread hended _ => ?_
      obtain ⟨rfl, rfl⟩ := hended
      have hnextLine : p₂.nextLine = p.nextLine := by
        rw [hreads.leaves.nextLine, hp₁, Parser.nextLine_moved]
      rw [hnextLine]
      exact .of_later rows ((⟨unit, nodes, layers⟩ : Outline).take row read)
        (fun _ hgives => gives_of_form hrow hmeasured hread hgives)
        (taken_accounts hbody (by omega) hfits hbefore hroutines (by omega))

end Statement

/-- A round that goes on is one row further on, and one that does not is at the end of the block. -/
structure Round (level : Nat) (rows : List Row) (found : Answer (Bool × List Node)) : Prop where
  le : found.rows.length ≤ rows.length
  goesOn : found.value.1 = true → found.rows.length < rows.length
  ends : found.value.1 = false → Row.EndBlock level found.unit found.rows

theorem round_further {level : Nat} {rows' : List Row} {unit' : Option IndentUnit}
    (h : rows'.length < rows.length) : Round level rows ⟨(true, nodes), rows', unit'⟩ :=
  ⟨Nat.le_of_lt h, fun _ => h, Bool.noConfusion⟩

theorem round_last {level : Nat} {rows' : List Row} {unit' : Option IndentUnit}
    (h : rows'.length ≤ rows.length) (hends : Row.EndBlock level unit' rows') :
    Round level rows ⟨(false, nodes), rows', unit'⟩ :=
  ⟨h, Bool.noConfusion, fun _ => hends⟩

/-- A row that holds no statement leaves a mark. -/
theorem pass_accounts_blank {row : Row} (hbefore : p.Before symbol routines (row :: rows) unit)
    (hrow : row.isBlank = true) :
    Accounts symbol routines (pass (depth + 1) layers.length nodes) p (row :: rows)
      ⟨unit, nodes, layers⟩ (Round layers.length (row :: rows))
      fun found => ⟨found.unit, found.value.2, layers⟩ := by
  have hblank : p.cursor.restIsBlank = true := by
    rw [Cursor.restIsBlank_of_column hbefore.column, hbefore.row_eq, hrow]
  rw [pass]
  refine .congr (get_bind _ p) ?_
  simp only [hbefore.more, hblank, Bool.false_eq_true, if_false, if_true]
  refine .step (move_eq _ p) p.cursor.lines_nextLine ?_
  refine .of_ok ⟨(p.cursor.nextLine.1, .endOfLine :: nodes), rows, unit⟩ rfl rfl hbefore.nextLine
    ⟨Nat.le_succ _, fun _ => Nat.lt_succ_self _, fun hlast => ?_⟩ fun y hgives => ?_
  · rw [Cursor.eq_nil_of_last hlast hbefore.nextLine.faces]
    exact .nil
  · rw [Outline.readAll_blank hrow]
    exact hgives

/-- A row that is not blank is measured. -/
theorem pass_accounts_filled {row : Row} (hbody : BodyAccounts width bound) (hbound : depth ≤ bound)
    (hfits : Source.Fits width p.cursor.lines)
    (hbefore : p.Before symbol routines (row :: rows) unit)
    (hroutines : layers.any (·.heading.isRoutine) = true ↔ routines ≠ 0)
    (hrow : row.isBlank = false) (hdepth : 6 * rows.length + width + 8 ≤ depth) :
    Accounts symbol routines (pass (depth + 1) layers.length nodes) p (row :: rows)
      ⟨unit, nodes, layers⟩ (Round layers.length (row :: rows))
      fun found => ⟨found.unit, found.value.2, layers⟩ := by
  have hblank : p.cursor.restIsBlank = false := by
    rw [Cursor.restIsBlank_of_column hbefore.column, hbefore.row_eq, hrow]
  rw [pass]
  refine .congr (get_bind _ p) ?_
  simp only [hbefore.more, hblank, Bool.false_eq_true, if_false]
  cases hmeasured : IndentUnit.measured row.line.number layers.length unit row.chars with
  | error fault =>
    exact .of_error (bind_of_error (measure_of_error hbefore hmeasured))
      (Outline.gives_of_unmeasured hrow hmeasured)
  | ok found =>
    obtain ⟨depth', found⟩ := found
    have hle := IndentUnit.measured_le hmeasured
    have hagain := IndentUnit.measured_outer hmeasured (Nat.le_refl _) hle
    have hknown := hbefore.known (IndentUnit.measured_blank hmeasured hbefore.blank)
    refine .of_later (row :: rows) ⟨found, nodes, layers⟩
      (fun y hgives => Outline.gives_of_measured hrow hmeasured hgives) ?_
    rcases Nat.lt_or_eq_of_le hle with hlt | rfl
    · refine .step (measure_of_outer hbefore hmeasured hlt) rfl ?_
      rw [if_neg Bool.false_ne_true]
      have hends : Row.EndBlock layers.length found (row :: rows) := by
        intro row' heq
        cases heq
        exact ⟨hrow, depth', hlt, hagain⟩
      exact .of_ok ⟨(false, nodes), row :: rows, found⟩ rfl rfl hknown
        (round_last (Nat.le_refl _) hends) fun _ hgives => hgives
    · refine .step (measure_of_level hbefore hmeasured) rfl ?_
      rw [if_pos rfl]
      have hfits' : Source.Fits width ({ p with unit := found } : Parser).cursor.lines := hfits
      refine (statement_accounts hbody hbound hfits' hknown hroutines hrow hagain rfl hdepth).bind
        fun read p' _ hbefore' hlength => ?_
      exact .of_ok ⟨(true, read.value.reverse ++ nodes), read.rows, read.unit⟩ rfl rfl hbefore'
        (round_further (Nat.lt_succ_of_le hlength)) fun _ hgives => hgives

/-- **A round** is read as the outline reads it. -/
theorem pass_accounts (hbody : BodyAccounts width bound) (hbound : depth ≤ bound)
    (hfits : Source.Fits width p.cursor.lines) (hbefore : p.Before symbol routines rows unit)
    (hroutines : layers.any (·.heading.isRoutine) = true ↔ routines ≠ 0)
    (hdepth : 6 * rows.length + width + 5 ≤ depth) :
    Accounts symbol routines (pass depth layers.length nodes) p rows ⟨unit, nodes, layers⟩
      (Round layers.length rows) fun found => ⟨found.unit, found.value.2, layers⟩ := by
  obtain ⟨depth, rfl⟩ : ∃ depth', depth = depth' + 1 := ⟨depth - 1, by omega⟩
  cases rows with
  | nil =>
    have hend : p.cursor.atEndOfInput = true := hbefore.faces
    rw [pass]
    refine .congr (get_bind _ p) ?_
    simp only [hend, if_true]
    exact .of_ok ⟨(false, nodes), [], unit⟩ rfl rfl hbefore (round_last (Nat.le_refl _) .nil)
      fun _ hgives => hgives
  | cons row rows =>
    rw [List.length_cons] at hdepth
    cases hrow : row.isBlank with
    | true => exact pass_accounts_blank hbefore hrow
    | false => exact pass_accounts_filled hbody (by omega) hfits hbefore hroutines hrow (by omega)

/-- As long as the block goes on, fewer rows are left. -/
theorem body_accounts_succ (hbody : BodyAccounts width (depth + 1))
    (hfits : Source.Fits width p.cursor.lines) (hbefore : p.Before symbol routines rows unit)
    (hroutines : layers.any (·.heading.isRoutine) = true ↔ routines ≠ 0)
    (hdepth : 6 * rows.length + width + 5 ≤ depth) :
    Accounts symbol routines (body (depth + 1) layers.length nodes) p rows ⟨unit, nodes, layers⟩
      (fun found => found.rows.length ≤ rows.length
        ∧ Row.EndBlock layers.length found.unit found.rows)
      fun found => ⟨found.unit, found.value.reverse, layers⟩ := by
  rw [body]
  refine (pass_accounts hbody (Nat.le_succ depth) hfits hbefore hroutines hdepth).bind
    fun round p' hlines' hbefore' hround => ?_
  obtain ⟨⟨goesOn, nodes'⟩, rows', unit'⟩ := round
  obtain ⟨hle, hgoesOn, hends⟩ := hround
  cases goesOn with
  | false =>
    refine .of_ok ⟨nodes'.reverse, rows', unit'⟩ rfl rfl hbefore' ⟨hle, hends rfl⟩
      fun y hgives => ?_
    rwa [List.reverse_reverse] at hgives
  | true =>
    have hless : rows'.length < rows.length := hgoesOn rfl
    have hrest := hbody depth (Nat.lt_succ_self _) symbol routines unit' rows' layers nodes' p'
      (hlines'.symm ▸ hfits) hbefore' hroutines (by omega)
    exact hrest.mono fun found hfound => ⟨Nat.le_trans hfound.1 hle, hfound.2⟩

end Blocks

theorem bodyAccounts (width bound : Nat) : BodyAccounts width bound := by
  induction bound with
  | zero => exact fun _ h => absurd h (Nat.not_lt_zero _)
  | succ bound ih =>
    intro depth hbound symbol routines unit rows layers nodes p hfits hbefore hroutines hdepth
    rcases Nat.lt_succ_iff_lt_or_eq.mp hbound with hlt | rfl
    · exact ih depth hlt symbol routines unit rows layers nodes p hfits hbefore hroutines hdepth
    · obtain ⟨depth', rfl⟩ : ∃ depth', depth = depth' + 1 := ⟨depth - 1, by omega⟩
      exact body_accounts_succ ih hfits hbefore hroutines (by omega)

end Descent

/-! ### Whole texts -/

/-- No row is less deep than the outermost rows. -/
theorem Row.EndBlock.eq_nil {unit : Option IndentUnit} {rows : List Row}
    (h : Row.EndBlock 0 unit rows) : rows = [] := by
  cases rows with
  | nil => rfl
  | cons row rows =>
    obtain ⟨-, _, hlt, -⟩ := h row rfl
    exact absurd hlt (Nat.not_lt_zero _)

/-- What a text is read as, by the outline at its end. -/
theorem Program.parse_of_gives {symbol : List Char} {text : String} {y : Except Fault Outline}
    (h : Gives (Outline.readAll symbol (rows text) {}) y) :
    parse symbol text
      = (y.map fun outline => outline.nodes.reverse).mapError (.ofFault (Source.lines text)) := by
  have hrows : readRows symbol (rows text) = (Outline.readAll symbol (rows text) {} >>= fun outline =>
      Narrated.note (.parsed outline.nodes.reverse.length) >>= fun _ =>
        pure outline.nodes.reverse) := by
    rw [Outline.readAll, bind_assoc]
    rfl
  have hgives : Gives (readRows symbol (rows text))
      (y.bind fun outline => .ok outline.nodes.reverse) := by
    rw [hrows]
    exact h.bind fun outline _ => .bind_ok (.note _) (.pure _)
  have hread := hgives []
  unfold parse read EStateM.run
  unfold Narrated.result at hread
  cases y with
  | error fault =>
    cases hrun : readRows symbol (rows text) [] with
    | ok nodes log =>
      rw [hrun] at hread
      cases hread
    | error fault' log =>
      rw [hrun] at hread
      cases hread
      rfl
  | ok outline =>
    cases hrun : readRows symbol (rows text) [] with
    | ok nodes log =>
      rw [hrun] at hread
      cases hread
      rfl
    | error fault log =>
      rw [hrun] at hread
      cases hread

/-- **A descent through a text** ends, and comes to what the outline comes to. -/
theorem Descent.exists_parse (symbol : List Char) (text : String) :
    ∃ enough, ∀ depth ≥ enough, parse depth symbol text = some (Program.parse symbol text) := by
  obtain ⟨width, hfits⟩ := Source.exists_fits (Source.lines text)
  refine ⟨6 * (Program.rows text).length + width + 6, fun depth hdepth => ?_⟩
  have hbefore : ({ symbol, cursor := .ofText text } : Parser).Before symbol 0 (Program.rows text)
      none :=
    ⟨rfl, rfl, rfl, Cursor.faces_rows text, fun _ h => nomatch h⟩
  have haccounts : Accounts symbol 0 (body depth 0 []) { symbol, cursor := .ofText text }
      (Program.rows text) {} (fun found => found.rows.length ≤ (Program.rows text).length
        ∧ Row.EndBlock 0 found.unit found.rows) fun found => ⟨found.unit, found.value.reverse, []⟩ :=
    bodyAccounts width (depth + 1) depth (Nat.lt_succ_self _) symbol 0 none _ [] [] _ hfits hbefore
      (by simp) hdepth
  obtain ⟨x, hfollows, hread⟩ := haccounts
  cases x with
  | error fault =>
    have hgives : Gives (Outline.readAll symbol (Program.rows text) {}) (.error fault) :=
      hread (fun _ => .error fault) fun _ heq => nomatch heq
    rw [Program.parse_of_gives hgives, parse, StateT.run', hfollows.of_error]
    rfl
  | ok found =>
    obtain ⟨_, p', hrun, -, rfl, -, -, hends⟩ := hfollows.of_ok
    have hgives : Gives (Outline.readAll symbol (Program.rows text) {})
        (.ok ⟨found.unit, found.value.reverse, []⟩) := by
      refine hread (fun _ => .ok ⟨found.unit, found.value.reverse, []⟩) fun found' heq => ?_
      cases heq
      -- no row is less deep than the outermost block, so it ends where the text does
      rw [hends.eq_nil, Outline.readAll_nil]
      exact .pure _
    rw [Program.parse_of_gives hgives, parse, StateT.run', hrun]
    show _ = some (Except.ok found.value.reverse.reverse)
    rw [List.reverse_reverse]
    rfl

/-- **Parsing ends**, whatever the text and the range symbol: a descent through the text ends with the
program or with one error, the same one that the rows come to.  That is so since, wherever a parser
is, a token that is read is the end of its line or of the text or the cursor moves right, and every
round of a loop ends, and the next one begins further on. -/
theorem parsing_ends :
    (∀ symbol text, ∃ enough, ∀ depth ≥ enough,
      Descent.parse depth symbol text = some (Program.parse symbol text))
      ∧ ∀ p : Parser,
        (Descent.Ends Descent.nextToken p fun stop p' => stop.endsLine = false → p.Right p')
          ∧ ∃ enough, ∀ depth ≥ enough, Descent.Progresses depth p :=
  ⟨Descent.exists_parse, fun p => ⟨Descent.nextToken_right p, Descent.exists_progresses p⟩⟩

end Tablica
