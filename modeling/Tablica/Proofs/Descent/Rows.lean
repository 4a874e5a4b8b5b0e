import Tablica.Proofs.Descent.Blocks
import Tablica.Proofs.Syntax.Composition

/-!
# Rows and the blocks that they end

A descent measures a line where the outline of the program measures a row, but it does so more
often.  The body of the innermost block measures the line first; where the line is not that deep, the
block ends, and the block around it measures the line again, with a lower level and perhaps in a unit
that was found in between:

    level 2   measured   0 < 2   the block ends
    level 1   measured   0 < 1   the block ends
    level 0   measured   0       the statement is read

All of them find the same depth, and so the blocks that the outline ends at once for such a row can
be ended one by one.

* `Narrated.Gives` — what a computation comes to, its log apart;
* `Cursor.Faces` — a cursor at the beginning of the first of some rows;
* `IndentUnit.measured_outer` — a line that is measured again;
* `Row.EndBlock` — rows that end a block;
* `Outline.readAll_closes`, `Outline.readAll_alternative` — what they do to it.
-/

namespace Tablica

/-! ### Values without logs -/

namespace Narrated

variable {α β : Type}

/-- The computation comes to the value, whatever its log. -/
def Gives (x : Narrated α) (y : Except Fault α) : Prop :=
  ∀ log, x.result log = y

namespace Gives

variable {x : Narrated α} {y : Except Fault α} {f : α → Narrated β} {g : α → Except Fault β}

theorem pure (a : α) : Gives (pure a) (.ok a) := fun _ => rfl

theorem throw (fault : Fault) : Gives (throw fault : Narrated α) (.error fault) := fun _ => rfl

theorem note (record : LogRecord) : Gives (Narrated.note record) (.ok ()) := fun _ => rfl

theorem of_except (y : Except Fault α) : Gives (ofExcept y) y := by
  intro log
  cases y <;> rfl

theorem bind (h : Gives x y) (hf : ∀ a, y = .ok a → Gives (f a) (g a)) :
    Gives (x >>= f) (y.bind g) := by
  intro log
  have hx := h log
  unfold Narrated.result at hx ⊢
  simp only [Bind.bind, EStateM.bind]
  cases hrun : x log with
  | ok a log' =>
    rw [hrun] at hx
    subst hx
    exact hf a rfl log'
  | error fault log' =>
    rw [hrun] at hx
    subst hx
    rfl

theorem congr {y' : Except Fault α} (h : Gives x y) (heq : y = y') : Gives x y' := heq ▸ h

theorem bind_error {fault : Fault} (h : Gives x (.error fault)) : Gives (x >>= f) (.error fault) :=
  h.bind (g := fun _ => .error fault) fun _ heq => nomatch heq

theorem bind_ok {a : α} {z : Except Fault β} (h : Gives x (.ok a)) (hf : Gives (f a) z) :
    Gives (x >>= f) z :=
  h.bind (g := fun _ => z) fun _ heq => by cases heq; exact hf

end Gives

end Narrated

open Narrated (Gives)

/-! ### Rows ahead -/

namespace Cursor

variable {c : Cursor} {rows : List Row}

/-- The line under the cursor, as a row. -/
def row (c : Cursor) : Row :=
  ⟨c.currentLine, c.onLastLine⟩

/-- The cursor is at the beginning of the first of the rows, and the others follow.  If there is
none, the text is over. -/
def Faces (c : Cursor) : List Row → Prop
  | [] => c.atEndOfInput = true
  | row :: rows => c.column = 0 ∧ c.atEndOfInput = false ∧ c.row = row ∧ c.nextLine.2.Faces rows

theorem chars_row (c : Cursor) : c.row.chars = c.chars :=
  String.toList_ofList

theorem rest_of_column (h : c.column = 0) : c.rest = c.row.chars := by
  rw [chars_row, rest, h, List.drop_zero]

theorem restIsBlank_of_column (h : c.column = 0) : c.restIsBlank = c.row.isBlank := by
  unfold restIsBlank Row.isBlank
  exact rest_of_column h ▸ rfl

theorem nextLine_of_last (h : c.onLastLine = true) :
    c.nextLine = (false, { c with column := c.chars.length }) := if_pos h

theorem nextLine_of_more (h : c.onLastLine = false) :
    c.nextLine = (true, { c with line := c.line + 1, column := 0 }) :=
  if_neg (by rw [h]; exact Bool.false_ne_true)

/-- The block of a heading begins on the next line, or where the text ends. -/
theorem position_nextLine (c : Cursor) : c.nextLine.2.position = Outline.blockStart c.row := by
  unfold Outline.blockStart
  rw [chars_row]
  cases hlast : c.onLastLine with
  | true =>
    have hrow : c.row.isLast = true := hlast
    rw [nextLine_of_last hlast, if_pos hrow]
    rfl
  | false =>
    have hrow : ¬c.row.isLast = true := by
      rw [row, hlast]
      exact Bool.false_ne_true
    rw [nextLine_of_more hlast, if_neg hrow]
    rfl

/-- Behind the last line the text is over. -/
theorem atEndOfInput_nextLine (h : c.onLastLine = true) : c.nextLine.2.atEndOfInput = true := by
  rcases (later_nextLine c).later with hline | hover
  · rw [nextLine_of_last h] at hline
    exact absurd hline (Nat.lt_irrefl _)
  · exact hover

theorem eq_nil_of_last (hlast : c.nextLine.1 = false) (h : c.nextLine.2.Faces rows) :
    rows = [] := by
  cases rows with
  | nil => rfl
  | cons row rows =>
    obtain ⟨-, hend, -⟩ := h
    have hlast : c.onLastLine = true := by
      by_contra hmore
      rw [nextLine_of_more (by simpa using hmore)] at hlast
      cases hlast
    rw [atEndOfInput_nextLine hlast] at hend
    cases hend

theorem chars_of_drop {line : List Char} {lines : List (List Char)}
    (h : c.lines.drop c.line = line :: lines) : c.chars = line := by
  have hget : c.lines[c.line]? = some line := by
    rw [← List.head?_drop, h]
    rfl
  rw [chars, hget]
  rfl

theorem onLastLine_of_drop {line : List Char} {lines : List (List Char)}
    (h : c.lines.drop c.line = line :: lines) : c.onLastLine = lines.isEmpty := by
  have hlength := congrArg List.length h
  rw [List.length_drop, List.length_cons] at hlength
  cases lines with
  | nil =>
    rw [List.length_nil] at hlength
    exact onLastLine_iff.mpr (by omega)
  | cons line' lines =>
    rw [List.length_cons] at hlength
    have hmore : ¬c.onLastLine = true := fun hlast => by
      have hle := onLastLine_iff.mp hlast
      omega
    simpa using hmore

/-- A cursor at the beginning of a line faces the lines from there on, as rows; but the last one only
if it holds a character. -/
theorem faces_ofLines {lines : List (List Char)} (hcolumn : c.column = 0) (hne : lines ≠ [])
    (hlines : c.lines.drop c.line = lines) :
    c.Faces ((Row.ofLines (c.line + 1) lines).filter
      fun row => !(row.isLast && row.line.text.isEmpty)) := by
  induction lines generalizing c with
  | nil => exact absurd rfl hne
  | cons line lines ih =>
    have hchars := chars_of_drop hlines
    have hlast := onLastLine_of_drop hlines
    have hrow : c.row = ⟨⟨c.line + 1, String.ofList line⟩, lines.isEmpty⟩ := by
      rw [row, currentLine, Source.lineAt, hlast]
      exact congrArg (Row.mk ⟨c.line + 1, String.ofList ·⟩ lines.isEmpty) hchars
    have hrest : c.rest = line := by rw [rest, hcolumn, hchars, List.drop_zero]
    rw [Row.ofLines]
    cases lines with
    | nil =>
      replace hlast : c.onLastLine = true := hlast
      have hover : c.nextLine.2.Faces [] := atEndOfInput_nextLine hlast
      cases line with
      | nil =>
        show c.atEndOfInput = true
        rw [atEndOfInput, atEndOfLine, hrest, hlast]
        rfl
      | cons char line =>
        rw [List.filter_cons_of_pos (by simp)]
        refine ⟨hcolumn, ?_, hrow, hover⟩
        rw [atEndOfInput, atEndOfLine, hrest]
        rfl
    | cons line' lines =>
      replace hlast : c.onLastLine = false := hlast
      rw [List.filter_cons_of_pos (by simp)]
      refine ⟨hcolumn, by rw [atEndOfInput, hlast, Bool.and_false], hrow, ?_⟩
      have hnext : c.nextLine.2 = { c with line := c.line + 1, column := 0 } := by
        rw [nextLine_of_more hlast]
      have hdrop : c.lines.drop (c.line + 1) = line' :: lines := by
        rw [← List.tail_drop, hlines, List.tail_cons]
      rw [hnext]
      exact ih rfl (List.cons_ne_nil _ _) hdrop

theorem faces_rows (text : String) : (ofText text).Faces (Program.rows text) :=
  faces_ofLines rfl (Source.lines_ne_nil text) (List.drop_zero)

end Cursor

/-! ### Measuring again -/

namespace IndentUnit

variable {number level depth : Nat} {cs : List Char} {unit found : Option IndentUnit}

/-- A line that fixes no unit does not start with a blank. -/
theorem head_of_discover (h : discover number level cs = .ok none) :
    cs.head?.any Text.isBlank = false := by
  unfold discover at h
  simp only at h
  split at h
  · rename_i hhead
    rw [hhead]
    rfl
  · rename_i c hhead
    split at h
    · rename_i hblank
      rw [hhead]
      simpa using hblank
    · split at h
      · cases h
      · split at h
        · cases h
        · cases h

/-- The unit that a line fixes consists of the blank that it starts with. -/
theorem isBlank_of_discover {unit : IndentUnit} (h : discover number level cs = .ok (some unit)) :
    Text.isBlank unit.character = true := by
  unfold discover at h
  simp only at h
  split at h
  · cases h
  · split at h
    · cases h
    · rename_i hblank
      split at h
      · cases h
      · split at h
        · cases h
        · cases h
          simpa using hblank

/-- What it means inside an open block that a line has a depth. -/
theorem measured_cases (hlevel : level ≠ 0)
    (h : measured number level unit cs = .ok (depth, found)) :
    (unit = none ∧ found = none ∧ depth = 0 ∧ discover number level cs = .ok none)
      ∨ ∃ unit', found = some unit' ∧ unit'.depth number level cs = .ok depth
        ∧ (unit = some unit' ∨ discover number level cs = .ok (some unit')) := by
  rw [measured, if_neg hlevel] at h
  cases hknown : known number level cs unit with
  | error fault =>
    rw [hknown] at h
    cases h
  | ok unit' =>
    rw [hknown] at h
    cases unit' with
    | none =>
      cases h
      cases unit with
      | none => exact .inl ⟨rfl, rfl, rfl, hknown⟩
      | some unit => cases hknown
    | some unit' =>
      have hdepth : (unit'.depth number level cs).bind (fun depth => .ok (depth, some unit'))
          = Except.ok (depth, found) := h
      cases hunit : unit'.depth number level cs with
      | error fault =>
        rw [hunit] at hdepth
        cases hdepth
      | ok depth' =>
        rw [hunit] at hdepth
        cases hdepth
        refine .inr ⟨unit', rfl, hunit, ?_⟩
        cases unit with
        | none => exact .inr hknown
        | some unit =>
          cases hknown
          exact .inl rfl

theorem measured_of_unit {unit : IndentUnit} (hlevel : level ≠ 0)
    (h : unit.depth number level cs = .ok depth) :
    measured number level (some unit) cs = .ok (depth, some unit) := by
  rw [measured, if_neg hlevel]
  show (unit.depth number level cs).bind _ = _
  rw [h]
  rfl

/-- Inside fewer blocks a line has the same depth, unless it is deeper than that. -/
theorem depth_outer {unit : IndentUnit} {level' : Nat} (h : unit.depth number level cs = .ok depth)
    (hdepth : depth ≤ level') : unit.depth number level' cs = .ok depth := by
  obtain ⟨hrun, -, hmixed⟩ := of_depth h
  unfold IndentUnit.depth at h ⊢
  simp only at h ⊢
  split at h
  · cases h
  · rename_i hfits
    cases h
    have hwhole : leadingRun unit.character cs % unit.width = 0 := by
      simp only [not_or, Decidable.not_not] at hfits
      exact hfits.2.2
    have hle : leadingRun unit.character cs ≤ unit.width * level' := by
      rw [hrun]
      exact Nat.mul_le_mul_left _ hdepth
    rw [if_neg]
    rw [not_or, not_or]
    exact ⟨Nat.not_lt_of_le hle, by simpa using hmixed, by simpa using hwhole⟩

/-- A line of depth zero does not start with a blank. -/
theorem head_of_depth_zero {unit : IndentUnit} (h : unit.depth number level cs = .ok 0) :
    cs.head?.any Text.isBlank = false := by
  obtain ⟨hrun, -, hmixed⟩ := of_depth h
  rw [hrun, Nat.mul_zero] at hmixed
  rwa [List.head?_eq_getElem?]

/-- **A line that is measured again**, in the unit that is known now and inside as many blocks or
fewer, has the same depth. -/
theorem measured_outer {level' : Nat} (h : measured number level unit cs = .ok (depth, found))
    (hlevel : level' ≤ level) (hdepth : depth ≤ level') :
    measured number level' found cs = .ok (depth, found) := by
  by_cases hzero : level = 0
  · obtain rfl : level' = 0 := by omega
    rw [measured, if_pos hzero] at h
    rw [measured, if_pos rfl]
    split at h
    · cases h
    · rename_i hhead
      cases h
      rw [if_neg hhead]
  · rcases measured_cases hzero h with ⟨-, rfl, rfl, hdiscover⟩ | ⟨unit', rfl, hunit, -⟩
    · have hhead := head_of_discover hdiscover
      rw [measured]
      split
      · rw [hhead]
        rfl
      · show (discover number level' cs).bind _ = _
        rw [discover_of_head hhead]
        rfl
    · by_cases hzero' : level' = 0
      · obtain rfl : depth = 0 := by omega
        rw [measured, if_pos hzero', head_of_depth_zero hunit]
        rfl
      · exact measured_of_unit hzero' (depth_outer hunit hdepth)

theorem measured_le (h : measured number level unit cs = .ok (depth, found)) : depth ≤ level := by
  by_cases hzero : level = 0
  · rw [measured, if_pos hzero] at h
    split at h
    · cases h
    · cases h
      exact Nat.zero_le _
  · rcases measured_cases hzero h with ⟨-, -, rfl, -⟩ | ⟨unit', -, hunit, -⟩
    · exact Nat.zero_le _
    · exact (of_depth hunit).2.1

/-- The unit consists of blanks. -/
def Blank (unit : Option IndentUnit) : Prop :=
  ∀ unit' ∈ unit, Text.isBlank unit'.character = true

theorem measured_blank (h : measured number level unit cs = .ok (depth, found))
    (hblank : Blank unit) : Blank found := by
  by_cases hzero : level = 0
  · rw [measured, if_pos hzero] at h
    split at h
    · cases h
    · cases h
      exact hblank
  · rcases measured_cases hzero h with ⟨-, rfl, -, -⟩ | ⟨unit', rfl, -, rfl | hdiscover⟩
    · exact fun _ h => nomatch h
    · exact hblank
    · intro unit'' heq
      cases heq
      exact isBlank_of_discover hdiscover

/-- Behind the indentation of a line there is as much as before it, but for blanks. -/
theorem dropWhile_indent (h : measured number level unit cs = .ok (level, found))
    (hblank : Blank found) :
    (cs.drop (indent level found)).dropWhile Text.isBlank = cs.dropWhile Text.isBlank := by
  have hnone : indent level found = 0 →
      (cs.drop (indent level found)).dropWhile Text.isBlank = cs.dropWhile Text.isBlank := by
    intro hindent
    rw [hindent, List.drop_zero]
  by_cases hzero : level = 0
  · refine hnone ?_
    rw [hzero]
    cases found <;> rfl
  · rcases measured_cases hzero h with ⟨-, rfl, -, -⟩ | ⟨unit', rfl, hunit, -⟩
    · exact hnone rfl
    · have hrun : leadingRun unit'.character cs = indent level (some unit') := (of_depth hunit).1
      have hsplit := replicate_leadingRun_append unit'.character cs
      conv_rhs => rw [← hsplit]
      rw [hrun, List.dropWhile_append_of_pos]
      intro c hc
      rw [List.eq_of_mem_replicate hc]
      exact hblank unit' rfl

end IndentUnit

/-! ### Ending blocks -/

/-- The rows end a block of the level: there is none, or the first one is not that deep. -/
def Row.EndBlock (level : Nat) (unit : Option IndentUnit) (rows : List Row) : Prop :=
  ∀ row ∈ rows.head?, row.isBlank = false ∧ ∃ depth < level,
    IndentUnit.measured row.line.number level unit row.chars = .ok (depth, unit)

theorem Row.EndBlock.nil {level : Nat} {unit : Option IndentUnit} : Row.EndBlock level unit [] :=
  fun _ h => absurd h (Option.not_mem_none _)

namespace Outline

variable {symbol : List Char} {outline : Outline} {row : Row} {rows : List Row} {depth : Nat}
  {unit found : Option IndentUnit} {nodes : List Node} {layer : Layer} {layers : List Layer}

/-- The outline measures rows as it is computed. -/
theorem measure_gives (outline : Outline) (row : Row) : Gives (outline.measure row)
    ((IndentUnit.measured row.line.number outline.level outline.unit row.chars).bind fun found =>
      .ok (found.1, { outline with unit := found.2 })) := by
  unfold measure IndentUnit.measured
  simp only
  split
  · split
    · exact .throw _
    · exact .pure _
  · have hdepth : ∀ unit : IndentUnit, Gives
        (do
          let depth ← ofExcept (unit.depth row.line.number outline.level row.chars)
          return (depth, { outline with unit := some unit }) : Narrated (Nat × Outline))
        ((IndentUnit.depthIn row.line.number outline.level row.chars (some unit)).bind fun found =>
          .ok (found.1, { outline with unit := found.2 })) := by
      intro unit
      have hvalue : (IndentUnit.depthIn row.line.number outline.level row.chars (some unit)).bind
            (fun found => .ok (found.1, { outline with unit := found.2 }))
          = (unit.depth row.line.number outline.level row.chars).bind fun depth =>
            .ok (depth, ({ outline with unit := some unit } : Outline)) := by
        show ((unit.depth row.line.number outline.level row.chars).bind _).bind _ = _
        cases unit.depth row.line.number outline.level row.chars <;> rfl
      rw [hvalue]
      exact (Gives.of_except _).bind fun depth _ => .pure _
    cases hunit : outline.unit with
    | some unit => exact hdepth unit
    | none =>
      unfold IndentUnit.known
      simp only
      cases hdiscover : IndentUnit.discover row.line.number outline.level row.chars with
      | error fault => exact .bind_error (.throw _)
      | ok found =>
        cases found with
        | none =>
          have hsame : ({ outline with unit := none } : Outline) = outline := by rw [← hunit]
          show Gives (pure (0, outline)) (.ok (0, { outline with unit := none }))
          rw [hsame]
          exact .pure _
        | some unit =>
          exact .bind_ok (.of_except _) (.bind_ok (.note _) (hdepth unit))

/-- Where the unit is known that is found, nothing changes. -/
theorem measure_eq (h : IndentUnit.measured row.line.number outline.level outline.unit row.chars
    = .ok (depth, outline.unit)) : outline.measure row = pure (depth, outline) := by
  unfold measure
  simp only
  by_cases hzero : outline.level = 0
  · rw [IndentUnit.measured, if_pos hzero] at h
    split at h
    · cases h
    · rename_i hhead
      cases h
      rw [if_pos hzero, if_neg hhead]
  · rw [if_neg hzero]
    rcases IndentUnit.measured_cases hzero h with
      ⟨hunit, -, rfl, hdiscover⟩ | ⟨unit, hunit, hdepth, -⟩
    · rw [hunit, hdiscover]
      rfl
    · have hsame : ({ outline with unit := some unit } : Outline) = outline := by rw [← hunit]
      rw [hunit]
      show (do
        let depth ← ofExcept (unit.depth row.line.number outline.level row.chars)
        return (depth, { outline with unit := some unit }) : Narrated (Nat × Outline)) = _
      rw [hdepth, hsame]
      rfl

theorem close_of_le (h : outline.level ≤ depth) : outline.close depth = pure outline := by
  obtain ⟨unit, nodes, layers⟩ := outline
  cases layers with
  | nil => rfl
  | cons layer layers =>
    rw [close, closeTo, if_pos (Nat.lt_of_succ_le h)]
    rfl

/-- The outline after its innermost block has ended. -/
def closed (unit : Option IndentUnit) (nodes : List Node) (layer : Layer) (layers : List Layer) :
    Outline :=
  ⟨unit, (layer.heading.nodes layer.line nodes.reverse).reverse ++ layer.before, layers⟩

theorem close_layer (h : depth ≤ layers.length) :
    (⟨unit, nodes, layer :: layers⟩ : Outline).close depth = (do
      checkBlock layer (layers.length + 1) nodes
      (closed unit nodes layer layers).close depth) := by
  unfold close
  rw [closeTo, if_neg (Nat.not_lt_of_le h), bind_assoc]
  rfl

/-- A row on the level of the outline is read into its innermost block. -/
theorem place_of_level {lexemes : Lexemes} (h : outline.level = depth) :
    outline.place row lexemes depth = outline.readStatement row lexemes := by
  have hclose : (do (← outline.close depth).readStatement row lexemes)
      = outline.readStatement row lexemes := by
    rw [close_of_le (Nat.le_of_eq h), pure_bind]
  unfold place
  rw [close_of_le (Nat.le_succ_of_le (Nat.le_of_eq h)), pure_bind]
  obtain ⟨unit, nodes, layers⟩ := outline
  rcases layers with _ | ⟨⟨heading, line, start, before⟩, layers⟩
  · exact hclose
  · have hlength : ¬layers.length = depth := by
      rw [← h]
      exact (Nat.succ_ne_self _).symm
    cases heading with
    | condition test =>
      simp only [hlength, decide_false, Bool.false_and, Bool.false_eq_true, if_false]
      exact hclose
    | _ => exact hclose

/-- The row goes on with the `jeżeli` that the layer belongs to. -/
def GoesOn (layer : Layer) (lexemes : Lexemes) : Prop :=
  (∃ test, layer.heading = .condition test) ∧ startsAlternative lexemes = true

/-- **A row that is not as deep as a block** ends it, unless it is the other block of a `jeżeli`. -/
theorem place_closes {lexemes : Lexemes} (h : depth ≤ layers.length)
    (hnot : depth = layers.length → ¬GoesOn layer lexemes) :
    (⟨unit, nodes, layer :: layers⟩ : Outline).place row lexemes depth = (do
      checkBlock layer (layers.length + 1) nodes
      (closed unit nodes layer layers).place row lexemes depth) := by
  rcases Nat.lt_or_eq_of_le h with hlt | rfl
  · unfold place
    rw [close_layer hlt, bind_assoc]
  · have hstatement : (⟨unit, nodes, layer :: layers⟩ : Outline).place row lexemes layers.length
        = ((⟨unit, nodes, layer :: layers⟩ : Outline).close layers.length >>= fun outline =>
          outline.readStatement row lexemes) := by
      have hnot := hnot rfl
      have hopen : (⟨unit, nodes, layer :: layers⟩ : Outline).close (layers.length + 1)
          = pure ⟨unit, nodes, layer :: layers⟩ := close_of_le (Nat.le_refl _)
      unfold place
      rw [hopen, pure_bind]
      obtain ⟨heading, line, start, before⟩ := layer
      cases heading with
      | condition test =>
        have hstarts : startsAlternative lexemes = false := by
          by_contra hstarts
          exact hnot ⟨⟨test, rfl⟩, by simpa using hstarts⟩
        simp only [hstarts, Bool.and_false, Bool.false_eq_true, if_false]
      | _ => rfl
    have hlevel : (closed unit nodes layer layers).level = layers.length := rfl
    rw [hstatement, close_layer (Nat.le_refl _), place_of_level hlevel, bind_assoc,
      close_of_le (Nat.le_of_eq hlevel)]
    rfl

/-! ### All rows -/

theorem readAll_nil : readAll symbol [] outline = outline.close 0 := by
  rw [readAll, List.foldlM_nil, pure_bind]

theorem readAll_cons : readAll symbol (row :: rows) outline
    = (do (← outline.readRow symbol row).readAll symbol rows) := by
  rw [readAll, List.foldlM_cons, bind_assoc]
  rfl

theorem readAll_blank (h : row.isBlank = true) :
    readAll symbol (row :: rows) outline = (outline.append [.endOfLine]).readAll symbol rows := by
  rw [readAll_cons, readRow, if_pos h, pure_bind]

theorem readRow_filled (h : row.isBlank = false) :
    outline.readRow symbol row = outline.readFilled symbol row := by
  rw [readRow, if_neg (by rw [h]; exact Bool.false_ne_true)]

theorem indentOf_eq (outline : Outline) (depth : Nat) :
    outline.indentOf depth = IndentUnit.indent depth outline.unit := by
  unfold indentOf
  cases outline.unit <;> rfl

/-- A row in the unit that is known. -/
theorem readAll_filled (h : row.isBlank = false)
    (hmeasured : IndentUnit.measured row.line.number outline.level outline.unit row.chars
      = .ok (depth, outline.unit)) :
    readAll symbol (row :: rows) outline
      = (do
        let outline ← outline.place row
          (row.lexemes symbol (IndentUnit.indent depth outline.unit)) depth
        outline.readAll symbol rows) := by
  rw [readAll_cons, readRow_filled h, readFilled_eq, measure_eq hmeasured, pure_bind]
  simp only [indentOf_eq]

/-- A row that fixes the unit is read as if the unit had been known. -/
theorem gives_of_measured {y : Except Fault Outline} (h : row.isBlank = false)
    (hmeasured : IndentUnit.measured row.line.number outline.level outline.unit row.chars
      = .ok (depth, found))
    (hgives : Gives (readAll symbol (row :: rows) { outline with unit := found }) y) :
    Gives (readAll symbol (row :: rows) outline) y := by
  have hagain : IndentUnit.measured row.line.number
      ({ outline with unit := found } : Outline).level found row.chars = .ok (depth, found) :=
    IndentUnit.measured_outer hmeasured (Nat.le_refl _) (IndentUnit.measured_le hmeasured)
  have hmeasure := measure_gives outline row
  rw [hmeasured] at hmeasure
  rw [readAll_filled h hagain] at hgives
  rw [readAll_cons, readRow_filled h, readFilled_eq, bind_assoc]
  refine .bind_ok hmeasure ?_
  simp only [indentOf_eq]
  exact hgives

theorem gives_of_unmeasured {fault : Fault} (h : row.isBlank = false)
    (hmeasured : IndentUnit.measured row.line.number outline.level outline.unit row.chars
      = .error fault) : Gives (readAll symbol (row :: rows) outline) (.error fault) := by
  have hmeasure := measure_gives outline row
  rw [hmeasured] at hmeasure
  rw [readAll_cons, readRow_filled h, readFilled_eq]
  exact .bind_error (.bind_error hmeasure)

/-- **Rows that end a block** are read as if it had ended before. -/
theorem readAll_closes (h : Row.EndBlock (layers.length + 1) unit rows)
    (hnot : ∀ row ∈ rows.head?, IndentUnit.measured row.line.number (layers.length + 1) unit
        row.chars = .ok (layers.length, unit) →
      ¬GoesOn layer (row.lexemes symbol (IndentUnit.indent layers.length unit))) :
    readAll symbol rows ⟨unit, nodes, layer :: layers⟩ = (do
      checkBlock layer (layers.length + 1) nodes
      (closed unit nodes layer layers).readAll symbol rows) := by
  cases rows with
  | nil =>
    rw [readAll_nil, close_layer (Nat.zero_le _)]
    exact congrArg (_ >>= ·) (funext fun _ => readAll_nil.symm)
  | cons row rows =>
    obtain ⟨hrow, depth, hlt, hmeasured⟩ := h row rfl
    have hdepth : depth ≤ layers.length := Nat.le_of_lt_succ hlt
    have houter := IndentUnit.measured_outer hmeasured (Nat.le_succ _) hdepth
    have hread : readAll symbol (row :: rows) ⟨unit, nodes, layer :: layers⟩ = _ :=
      readAll_filled hrow hmeasured
    have hread' : (closed unit nodes layer layers).readAll symbol (row :: rows) = _ :=
      readAll_filled hrow houter
    rw [hread, hread', place_closes hdepth fun heq => heq ▸ hnot row rfl (heq ▸ hmeasured),
      bind_assoc]
    rfl

/-- **The other block of a `jeżeli`** begins where the first one ends. -/
theorem readAll_alternative {test : Node} {line : SourceLine} {start : Position}
    {before : List Node} (h : row.isBlank = false)
    (hmeasured : IndentUnit.measured row.line.number (layers.length + 1) unit row.chars
      = .ok (layers.length, unit))
    (hstarts : startsAlternative
      (row.lexemes symbol (IndentUnit.indent layers.length unit)) = true) :
    readAll symbol (row :: rows) ⟨unit, nodes, ⟨.condition test, line, start, before⟩ :: layers⟩
      = (do
        checkBlock ⟨.condition test, line, start, before⟩ (layers.length + 1) nodes
        ofExcept (Form.finishLine (row.lexemes symbol (IndentUnit.indent layers.length unit)).ending
          (row.lexemes symbol (IndentUnit.indent layers.length unit)).items.tail)
        readAll symbol rows ⟨unit, [],
          ⟨.alternative test nodes.reverse, line, blockStart row, before⟩ :: layers⟩) := by
  have hread : readAll symbol (row :: rows)
      ⟨unit, nodes, ⟨.condition test, line, start, before⟩ :: layers⟩ = _ :=
    readAll_filled h hmeasured
  have hopen : (⟨unit, nodes, ⟨.condition test, line, start, before⟩ :: layers⟩ : Outline).close
      (layers.length + 1) = pure ⟨unit, nodes, ⟨.condition test, line, start, before⟩ :: layers⟩ :=
    close_of_le (Nat.le_refl _)
  rw [hread, place, hopen, pure_bind]
  simp only [hstarts, decide_true, Bool.and_true, if_true, bind_assoc, pure_bind]

/-- A row on the level of the innermost block holds a statement of it. -/
theorem readAll_statement (h : row.isBlank = false)
    (hmeasured : IndentUnit.measured row.line.number layers.length unit row.chars
      = .ok (layers.length, unit)) :
    readAll symbol (row :: rows) ⟨unit, nodes, layers⟩ = (do
      let outline ← (⟨unit, nodes, layers⟩ : Outline).readStatement row
        (row.lexemes symbol (IndentUnit.indent layers.length unit))
      outline.readAll symbol rows) := by
  have hread : readAll symbol (row :: rows) ⟨unit, nodes, layers⟩ = _ :=
    readAll_filled h hmeasured
  have hlevel : (⟨unit, nodes, layers⟩ : Outline).level = layers.length := rfl
  rw [hread, place_of_level hlevel]

/-- The outline with what a row holds. -/
def take (outline : Outline) (row : Row) : Form → Outline
  | .simple node => outline.append [node, .endOfLine]
  | .heading heading => outline.openBlock heading row.line (blockStart row)

theorem readStatement_gives (outline : Outline) (row : Row) (lexemes : Lexemes) :
    Gives (outline.readStatement row lexemes)
      ((readForm row.line outline.inRoutine lexemes).bind fun form =>
        .ok (outline.take row form)) := by
  have hform : Gives (do
        match ← ofExcept (readForm row.line outline.inRoutine lexemes) with
        | .simple node => return outline.append [node, .endOfLine]
        | .heading heading => return outline.openBlock heading row.line (blockStart row))
      ((readForm row.line outline.inRoutine lexemes).bind fun form =>
        .ok (outline.take row form)) := by
    refine (Gives.of_except _).bind fun form _ => ?_
    cases form with
    | simple node => exact .pure _
    | heading heading => exact .pure _
  unfold readStatement
  obtain ⟨items, ending⟩ := lexemes
  rcases items with _ | ⟨token | fault, items⟩
  · exact hform
  · exact .bind_ok (.note _) hform
  · exact hform

theorem checkBlock_gives (layer : Layer) (level : Nat) (nodes : List Node) :
    Gives (checkBlock layer level nodes)
      (if nodes.all Node.isEndOfLine then .error ⟨.emptyBlock, layer.start⟩ else .ok ()) := by
  unfold checkBlock
  split
  · exact .bind_error (.throw _)
  · exact .note _

theorem gives_of_checked {α : Type} {f : Unit → Narrated α} {y : Except Fault α} {level : Nat}
    (hfilled : nodes.all Node.isEndOfLine = false) (h : Gives (f ()) y) :
    Gives (checkBlock layer level nodes >>= f) y := by
  have hcheck := checkBlock_gives layer level nodes
  rw [if_neg (by rw [hfilled]; exact Bool.false_ne_true)] at hcheck
  exact .bind_ok hcheck h

/-- A block that is empty may not end. -/
theorem gives_of_empty (h : Row.EndBlock (layers.length + 1) unit rows)
    (hempty : nodes.all Node.isEndOfLine = true) :
    Gives (readAll symbol rows ⟨unit, nodes, layer :: layers⟩)
      (.error ⟨.emptyBlock, layer.start⟩) := by
  have hcheck := checkBlock_gives layer (layers.length + 1) nodes
  rw [if_pos hempty] at hcheck
  -- the other block of a `jeżeli` does not close this one, but it asks for a node in it just as well
  by_cases hgoes : ∃ row ∈ rows.head?, IndentUnit.measured row.line.number (layers.length + 1) unit
      row.chars = .ok (layers.length, unit)
      ∧ GoesOn layer (row.lexemes symbol (IndentUnit.indent layers.length unit))
  · obtain ⟨row, hrow, hmeasured, ⟨test, hheading⟩, hstarts⟩ := hgoes
    cases rows with
    | nil => cases hrow
    | cons row' rows =>
      cases hrow
      obtain ⟨heading, line, start, before⟩ := layer
      cases hheading
      rw [readAll_alternative (h row rfl).1 hmeasured hstarts]
      exact .bind_error hcheck
  · have hnot : ∀ row ∈ rows.head?, IndentUnit.measured row.line.number (layers.length + 1) unit
          row.chars = .ok (layers.length, unit) →
        ¬GoesOn layer (row.lexemes symbol (IndentUnit.indent layers.length unit)) :=
      fun row hrow hmeasured hgoesOn => hgoes ⟨row, hrow, hmeasured, hgoesOn⟩
    rw [readAll_closes h hnot]
    exact .bind_error hcheck

/-- A block that is not empty may end. -/
theorem gives_of_closed {y : Except Fault Outline} (h : Row.EndBlock (layers.length + 1) unit rows)
    (hnot : ∀ row ∈ rows.head?, IndentUnit.measured row.line.number (layers.length + 1) unit
        row.chars = .ok (layers.length, unit) →
      ¬GoesOn layer (row.lexemes symbol (IndentUnit.indent layers.length unit)))
    (hfilled : nodes.all Node.isEndOfLine = false)
    (hgives : Gives (readAll symbol rows
      ⟨unit, (layer.heading.nodes layer.line nodes).reverse ++ layer.before, layers⟩) y) :
    Gives (readAll symbol rows ⟨unit, nodes.reverse, layer :: layers⟩) y := by
  rw [readAll_closes h hnot]
  refine gives_of_checked (by rw [List.all_reverse, hfilled]) ?_
  rw [closed, List.reverse_reverse]
  exact hgives

end Outline

end Tablica
