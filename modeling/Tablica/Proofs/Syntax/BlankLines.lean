import Tablica.Proofs.Source.Edits
import Tablica.Proofs.Syntax.Likeness

/-!
# Blank lines and comments

A line that is blank but for a comment leaves a mark in some block, and nothing else.  A text with
one such line more is **padded**: its rows are those of the original, on lines of other numbers,
with blank rows between them.  The row that used to be the last one need not be the last one any
more; and where it is empty it is now read, as a blank row.

Without their marks the nodes of both texts are the same, on other lines.

* `Node.bare`, `Node.bareBlock` — trees and blocks without marks;
* `Likeness.upToMarks` — blocks that are the same without their marks;
* `Row.Padded` — rows and padded rows; `Program.readRows_padded` — they are read alike;
* `Source.shiftLine`, `Program.rows_insertLine` — the rows of a text with a line more;
* `Program.parse_insertLine` — what such a text is read as.
-/

namespace Tablica

/-! ### Trees without marks -/

namespace Node

mutual

/-- The tree without the marks in its blocks. -/
def bare : Node → Node
  | condition test thenBlock elseBlock line =>
    condition test (bareBlock thenBlock) (bareElse elseBlock) line
  | loop test body iterator line => loop test (bareBlock body) iterator line
  | routine name parameters body isProcedure line =>
    routine name parameters (bareBlock body) isProcedure line
  | node => node

/-- The block without its marks, and those in its blocks. -/
def bareBlock : List Node → List Node
  | [] => []
  | endOfLine :: rest => bareBlock rest
  | node :: rest => bare node :: bareBlock rest

/-- The block without marks, if there is one. -/
def bareElse : Option (List Node) → Option (List Node)
  | none => none
  | some block => some (bareBlock block)

end

@[simp] theorem bareElse_eq_map (block : Option (List Node)) :
    bareElse block = block.map bareBlock := by
  cases block <;> rfl

@[simp] theorem bareBlock_nil : bareBlock [] = [] := rfl

@[simp] theorem bareBlock_mark (nodes : List Node) :
    bareBlock (endOfLine :: nodes) = bareBlock nodes := rfl

theorem eq_endOfLine {node : Node} (h : node.isEndOfLine = true) : node = endOfLine := by
  cases node <;> first | rfl | cases h

theorem bareBlock_cons {node : Node} (h : node.isEndOfLine = false) (nodes : List Node) :
    bareBlock (node :: nodes) = bare node :: bareBlock nodes := by
  cases node <;> first | rfl | cases h

@[simp] theorem bareBlock_append (nodes nodes' : List Node) :
    bareBlock (nodes ++ nodes') = bareBlock nodes ++ bareBlock nodes' := by
  induction nodes with
  | nil => rfl
  | cons node nodes ih =>
    cases hnode : node.isEndOfLine with
    | true =>
      obtain rfl := eq_endOfLine hnode
      exact ih
    | false =>
      rw [List.cons_append, bareBlock_cons hnode, bareBlock_cons hnode, ih, List.cons_append]

theorem bareBlock_eq_nil_iff {nodes : List Node} :
    bareBlock nodes = [] ↔ nodes.all isEndOfLine = true := by
  induction nodes with
  | nil => simp [bareBlock]
  | cons node nodes ih =>
    cases hnode : node.isEndOfLine with
    | true =>
      obtain rfl := eq_endOfLine hnode
      rw [List.all_cons, hnode, Bool.true_and, ← ih, bareBlock_mark]
    | false => simp [bareBlock_cons hnode, hnode]

mutual

/-- Other lines do not touch the marks. -/
theorem bare_mapLines (f : SourceLine → SourceLine) (node : Node) :
    bare (node.mapLines f) = (bare node).mapLines f := by
  cases node with
  | condition test thenBlock elseBlock line =>
    simp only [mapLines, bare, bareBlock_mapLinesOfList f thenBlock,
      bareElse_mapLinesOfBlock f elseBlock]
  | loop test body iterator line =>
    simp only [mapLines, bare, bareBlock_mapLinesOfList f body]
  | routine name parameters body isProcedure line =>
    simp only [mapLines, bare, bareBlock_mapLinesOfList f body]
  | _ => rfl
termination_by structural node

theorem bareBlock_mapLinesOfList (f : SourceLine → SourceLine) (nodes : List Node) :
    bareBlock (mapLinesOfList f nodes) = mapLinesOfList f (bareBlock nodes) := by
  cases nodes with
  | nil => rfl
  | cons node nodes =>
    have hnode := bare_mapLines f node
    have hnodes := bareBlock_mapLinesOfList f nodes
    cases node with
    | endOfLine => exact hnodes
    | _ => exact congrArg₂ List.cons hnode hnodes
termination_by structural nodes

theorem bareElse_mapLinesOfBlock (f : SourceLine → SourceLine) (block : Option (List Node)) :
    bareElse (mapLinesOfBlock f block) = mapLinesOfBlock f (bareElse block) := by
  cases block with
  | none => rfl
  | some nodes => exact congrArg some (bareBlock_mapLinesOfList f nodes)
termination_by structural block

end

theorem bareBlock_map (f : SourceLine → SourceLine) (nodes : List Node) :
    bareBlock (nodes.map (mapLines f)) = (bareBlock nodes).map (mapLines f) := by
  rw [← mapLinesOfList_eq_map, ← mapLinesOfList_eq_map, bareBlock_mapLinesOfList]

end Node

/-- Blocks that are the same without their marks, and the same unit. -/
def Likeness.upToMarks : Likeness where
  block nodes nodes' := Node.bareBlock nodes' = Node.bareBlock nodes
  unit known known' := known' = known
  refl _ := rfl
  append h₁ h₂ := by simp only [Node.bareBlock_append, h₁, h₂]
  marks h := by
    rw [Bool.eq_iff_iff, ← Node.bareBlock_eq_nil_iff, ← Node.bareBlock_eq_nil_iff, h]
  heading heading line _ _ h := by
    cases heading <;> simp [Heading.nodes, Node.bareBlock, Node.bare, h]
  alternative test line _ _ _ _ hthen h := by
    simp [Heading.nodes, Node.bareBlock, Node.bare, hthen, h]

/-! ### Padded rows -/

/-- Rows with blank rows before, between and after them.  The others are on other lines with the
same text, and need not be the last ones any more. -/
inductive Row.Padded (f : SourceLine → SourceLine) : List Row → List Row → Prop
  | nil : Padded f [] []
  | blank {row' : Row} {rows rows' : List Row} (hrow : row'.isBlank = true)
    (hrest : Padded f rows rows') : Padded f rows (row' :: rows')
  | row {row row' : Row} {rows rows' : List Row} (hline : row'.line = f row.line)
    (htext : row'.line.text = row.line.text) (hlast : row'.isLast = true → row.isLast = true)
    (hrest : Padded f rows rows') : Padded f (row :: rows) (row' :: rows')

namespace IndentUnit

variable (number number' level : Nat) (cs : List Char)

/-- The unit that a line fixes does not depend on its number. -/
theorem discover_alike : Relates Fault.SameVariant (fun found found' => found' = found)
    (discover number level cs) (discover number' level cs) := by
  unfold discover
  simp only
  split
  · exact .ok rfl
  · split
    · exact .ok rfl
    · split
      · exact .error rfl
      · split
        · exact .error rfl
        · exact .ok rfl

/-- Nor does its depth. -/
theorem depth_alike (unit : IndentUnit) :
    Relates Fault.SameVariant (fun depth depth' => depth' = depth)
      (unit.depth number level cs) (unit.depth number' level cs) := by
  unfold IndentUnit.depth
  simp only
  split
  · exact .error rfl
  · exact .ok rfl

end IndentUnit

namespace Outline

variable {symbol : List Char} {f : SourceLine → SourceLine} {outline outline' : Outline}
  {row row' : Row} {rows rows' : List Row}

/-- Outlines of rows and of padded rows. -/
abbrev Padded (f : SourceLine → SourceLine) (outline outline' : Outline) : Prop :=
  outline.Alike Likeness.upToMarks f outline'

theorem Padded.withUnit (h : outline.Padded f outline') (unit : Option IndentUnit) :
    Padded f { outline with unit } { outline' with unit } :=
  ⟨rfl, h.nodes, h.layers⟩

/-- **The depth of a row** is told alike, or cannot be told for the same reason. -/
theorem measure_padded (h : outline.Padded f outline') (htext : row'.line.text = row.line.text) :
    Narrated.Alike (fun found found' => found'.1 = found.1 ∧ found.2.Padded f found'.2)
      (outline.measure row) (outline'.measure row') := by
  have hchars : row'.chars = row.chars := congrArg String.toList htext
  have hunit : outline'.unit = outline.unit := h.unit
  have hdepth : ∀ unit : IndentUnit, Narrated.Alike
      (fun found found' => found'.1 = found.1 ∧ found.2.Padded f found'.2)
      (do
        let depth ← ofExcept (unit.depth row.line.number outline.level row.chars)
        return (depth, { outline with unit := some unit }))
      (do
        let depth ← ofExcept (unit.depth row'.line.number outline.level row.chars)
        return (depth, { outline' with unit := some unit })) := fun unit =>
    (Narrated.Alike.of_except (unit.depth_alike _ _ _ _)).bind fun depth depth' hdepth =>
      .pure ⟨hdepth, h.withUnit (some unit)⟩
  unfold measure
  simp only [h.level, hunit, hchars]
  split
  · split
    · exact .throw rfl
    · exact .pure ⟨rfl, h⟩
  · split
    · rename_i unit _
      exact hdepth unit
    · refine (Narrated.Alike.of_except (IndentUnit.discover_alike _ _ _ _)).bind
        fun found found' hfound => ?_
      obtain rfl : found' = found := hfound
      cases found' with
      | none => exact .pure ⟨rfl, h⟩
      | some unit => exact (Narrated.Alike.note _ _).bind fun _ _ _ => hdepth unit

/-- A row whose depth is known does the same on another line. -/
theorem Alike.placeMoved {likeness : Likeness} (h : outline.Alike likeness f outline')
    (hline : row'.line = f row.line) (htext : row'.line.text = row.line.text)
    (hlast : row'.isLast = true → row.isLast = true) (indent depth : Nat) :
    Narrated.Alike (Alike likeness f) (outline.place row (row.lexemes symbol indent) depth)
      (outline'.place row' (row'.lexemes symbol indent) depth) := by
  have hchars : row'.chars = row.chars := congrArg String.toList htext
  let r : Relocation := { line := f, position := fun q => ⟨row'.line.number, q.column⟩ }
  have hmoved : ∀ k ≤ (row.chars.drop indent).length,
      r.position ⟨row.line.number, indent + 1 + k⟩ = ⟨row'.line.number, indent + 1 + k⟩ :=
    fun _ _ => rfl
  obtain ⟨hitems, hending⟩ := Token.lexemesFrom_relocates symbol hlast _ _ _ hmoved
  rw [← hchars] at hitems hending
  have h' : outline.Alike likeness r.line outline' := h
  refine h'.place hline ?_ ?_ depth
  · rw [Row.lexemes, Row.lexemes, hitems, hchars]
  · rw [Row.lexemes, Row.lexemes, ← hchars]
    exact hending

/-- **A row** on another line is read alike. -/
theorem readRow_padded (h : outline.Padded f outline') (hline : row'.line = f row.line)
    (htext : row'.line.text = row.line.text) (hlast : row'.isLast = true → row.isLast = true) :
    Narrated.Alike (Padded f) (outline.readRow symbol row) (outline'.readRow symbol row') := by
  have hchars : row'.chars = row.chars := congrArg String.toList htext
  have hblank : row'.isBlank = row.isBlank := by rw [Row.isBlank_eq, Row.isBlank_eq, hchars]
  unfold readRow
  rw [hblank]
  split
  · exact .pure (h.append rfl)
  · rw [readFilled_eq, readFilled_eq]
    refine (measure_padded h htext).bind fun (depth, measured) (depth', measured') hmeasured => ?_
    obtain ⟨rfl, h⟩ : depth' = depth ∧ measured.Padded f measured' := hmeasured
    have hunit : measured'.unit = measured.unit := h.unit
    have hindent : measured'.indentOf depth' = measured.indentOf depth' := by
      rw [indentOf, indentOf, hunit]
    simp only [hindent]
    exact h.placeMoved hline htext hlast _ depth'

/-- A blank row more leaves outlines alike. -/
theorem Padded.append_mark (h : outline.Padded f outline') :
    outline.Padded f (outline'.append [.endOfLine]) := by
  refine ⟨h.unit, ?_, h.layers⟩
  have hnodes : Node.bareBlock outline'.nodes.reverse
      = Node.bareBlock (outline.nodes.reverse.map (Node.mapLines f)) := h.nodes
  change Node.bareBlock ([Node.endOfLine] ++ outline'.nodes).reverse = _
  rw [List.reverse_append, Node.bareBlock_append, hnodes]
  simp

/-- **Padded rows** are read alike. -/
theorem foldlM_padded (hrows : Row.Padded f rows rows') (h : outline.Padded f outline') :
    Narrated.Alike (Padded f) (rows.foldlM (readRow symbol) outline)
      (rows'.foldlM (readRow symbol) outline') := by
  induction hrows generalizing outline outline' with
  | nil => exact .pure h
  | blank hrow _ ih =>
    rw [List.foldlM_cons, readRow, if_pos hrow, pure_bind]
    exact ih h.append_mark
  | row hline htext hlast _ ih =>
    rw [List.foldlM_cons, List.foldlM_cons]
    exact (readRow_padded h hline htext hlast).bind fun _ _ h => ih h

end Outline

/-- The nodes of padded rows. -/
theorem Program.readRows_padded {symbol : List Char} {f : SourceLine → SourceLine}
    {rows rows' : List Row} (h : Row.Padded f rows rows') :
    Narrated.Alike (fun nodes nodes' =>
        Node.bareBlock nodes' = Node.bareBlock (nodes.map (Node.mapLines f)))
      (readRows symbol rows) (readRows symbol rows') := by
  have hempty : Outline.Padded f {} {} := ⟨rfl, rfl, .nil⟩
  exact (Outline.foldlM_padded h hempty).bind fun _ _ h => h.finish

/-! ### A line more -/

/-- A line of a text that gets one line more, after so many of its lines. -/
def Source.shiftLine (count : Nat) (line : SourceLine) : SourceLine :=
  ⟨if line.number ≤ count then line.number else line.number + 1, line.text⟩

namespace Row

/-- Lines that come after the new one. -/
theorem padded_ofLines {count number : Nat} (h : count < number) (lines : List (List Char)) :
    Padded (Source.shiftLine count) (ofLines number lines) (ofLines (number + 1) lines) := by
  induction lines generalizing number with
  | nil => exact .nil
  | cons line lines ih =>
    refine .row ?_ rfl id (ih (Nat.lt_succ_of_lt h))
    rw [Source.shiftLine, if_neg (Nat.not_le.mpr h)]

/-- The rows of a text with a line more that is blank but for a comment. -/
theorem padded_insertIdx {line : List Char} (hline : Source.holdsNothing line = true)
    (number count : Nat) (lines : List (List Char)) :
    Padded (Source.shiftLine (number + count)) (ofLines (number + 1) lines)
      (ofLines (number + 1) (lines.insertIdx count line)) := by
  have hblank : ∀ number isLast, (Row.mk ⟨number, String.ofList line⟩ isLast).isBlank = true :=
    fun number isLast => by rw [isBlank_eq, chars, String.toList_ofList, hline]
  induction lines generalizing number count with
  | nil =>
    cases count with
    | zero => exact .blank (hblank _ _) .nil
    | succ count => exact .nil
  | cons line' lines ih =>
    cases count with
    | zero => exact .blank (hblank _ _) (padded_ofLines (Nat.lt_succ_self _) _)
    | succ count =>
      rw [List.insertIdx_succ_cons, ← Nat.add_assoc, Nat.add_right_comm]
      refine .row ?_ rfl (fun hlast => ?_) (ih (number + 1) count)
      · rw [Source.shiftLine, if_pos (by simp only; omega)]
      · -- a line that was followed by others still is
        have hlength := List.length_le_length_insertIdx (l := lines) (x := line) (i := count)
        rw [List.isEmpty_iff.mp hlast] at hlength
        exact List.isEmpty_iff.mpr (List.length_eq_zero_iff.mp (Nat.le_zero.mp hlength))

/-- An empty last row is not read.  If it is not the last one any more it is a blank row. -/
theorem Padded.filter {f : SourceLine → SourceLine} {rows rows' : List Row}
    (h : Padded f rows rows') :
    Padded f (rows.filter fun row => !(row.isLast && row.line.text.isEmpty))
      (rows'.filter fun row => !(row.isLast && row.line.text.isEmpty)) := by
  induction h with
  | nil => exact .nil
  | @blank row' rows rows' hrow _ ih =>
    rw [List.filter_cons (x := row')]
    split
    · exact .blank hrow ih
    · exact ih
  | @row row row' rows rows' hline htext hlast _ ih =>
    cases hempty : row.line.text.isEmpty with
    | false =>
      rw [List.filter_cons_of_pos (by simp [hempty]),
        List.filter_cons_of_pos (by simp [htext, hempty])]
      exact .row hline htext hlast ih
    | true =>
      have hblank : row'.isBlank = true := by
        rw [isBlank_eq, chars, htext, String.isEmpty_iff.mp hempty]
        rfl
      cases hlast' : row'.isLast with
      | true =>
        rw [List.filter_cons_of_neg (by simp [hempty, hlast hlast']),
          List.filter_cons_of_neg (by simp [htext, hempty, hlast'])]
        exact ih
      | false =>
        rw [List.filter_cons_of_pos (a := row') (by simp [hlast'])]
        cases hlastRow : row.isLast with
        | true =>
          rw [List.filter_cons_of_neg (by simp [hempty, hlastRow])]
          exact .blank hblank ih
        | false =>
          rw [List.filter_cons_of_pos (by simp [hlastRow])]
          exact .row hline htext hlast ih

end Row

/-- The rows of a text with a line more. -/
theorem Program.rows_insertLine {line : List Char} (hfeed : '\n' ∉ line)
    (hline : Source.holdsNothing (Source.dropReturn line) = true) (count : Nat) (text : String) :
    Row.Padded (Source.shiftLine count) (rows text) (rows (Source.insertLine count line text)) := by
  rw [rows, rows, Row.ofText, Row.ofText, Source.lines_insertLine hfeed]
  have hpadded := Row.padded_insertIdx hline 0 count (Source.lines text)
  rw [Nat.zero_add] at hpadded
  exact hpadded.filter

/-- **A text with a line more** that is blank but for a comment is read as the same program, apart
from the marks and the numbers of the lines, or both texts are at fault for the same reason. -/
theorem Program.parse_insertLine {line : List Char} (hfeed : '\n' ∉ line)
    (hline : Source.holdsNothing (Source.dropReturn line) = true) (symbol : List Char)
    (count : Nat) (text : String) :
    Relates (fun e e' => e'.kind.ctorIdx = e.kind.ctorIdx)
      (fun nodes nodes' => Node.bareBlock nodes'
        = Node.bareBlock (nodes.map (Node.mapLines (Source.shiftLine count))))
      (parse symbol text) (parse symbol (Source.insertLine count line text)) := by
  exact parse_relates (readRows_padded (rows_insertLine hfeed hline count text))

end Tablica
