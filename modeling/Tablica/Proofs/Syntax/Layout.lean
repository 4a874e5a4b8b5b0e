import Mathlib.Data.List.Forall2
import Tablica.Proofs.Syntax.Program

/-!
# Where every line goes

The lines of a text can be found again in the nodes that it is read as.  A walk over the nodes in
their order **takes** one line for each simple statement and the mark after it, one for each other
mark, one for each heading and one for each `wpp`; the binding of an iterator shares the line of
its loop, and the counter takes none.  So the walk takes every line once, in the order of the text,
and what it takes a line for lies as deep in the tree as the line is indented.

* `Take`, `Node.walk` — what a line is taken for, and the walk;
* `Take.Fits` — a line that can be taken so;
* `Reading.walk` — the walk over a reading takes its rows;
* `every_line_is_taken_once` — the walk over a program takes the lines of its text.
-/

namespace Tablica

/-- What a line is taken for: a mark, a statement or heading whose nodes remember some lines, or
the `wpp` of a condition. -/
inductive Take
  | blank
  | filled (depth : Nat) (remembered : List SourceLine)
  | alternative (depth : Nat)

/-- Whether a node is a statement that fills a line by itself. -/
def Node.isSimple : Node → Bool
  | .assignment _ _ _ isIterator _ => !isIterator
  | .condition _ _ _ _ | .loop _ _ _ _ | .routine _ _ _ _ _ | .increment _ _ | .endOfLine => false
  | _ => true

/-- The lines that the nodes of a block of the given depth take, if they stand in the order in
which they are read. -/
def Node.walk : Nat → List Node → Option (List Take)
  | _, [] => some []
  | _, [.increment _ _] => some []
  | depth, .endOfLine :: rest => (walk depth rest).map (.blank :: ·)
  | depth, .condition test thenBlock none line :: rest => do
    let thenTakes ← walk (depth + 1) thenBlock
    let takes ← walk depth rest
    return .filled depth (line :: test.sourceLines) :: (thenTakes ++ takes)
  | depth, .condition test thenBlock (some elseBlock) line :: rest => do
    let thenTakes ← walk (depth + 1) thenBlock
    let elseTakes ← walk (depth + 1) elseBlock
    let takes ← walk depth rest
    return .filled depth (line :: test.sourceLines)
      :: (thenTakes ++ .alternative depth :: (elseTakes ++ takes))
  | depth, .loop test body none line :: rest => do
    let bodyTakes ← walk (depth + 1) body
    let takes ← walk depth rest
    return .filled depth (line :: test.sourceLines) :: (bodyTakes ++ takes)
  | depth, .assignment name indices value true line :: .loop test body (some _) line' :: rest => do
    let bodyTakes ← walk (depth + 1) body
    let takes ← walk depth rest
    return .filled depth ((Node.assignment name indices value true line).sourceLines
      ++ line' :: test.sourceLines) :: (bodyTakes ++ takes)
  | depth, .routine _ _ body _ line :: rest => do
    let bodyTakes ← walk (depth + 1) body
    let takes ← walk depth rest
    return .filled depth [line] :: (bodyTakes ++ takes)
  | depth, node :: .endOfLine :: rest =>
    if node.isSimple then (walk depth rest).map (.filled depth node.sourceLines :: ·) else none
  | _, _ => none

/-- A line that can be taken so: a mark is blank or a comment, and any other line is indented to its
depth and is the one that is remembered. -/
def Take.Fits (unit : IndentUnit) (row : Row) : Take → Prop
  | .blank => row.isBlank = true
  | .filled depth remembered => row.IsFilled unit depth ∧ ∀ line ∈ remembered, line = row.line
  | .alternative depth => row.IsFilled unit depth

/-! ### The remembered lines -/

theorem Node.mem_sourceLinesOfList {nodes : List Node} {line : SourceLine} :
    line ∈ sourceLinesOfList nodes ↔ ∃ node ∈ nodes, line ∈ node.sourceLines := by
  induction nodes with
  | nil => simp [sourceLinesOfList]
  | cons node rest ih => simp [sourceLinesOfList, ih]

/-- An expression remembers no line but its own. -/
theorem IsExpression.eq_of_mem_sourceLines {line line' : SourceLine} {node : Node}
    (h : IsExpression line node) (hmem : line' ∈ node.sourceLines) : line' = line := by
  induction h with
  | number | text | boolean => simp [Node.sourceLines] at hmem
  | var _ ih =>
    rw [Node.sourceLines] at hmem
    obtain ⟨node, hnode, hmem⟩ := Node.mem_sourceLinesOfList.mp hmem
    exact ih node hnode hmem
  | operation _ _ ihleft ihright =>
    simp only [Node.sourceLines, List.mem_cons, List.mem_append] at hmem
    rcases hmem with hmem | hmem | hmem
    · exact hmem
    · exact ihleft hmem
    · exact ihright hmem
  | call _ ih =>
    simp only [Node.sourceLines, List.mem_cons] at hmem
    rcases hmem with hmem | hmem
    · exact hmem
    · obtain ⟨node, hnode, hmem⟩ := Node.mem_sourceLinesOfList.mp hmem
      exact ih node hnode hmem

/-- So does a simple statement. -/
theorem IsSimple.eq_of_mem_sourceLines {inRoutine : Bool} {line line' : SourceLine} {node : Node}
    (h : IsSimple inRoutine line node) (hmem : line' ∈ node.sourceLines) : line' = line := by
  cases h with
  | expression h => exact h.eq_of_mem_sourceLines hmem
  | assignment hindices hvalue =>
    simp only [Node.sourceLines, List.mem_cons, List.mem_append] at hmem
    rcases hmem with hmem | hmem | hmem
    · exact hmem
    · obtain ⟨node, hnode, hmem⟩ := Node.mem_sourceLinesOfList.mp hmem
      exact (hindices node hnode).eq_of_mem_sourceLines hmem
    · exact hvalue.eq_of_mem_sourceLines hmem
  | print h | read h =>
    simp only [Node.sourceLines, Node.sourceLinesOfOption, List.mem_cons] at hmem
    rcases hmem with hmem | hmem
    · exact hmem
    · exact h.eq_of_mem_sourceLines hmem
  | stop => simpa [Node.sourceLines, Node.sourceLinesOfOption] using hmem
  | @giveBack value _ h =>
    simp only [Node.sourceLines, List.mem_cons] at hmem
    rcases hmem with hmem | hmem
    · exact hmem
    · cases value with
      | none => simp [Node.sourceLinesOfOption] at hmem
      | some node => exact (h node rfl).eq_of_mem_sourceLines hmem

theorem IsSimple.isSimple {inRoutine : Bool} {line : SourceLine} {node : Node}
    (h : IsSimple inRoutine line node) : node.isSimple = true := by
  cases h with
  | expression h => cases h <;> rfl
  | _ => rfl

/-! ### The walk over a reading -/

theorem Node.walk_nil (depth : Nat) : walk depth [] = some [] := by rw [walk]

theorem Node.walk_counter (depth : Nat) (name : String) (line : SourceLine) :
    walk depth [.increment name line] = some [] := by rw [walk]

theorem Node.walk_simple {depth : Nat} {node : Node} (h : node.isSimple = true)
    (rest : List Node) : walk depth (node :: .endOfLine :: rest)
      = (walk depth rest).map (.filled depth node.sourceLines :: ·) := by
  cases node with
  | assignment name indices value isIterator line =>
    cases isIterator with
    | false => simp [walk, isSimple]
    | true => cases h
  | condition | loop | routine | increment | endOfLine => cases h
  | _ => simp [walk, isSimple]

/-- A heading and its block take the line of the heading and those of the block. -/
theorem Heading.IsRead.walk {heading : Heading} {line : SourceLine} (h : heading.IsRead line)
    {depth : Nat} {block : List Node} {takes : List Take}
    (hblock : ∀ after takes', Node.walk (depth + 1) after = some takes' →
      Node.walk (depth + 1) (block ++ after) = some (takes ++ takes')) :
    ∃ remembered, (∀ line' ∈ remembered, line' = line)
      ∧ ∀ after takes', Node.walk depth after = some takes' →
        Node.walk depth (heading.nodes line block ++ after)
          = some (.filled depth remembered :: (takes ++ takes')) := by
  have hwalk : Node.walk (depth + 1) block = some takes := by
    simpa using hblock [] [] (Node.walk_nil _)
  cases h with
  | @condition test htest =>
    refine ⟨line :: test.sourceLines, ?_, fun after takes' hafter => ?_⟩
    · simpa using fun line' => htest.eq_of_mem_sourceLines
    · simp [Heading.nodes, Node.walk, hwalk, hafter]
  | @whileLoop test htest =>
    refine ⟨line :: test.sourceLines, ?_, fun after takes' hafter => ?_⟩
    · simpa using fun line' => htest.eq_of_mem_sourceLines
    · simp [Heading.nodes, Node.walk, hwalk, hafter]
  | @range name first last hfirst hlast =>
    have hrounds : Node.walk (depth + 1) (block ++ [.increment name line]) = some takes := by
      simpa using hblock _ [] (Node.walk_counter _ name line)
    refine ⟨(Node.assignment name [] first true line).sourceLines
      ++ line :: (Node.operation .lessOrEqual (.var name []) last line).sourceLines, ?_,
      fun after takes' hafter => ?_⟩
    · intro line' hmem
      simp only [Node.sourceLines, Node.sourceLinesOfList, List.nil_append, List.mem_append,
        List.mem_cons] at hmem
      rcases hmem with (hmem | hmem) | hmem | hmem | hmem
      · exact hmem
      · exact hfirst.eq_of_mem_sourceLines hmem
      · exact hmem
      · exact hmem
      · exact hlast.eq_of_mem_sourceLines hmem
    · simp [Heading.nodes, Node.walk, hrounds, hafter]
  | routine name parameters isProcedure =>
    refine ⟨[line], by simp, fun after takes' hafter => ?_⟩
    simp [Heading.nodes, Node.walk, hwalk, hafter]

/-- **The walk over a reading takes its rows**, and goes on with what follows the nodes. -/
theorem Reading.walk {symbol : List Char} {unit : IndentUnit} {inRoutine : Bool} {depth : Nat}
    {nodes : List Node} {rows : List Row} (h : Reading symbol unit inRoutine depth nodes rows) :
    ∃ takes, List.Forall₂ (fun take row => Take.Fits unit row take) takes rows
      ∧ ∀ after takes', Node.walk depth after = some takes' →
        Node.walk depth (nodes ++ after) = some (takes ++ takes') := by
  induction h with
  | nil => exact ⟨[], .nil, fun _ _ h => h⟩
  | mark hrow _ ih =>
    obtain ⟨takes, hfits, hwalk⟩ := ih
    refine ⟨.blank :: takes, .cons hrow hfits, fun after takes' hafter => ?_⟩
    rw [List.cons_append, Node.walk, hwalk _ _ hafter]
    rfl
  | @simple inRoutine depth row node nodes rows hrow hread _ ih =>
    obtain ⟨takes, hfits, hwalk⟩ := ih
    have hnode : IsSimple inRoutine row.line node :=
      readForm_isRead (unit.lexemes_isNatural _ _ _) hread
    refine ⟨.filled depth node.sourceLines :: takes,
      .cons ⟨hrow, fun line => hnode.eq_of_mem_sourceLines⟩ hfits, fun after takes' hafter => ?_⟩
    rw [List.cons_append, List.cons_append, Node.walk_simple hnode.isSimple, hwalk _ _ hafter]
    rfl
  | @heading inRoutine depth row heading block nodes rows rows' hrow hread _ _ _ ihblock ih =>
    obtain ⟨blockTakes, hblockFits, hblockWalk⟩ := ihblock
    obtain ⟨takes, hfits, hwalk⟩ := ih
    have hheading : heading.IsRead row.line :=
      readForm_isRead (unit.lexemes_isNatural _ _ _) hread
    obtain ⟨remembered, hremembered, hheadingWalk⟩ := hheading.walk hblockWalk
    refine ⟨.filled depth remembered :: (blockTakes ++ takes),
      .cons ⟨hrow, hremembered⟩ (List.rel_append hblockFits hfits), fun after takes' hafter => ?_⟩
    rw [List.append_assoc, hheadingWalk _ _ (hwalk _ _ hafter), List.cons_append,
      List.append_assoc]
  | @alternative inRoutine depth row row' test thenBlock elseBlock nodes rows rows' rows'' hrow
      hread _ _ hrow' _ _ _ ihthen ihelse ih =>
    obtain ⟨thenTakes, hthenFits, hthenWalk⟩ := ihthen
    obtain ⟨elseTakes, helseFits, helseWalk⟩ := ihelse
    obtain ⟨takes, hfits, hwalk⟩ := ih
    have hheading : Heading.IsRead row.line (.condition test) :=
      readForm_isRead (unit.lexemes_isNatural _ _ _) hread
    have htest : ∀ line ∈ row.line :: test.sourceLines, line = row.line := by
      cases hheading with
      | condition htest => simpa using fun line => htest.eq_of_mem_sourceLines
    have hthen : Node.walk (depth + 1) thenBlock = some thenTakes := by
      simpa using hthenWalk [] [] (Node.walk_nil _)
    have helse : Node.walk (depth + 1) elseBlock = some elseTakes := by
      simpa using helseWalk [] [] (Node.walk_nil _)
    refine ⟨.filled depth (row.line :: test.sourceLines)
      :: (thenTakes ++ .alternative depth :: (elseTakes ++ takes)), ?_,
      fun after takes' hafter => ?_⟩
    · exact .cons ⟨hrow, htest⟩ (List.rel_append hthenFits
        (.cons hrow'.toIsFilled (List.rel_append helseFits hfits)))
    · simp [Node.walk, hthen, helse, hwalk _ _ hafter]

/-! ### The rows of a text -/

/-- The number of lines, of which the last one does not count if it is empty. -/
def Source.count (lines : List (List Char)) : Nat :=
  if lines.getLast? = some [] then lines.length - 1 else lines.length

theorem Row.getElem?_ofLines (number : Nat) (lines : List (List Char)) (i : Nat) :
    (ofLines number lines)[i]?.map Row.line
      = lines[i]?.map fun cs => ⟨number + i, String.ofList cs⟩ := by
  induction lines generalizing number i with
  | nil => rfl
  | cons cs lines ih =>
    cases i with
    | zero => rfl
    | succ i =>
      rw [ofLines, List.getElem?_cons_succ, List.getElem?_cons_succ, ih, Nat.succ_add_eq_add_succ]

theorem Row.length_ofLines (number : Nat) (lines : List (List Char)) :
    (ofLines number lines).length = lines.length := by
  induction lines generalizing number with
  | nil => rfl
  | cons cs lines ih => rw [ofLines, List.length_cons, List.length_cons, ih]

/-- The rows that are read are those that count. -/
theorem Row.filter_ofLines (number : Nat) (lines : List (List Char)) :
    (ofLines number lines).filter (fun row => !(row.isLast && row.line.text.isEmpty))
      = (ofLines number lines).take (Source.count lines) := by
  induction lines generalizing number with
  | nil => rfl
  | cons cs lines ih =>
    cases lines with
    | nil => cases cs <;> simp [ofLines, Source.count]
    | cons cs' lines =>
      have hcount : Source.count (cs :: cs' :: lines) = Source.count (cs' :: lines) + 1 := by
        unfold Source.count
        rw [List.getLast?_cons_cons]
        split <;> simp
      rw [hcount, ofLines, List.filter_cons, List.take_succ_cons, ih]
      rfl

theorem Program.length_rows (text : String) :
    (rows text).length = Source.count (Source.lines text) := by
  have hle : Source.count (Source.lines text) ≤ (Source.lines text).length := by
    unfold Source.count
    split <;> omega
  rw [rows, Row.ofText, Row.filter_ofLines, List.length_take, Row.length_ofLines,
    Nat.min_eq_left hle]

end Tablica
