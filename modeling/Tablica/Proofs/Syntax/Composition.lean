import Tablica.Proofs.Syntax.BlankLines
import Tablica.Proofs.Syntax.Reindentation

/-!
# One text after another

A text is read, and on the next line another one begins.  Each of them can be read on its own, and
if both are indented then in the same unit.  What is read is the first program and then the second.

    jeżeli x to        ← the first text ends inside a block,
      pisz 1
    pisz 2             ← and the first row of the second one ends the block

The rows of the first text are no longer the last ones, so its blocks are still open when the second
text begins.  The first row of that text that holds a statement is not indented, and it is not `wpp`;
so it ends all blocks, just as the end of the text would have.  From there on the rows are read as
they are on their own, only that nodes stand in front of theirs in the outermost block and that the
unit may be known before anything is indented.

* `SourceLine.advance`, `Row.advance` — a line, and a row, so many lines further down;
* `Outline.prepend` — an outline with nodes in front of it in the outermost block;
* `Outline.readRow_seam` — the row that ends the open blocks;
* `Likeness.after`, `Outline.readRow_after` — a row where a unit may be known already;
* `Program.parse_append` — what one text after another is read as.
-/

namespace Tablica

/-- The line so many lines further down. -/
def SourceLine.advance (count : Nat) (line : SourceLine) : SourceLine :=
  ⟨count + line.number, line.text⟩

/-- The line counted from the first one after so many lines, if it is one of those. -/
def SourceLine.retreat (count : Nat) (line : SourceLine) : SourceLine :=
  ⟨if line.number ≤ count then line.number else line.number - count, line.text⟩

/-- The row so many lines further down. -/
def Row.advance (count : Nat) (row : Row) : Row :=
  ⟨row.line.advance count, row.isLast⟩

/-! ### Lines there and back -/

theorem SourceLine.retreat_of_le {count : Nat} {line : SourceLine} (h : line.number ≤ count) :
    line.retreat count = line := by
  rw [retreat, if_pos h]

theorem SourceLine.retreat_advance {line : SourceLine} (h : 1 ≤ line.number) (count : Nat) :
    (line.advance count).retreat count = line := by
  rw [retreat, advance, if_neg (by simp only; omega), Nat.add_sub_cancel_left]

namespace Node

variable {f g : SourceLine → SourceLine}

mutual

/-- A tree whose lines are replaced, and then the old ones put back. -/
theorem mapLines_cancel (node : Node) (h : ∀ line ∈ node.sourceLines, g (f line) = line) :
    (node.mapLines f).mapLines g = node := by
  cases node with
  | number | text | boolean | endOfLine => rfl
  | var name indices => simp only [mapLines, mapLinesOfList_cancel indices h]
  | operation operator left right line =>
    simp only [sourceLines, List.forall_mem_cons, List.forall_mem_append] at h
    simp only [mapLines, h.1, mapLines_cancel left h.2.1, mapLines_cancel right h.2.2]
  | call name arguments line =>
    simp only [sourceLines, List.forall_mem_cons] at h
    simp only [mapLines, h.1, mapLinesOfList_cancel arguments h.2]
  | assignment name indices value isIterator line =>
    simp only [sourceLines, List.forall_mem_cons, List.forall_mem_append] at h
    simp only [mapLines, h.1, mapLinesOfList_cancel indices h.2.1, mapLines_cancel value h.2.2]
  | command c argument line =>
    simp only [sourceLines, List.forall_mem_cons] at h
    simp only [mapLines, h.1, mapLinesOfOption_cancel argument h.2]
  | condition test thenBlock elseBlock line =>
    simp only [sourceLines, List.forall_mem_cons, List.forall_mem_append] at h
    simp only [mapLines, h.1, mapLines_cancel test h.2.1.1, mapLinesOfList_cancel thenBlock h.2.1.2,
      mapLinesOfBlock_cancel elseBlock h.2.2]
  | loop test body iterator line =>
    simp only [sourceLines, List.forall_mem_cons, List.forall_mem_append] at h
    simp only [mapLines, h.1, mapLines_cancel test h.2.1, mapLinesOfList_cancel body h.2.2]
  | routine name parameters body isProcedure line =>
    simp only [sourceLines, List.forall_mem_cons] at h
    simp only [mapLines, h.1, mapLinesOfList_cancel body h.2]
  | giveBack value line =>
    simp only [sourceLines, List.forall_mem_cons] at h
    simp only [mapLines, h.1, mapLinesOfOption_cancel value h.2]
  | increment name line => exact congrArg (increment name) (h line (List.mem_singleton_self line))
termination_by structural node

theorem mapLinesOfList_cancel (nodes : List Node)
    (h : ∀ line ∈ sourceLinesOfList nodes, g (f line) = line) :
    mapLinesOfList g (mapLinesOfList f nodes) = nodes := by
  cases nodes with
  | nil => rfl
  | cons node nodes =>
    simp only [sourceLinesOfList, List.forall_mem_append] at h
    simp only [mapLinesOfList, mapLines_cancel node h.1, mapLinesOfList_cancel nodes h.2]
termination_by structural nodes

theorem mapLinesOfOption_cancel (node : Option Node)
    (h : ∀ line ∈ sourceLinesOfOption node, g (f line) = line) :
    mapLinesOfOption g (mapLinesOfOption f node) = node := by
  cases node with
  | none => rfl
  | some node => exact congrArg some (mapLines_cancel node h)
termination_by structural node

theorem mapLinesOfBlock_cancel (block : Option (List Node))
    (h : ∀ line ∈ sourceLinesOfBlock block, g (f line) = line) :
    mapLinesOfBlock g (mapLinesOfBlock f block) = block := by
  cases block with
  | none => rfl
  | some nodes => exact congrArg some (mapLinesOfList_cancel nodes h)
termination_by structural block

end

end Node

/-! ### The rows of both texts -/

namespace Row

variable {f : SourceLine → SourceLine} {rows rows' : List Row}

theorem ofLines_advance (count number : Nat) (lines : List (List Char)) :
    ofLines (count + number) lines = (ofLines number lines).map (advance count) := by
  induction lines generalizing number with
  | nil => rfl
  | cons line lines ih =>
    rw [ofLines, ofLines, List.map_cons, Nat.add_assoc, ih]
    rfl

/-- Lines that others follow, and those others. -/
theorem ofLines_append (number : Nat) (lines : List (List Char)) {lines' : List (List Char)}
    (h : lines' ≠ []) : ofLines number (lines ++ lines')
      = (ofLines number lines).map (fun row => ⟨row.line, false⟩)
        ++ ofLines (lines.length + number) lines' := by
  induction lines generalizing number with
  | nil => rw [List.length_nil, Nat.zero_add]; rfl
  | cons line lines ih =>
    have hmore : (lines ++ lines').isEmpty = false := by
      rw [List.isEmpty_eq_false_iff]
      exact List.append_ne_nil_of_right_ne_nil _ h
    rw [List.cons_append, ofLines, ofLines, hmore, ih, List.map_cons, List.length_cons,
      List.cons_append, Nat.add_right_comm, Nat.add_assoc]

theorem padded_followed (rows : List Row) :
    Padded id rows (rows.map fun row => ⟨row.line, false⟩) := by
  induction rows with
  | nil => exact .nil
  | cons row rows ih => exact .row rfl rfl (nomatch ·) ih

theorem padded_advance (count : Nat) (rows : List Row) :
    Padded (SourceLine.advance count) rows (rows.map (advance count)) := by
  induction rows with
  | nil => exact .nil
  | cons row rows ih => exact .row rfl rfl id ih

/-- Blank rows may follow as well. -/
theorem Padded.append_blank (h : Padded f rows rows') {more : List Row}
    (hmore : ∀ row ∈ more, row.isBlank = true) : Padded f rows (rows' ++ more) := by
  induction h with
  | nil =>
    induction more with
    | nil => exact .nil
    | cons row more ih =>
      exact .blank (hmore row List.mem_cons_self) (ih fun row hrow =>
        hmore row (List.mem_cons_of_mem _ hrow))
  | blank hrow _ ih => exact .blank hrow ih
  | row hline htext hlast _ ih => exact .row hline htext hlast ih

end Row

/-- **The rows of one text after another** are those of the first text, none of them the last one,
and then those of the second one. -/
theorem Program.rows_append {text lineBreak : String} (h : Source.Breaks text lineBreak)
    (text' : String) : ∃ rows', Row.Padded id (rows text) rows'
      ∧ rows (text ++ lineBreak ++ text')
        = rows' ++ (rows text').map (Row.advance (Source.lines text).length) := by
  refine ⟨_, (Row.padded_followed (Row.ofText text)).filter, ?_⟩
  rw [rows, Row.ofText, Source.lines_append h, Row.ofLines_append _ _ (Source.lines_ne_nil text'),
    Row.ofLines_advance, List.filter_append]
  refine congrArg (List.append _) ?_
  rw [List.filter_map]
  rfl

/-! ### Nodes in front -/

namespace Outline

variable {symbol : List Char} {outline : Outline} {row : Row} {rows : List Row}

/-- Open blocks and the nodes of the innermost one, with nodes in front of everything in the
outermost block.  As everywhere here, the last node is the first. -/
def prependTo (front : List Node) : List Layer → List Node → List Layer × List Node
  | [], nodes => ([], nodes ++ front)
  | layer :: layers, nodes =>
    let (layers, before) := prependTo front layers layer.before
    ({ layer with before } :: layers, nodes)

/-- The outline with nodes in front of everything in the outermost block. -/
def prepend (front : List Node) (outline : Outline) : Outline :=
  let (layers, nodes) := prependTo front outline.layers outline.nodes
  { outline with nodes, layers }

variable (front : List Node)

theorem prependTo_append (layers : List Layer) (more nodes : List Node) :
    prependTo front layers (more ++ nodes)
      = ((prependTo front layers nodes).1, more ++ (prependTo front layers nodes).2) := by
  cases layers with
  | nil => rw [prependTo, List.append_assoc]; rfl
  | cons => rfl

theorem length_prependTo (layers : List Layer) (nodes : List Node) :
    (prependTo front layers nodes).1.length = layers.length := by
  induction layers generalizing nodes with
  | nil => rfl
  | cons layer layers ih => exact congrArg (· + 1) (ih layer.before)

theorem any_prependTo (layers : List Layer) (nodes : List Node) :
    (prependTo front layers nodes).1.any (·.heading.isRoutine)
      = layers.any (·.heading.isRoutine) := by
  induction layers generalizing nodes with
  | nil => rfl
  | cons layer layers ih =>
    rw [List.any_cons, ← ih layer.before]
    rfl

theorem closeTo_prependTo (depth : Nat) (layers : List Layer) (nodes : List Node) :
    closeTo depth (prependTo front layers nodes).1 (prependTo front layers nodes).2
      = (fun closed => prependTo front closed.1 closed.2) <$> closeTo depth layers nodes := by
  induction layers generalizing nodes with
  | nil => rfl
  | cons layer layers ih =>
    have hstep := ih ((layer.heading.nodes layer.line nodes.reverse).reverse ++ layer.before)
    rw [prependTo_append] at hstep
    simp only [prependTo]
    unfold closeTo
    rw [length_prependTo]
    split
    · rfl
    · rw [map_bind]
      exact congrArg (checkBlock layer (layers.length + 1) nodes >>= ·) (funext fun _ => hstep)

theorem close_prepend (depth : Nat) :
    (outline.prepend front).close depth = prepend front <$> outline.close depth := by
  unfold close prepend
  rw [closeTo_prependTo, map_bind, bind_map_left]
  rfl

theorem level_prepend : (outline.prepend front).level = outline.level :=
  length_prependTo front outline.layers outline.nodes

theorem append_prepend (nodes : List Node) :
    (outline.prepend front).append nodes = (outline.append nodes).prepend front := by
  unfold append prepend
  simp only [prependTo_append]

theorem openBlock_prepend (heading : Heading) (line : SourceLine) (start : Position) :
    (outline.prepend front).openBlock heading line start
      = (outline.openBlock heading line start).prepend front := rfl

theorem inRoutine_prepend : (outline.prepend front).inRoutine = outline.inRoutine :=
  any_prependTo front outline.layers outline.nodes

/-- What is done with a form, where nodes stand in front. -/
theorem bind_prepend {next next' : Form → Narrated Outline} (x : Narrated Form)
    (hsimple : ∀ node, next' (.simple node) = prepend front <$> next (.simple node))
    (hheading : ∀ heading, next' (.heading heading) = prepend front <$> next (.heading heading)) :
    (x >>= next') = prepend front <$> (x >>= next) := by
  rw [map_bind]
  refine congrArg (x >>= ·) (funext fun form => ?_)
  cases form with
  | simple node => exact hsimple node
  | heading heading => exact hheading heading

theorem readStatement_prepend (lexemes : Lexemes) :
    (outline.prepend front).readStatement row lexemes
      = prepend front <$> outline.readStatement row lexemes := by
  have hsimple : ∀ node, (pure ((outline.prepend front).append [node, .endOfLine]) :
      Narrated Outline) = prepend front <$> pure (outline.append [node, .endOfLine]) :=
    fun node => by rw [append_prepend, map_pure]
  have hheading : ∀ heading,
      (pure ((outline.prepend front).openBlock heading row.line (blockStart row)) :
        Narrated Outline)
      = prepend front <$> pure (outline.openBlock heading row.line (blockStart row)) :=
    fun heading => by rw [openBlock_prepend, map_pure]
  unfold readStatement
  rw [inRoutine_prepend]
  obtain ⟨items, ending⟩ := lexemes
  rcases items with _ | ⟨token | fault, items⟩
  · exact bind_prepend front _ hsimple hheading
  · rw [map_bind]
    exact congrArg (_ >>= ·) (funext fun _ => bind_prepend front _ hsimple hheading)
  · exact bind_prepend front _ hsimple hheading

theorem closeStatement_prepend (lexemes : Lexemes) (depth : Nat) :
    (do (← (outline.prepend front).close depth).readStatement row lexemes)
      = prepend front <$> (do (← outline.close depth).readStatement row lexemes) := by
  rw [close_prepend, bind_map_left, map_bind]
  exact congrArg (_ >>= ·) (funext fun _ => readStatement_prepend front lexemes)

theorem place_prepend (lexemes : Lexemes) (depth : Nat) :
    (outline.prepend front).place row lexemes depth
      = prepend front <$> outline.place row lexemes depth := by
  unfold place
  rw [close_prepend, bind_map_left, map_bind]
  refine congrArg (_ >>= ·) (funext fun closed => ?_)
  have hstatement : (do (← (closed.prepend front).close depth).readStatement row lexemes)
      = prepend front <$> (do (← closed.close depth).readStatement row lexemes) :=
    closeStatement_prepend front lexemes depth
  obtain ⟨unit, nodes, layers⟩ := closed
  rcases layers with _ | ⟨⟨heading, line, start, before⟩, layers⟩
  · exact hstatement
  · cases heading with
    | condition test =>
      simp only [prepend, prependTo, length_prependTo]
      split
      · simp only [map_bind, map_pure]
        rfl
      · exact hstatement
    | _ => exact hstatement

theorem measure_prepend : (outline.prepend front).measure row
    = (fun found => (found.1, found.2.prepend front)) <$> outline.measure row := by
  have hdepth : ∀ unit : IndentUnit,
      (do
        let depth ← ofExcept (unit.depth row.line.number outline.level row.chars)
        return (depth, { outline.prepend front with unit := some unit }) :
        Narrated (Nat × Outline))
      = (fun found => (found.1, found.2.prepend front)) <$> (do
        let depth ← ofExcept (unit.depth row.line.number outline.level row.chars)
        return (depth, { outline with unit := some unit })) := fun unit => by
    simp only [map_bind, map_pure]
    rfl
  have hunit : (outline.prepend front).unit = outline.unit := rfl
  unfold measure
  rw [level_prepend, hunit]
  split
  · split <;> rfl
  · cases outline.unit with
    | some unit => simpa only [pure_bind] using hdepth unit
    | none =>
      simp only [map_bind]
      refine congrArg (_ >>= ·) (funext fun found => ?_)
      cases found with
      | none => rfl
      | some unit =>
        simp only [pure_bind, map_bind] at hdepth ⊢
        exact congrArg (_ >>= ·) (funext fun _ => hdepth unit)

theorem readRow_prepend : (outline.prepend front).readRow symbol row
    = prepend front <$> outline.readRow symbol row := by
  unfold readRow
  split
  · rw [map_pure, append_prepend]
  · rw [readFilled_eq, readFilled_eq, measure_prepend, bind_map_left, map_bind]
    exact congrArg (_ >>= ·) (funext fun (depth, measured) => place_prepend front _ depth)

/-- **Nodes in front** stay in front. -/
theorem foldlM_prepend (rows : List Row) :
    rows.foldlM (readRow symbol) (outline.prepend front)
      = prepend front <$> rows.foldlM (readRow symbol) outline := by
  induction rows generalizing outline with
  | nil => rw [List.foldlM_nil, List.foldlM_nil, map_pure]
  | cons row rows ih =>
    rw [List.foldlM_cons, List.foldlM_cons, readRow_prepend, bind_map_left, map_bind]
    exact congrArg (_ >>= ·) (funext fun _ => ih)

/-! ### The seam -/

variable {outline' next : Outline} {lexemes : Lexemes} {depth : Nat} {log log' log'' : List LogRecord}

/-- Some blocks end, and then some more. -/
theorem closeTo_closeTo {depth' : Nat} (h : depth ≤ depth') (layers : List Layer)
    (nodes : List Node) :
    (closeTo depth' layers nodes >>= fun closed => closeTo depth closed.1 closed.2)
      = closeTo depth layers nodes := by
  induction layers generalizing nodes with
  | nil => rfl
  | cons layer layers ih =>
    rw [closeTo]
    split
    · rw [pure_bind]
    · rename_i hlength
      rw [closeTo, if_neg (by omega), bind_assoc]
      exact congrArg (_ >>= ·) (funext fun _ => ih _)

theorem close_close {depth' : Nat} (h : depth ≤ depth') (outline : Outline) :
    (do (← outline.close depth').close depth) = outline.close depth := by
  unfold close
  rw [← closeTo_closeTo h, bind_assoc, bind_assoc]
  rfl

/-- A row that does not hold `wpp` ends the blocks that are deeper, and that is all it has to do with
them. -/
theorem place_of_statement (h : startsAlternative lexemes = false) (outline : Outline) :
    outline.place row lexemes depth
      = (do (← outline.close depth).readStatement row lexemes) := by
  rw [← close_close (Nat.le_succ depth), bind_assoc]
  refine congrArg (_ >>= ·) (funext fun closed => ?_)
  obtain ⟨unit, nodes, layers⟩ := closed
  rcases layers with _ | ⟨⟨heading, line, start, before⟩, layers⟩
  · rfl
  · cases heading with
    | condition test =>
      simp only [h, Bool.and_false, Bool.false_eq_true, if_false]
    | _ => rfl

/-- A row that can be read outside of all blocks does not hold `wpp`. -/
theorem startsAlternative_of_readStatement
    (h : outline.readStatement row lexemes log = .ok next log') :
    startsAlternative lexemes = false := by
  unfold startsAlternative
  split
  · rename_i position _ rest hitems
    have hrefused : readForm row.line outline.inRoutine lexemes
        = .error ⟨.unexpectedKeyword .wpp, position⟩ := by
      unfold readForm
      rw [hitems]
      rfl
    rcases readStatement_eq_ok h with ⟨_, hread, -⟩ | ⟨_, hread, -⟩ <;>
    · rw [hrefused] at hread
      cases hread
  · rfl

theorem indentOf_zero (outline : Outline) : outline.indentOf 0 = 0 := by
  unfold indentOf
  split
  · exact Nat.mul_zero _
  · rfl

/-- In a known unit the depth of a row is told. -/
theorem measure_of_known {unit : IndentUnit} (hunit : outline.unit = some unit)
    (hvalid : unit.IsValid) (hindents : unit.Indents depth row.chars)
    (hdepth : depth ≤ outline.level) : outline.measure row log = .ok (depth, outline) log := by
  by_cases hlevel : outline.level = 0
  · obtain rfl : depth = 0 := by omega
    exact measure_of_head (.inl hlevel) hindents.head
  · exact measure_of_indents hunit hvalid hlevel hindents hdepth

/-- A row that is not indented has depth zero, whatever blocks are open. -/
theorem measure_unindented (hread : outline.IsRead symbol rows) (hrow : row.isBlank = false)
    (hhead : row.chars.head?.any Text.isBlank = false) :
    outline.measure row log = .ok (0, outline) log := by
  cases hunit : outline.unit with
  | none => exact measure_of_head (.inr hunit) hhead
  | some unit =>
    obtain ⟨c, hc, -⟩ := Row.exists_not_isBlank hrow
    exact measure_of_known hunit (hread.valid unit hunit)
      (IndentUnit.indents_zero (List.ne_nil_of_mem hc) hhead) (Nat.zero_le _)

/-- **The seam.**  A row that can be read when all blocks have ended can be read before they have,
and it ends them. -/
theorem readRow_seam (hread : outline.IsRead symbol rows) (hrow : row.isBlank = false)
    (hclose : outline.close 0 log = .ok outline' log')
    (hrun : outline'.readRow symbol row log' = .ok next log'') :
    outline.readRow symbol row log = .ok next log'' := by
  have hlayers : outline'.layers = [] := by
    obtain ⟨-, -, hlevel⟩ := close_isRead hclose hread
    exact List.length_eq_zero_iff.mp (hlevel.trans (Nat.min_zero _))
  have hfilled : ∀ outline : Outline, outline.readRow symbol row = outline.readFilled symbol row :=
    fun outline => by rw [readRow, if_neg (by rw [hrow]; exact Bool.false_ne_true)]
  rw [hfilled, readFilled_eq] at hrun ⊢
  obtain ⟨⟨depth, measured⟩, log₁, hmeasure, hplace⟩ := Narrated.bind_eq_ok hrun
  have hhead : row.chars.head?.any Text.isBlank = false := by
    unfold measure at hmeasure
    rw [level, hlayers, List.length_nil, if_pos rfl] at hmeasure
    split at hmeasure
    · cases hmeasure
    · rename_i hhead
      simpa using hhead
  rw [measure_of_head (.inl (by rw [level, hlayers]; rfl)) hhead] at hmeasure
  cases hmeasure
  simp only [indentOf_zero] at hplace
  obtain ⟨unit, nodes, layers⟩ := outline'
  obtain rfl : layers = [] := hlayers
  have hstatement : Outline.readStatement row (row.lexemes symbol 0) ⟨unit, nodes, []⟩ log'
      = .ok next log'' := hplace
  rw [Narrated.bind_of_ok (measure_unindented hread hrow hhead)]
  simp only [indentOf_zero]
  rw [place_of_statement (startsAlternative_of_readStatement hstatement), Narrated.bind_of_ok hclose]
  exact hstatement

/-- Reads rows, of which the last one is the last one of the text. -/
def readAll (symbol : List Char) (rows : List Row) (outline : Outline) : Narrated Outline := do
  (← rows.foldlM (readRow symbol) outline).close 0

theorem readAll_prepend (front : List Node) :
    (outline.prepend front).readAll symbol rows = prepend front <$> outline.readAll symbol rows := by
  rw [readAll, readAll, foldlM_prepend, bind_map_left, map_bind]
  exact congrArg (_ >>= ·) (funext fun _ => close_prepend front 0)

/-- So the rows that follow can be read up to the end of the text. -/
theorem readAll_seam (hread : outline.IsRead symbol rows)
    (hclose : outline.close 0 log = .ok outline' log') {rows' : List Row}
    (hfilled : ∀ row ∈ rows'.head?, row.isBlank = false)
    (hrun : outline'.readAll symbol rows' log' = .ok next log'') :
    outline.readAll symbol rows' log = .ok next log'' := by
  unfold readAll at hrun ⊢
  cases rows' with
  | nil =>
    rw [List.foldlM_nil, pure_bind] at hrun ⊢
    rw [← hrun, ← close_close (Nat.le_refl 0)]
    exact Narrated.bind_of_ok hclose
  | cons row rows' =>
    rw [List.foldlM_cons, bind_assoc] at hrun ⊢
    obtain ⟨middle, log₁, hrow, hrun⟩ := Narrated.bind_eq_ok hrun
    rw [Narrated.bind_of_ok (readRow_seam hread (hfilled row rfl) hclose hrow)]
    exact hrun

/-- Blank rows leave marks. -/
theorem foldlM_blank (symbol : List Char) (outline : Outline) (log : List LogRecord)
    (hrows : ∀ row ∈ rows, row.isBlank = true) :
    ∃ marks, marks.all Node.isEndOfLine = true
      ∧ rows.foldlM (readRow symbol) outline log = .ok (outline.append marks) log := by
  induction rows generalizing outline with
  | nil => exact ⟨[], rfl, rfl⟩
  | cons row rows ih =>
    obtain ⟨marks, hmarks, hrun⟩ := ih (outline.append [.endOfLine]) fun row hrow =>
      hrows row (List.mem_cons_of_mem _ hrow)
    refine ⟨.endOfLine :: marks, hmarks, ?_⟩
    rw [List.foldlM_cons, readRow, if_pos (hrows row List.mem_cons_self), pure_bind, hrun]
    simp [append]

end Outline

/-! ### Rows in a known unit -/

/-- Blocks that are the same without their marks, where in the second text the unit is known from
the beginning. -/
def Likeness.after (unit : IndentUnit) : Likeness :=
  { upToMarks with unit := fun _ found => found = some unit }

namespace Outline

variable {symbol : List Char} {unit : IndentUnit} {f : SourceLine → SourceLine}
  {outline outline' next : Outline} {row row' : Row} {rows : List Row} {depth : Nat}
  {log log' : List LogRecord}

/-- Telling the depth of a row changes the unit at most. -/
theorem eq_of_measure (hread : outline.IsRead symbol rows)
    (h : outline.measure row log = .ok (depth, next) log') :
    next = { outline with unit := next.unit } := by
  rcases measure_cases hread h with ⟨rfl, -⟩ | ⟨_, -, rfl, -⟩ | ⟨_, -, -, rfl, -⟩ <;> rfl

/-- **A row** that can be read where no unit may be known yet can be read in the unit that it fits. -/
theorem readRow_after (hvalid : unit.IsValid) (h : outline.Alike (.after unit) f outline')
    (hread : outline.IsRead symbol rows) (hline : row'.line = f row.line)
    (htext : row'.line.text = row.line.text) (hlast : row'.isLast = true → row.isLast = true)
    (hrun : outline.readRow symbol row log = .ok next log') (hfits : next.Fits unit)
    (log₁ : List LogRecord) :
    ∃ next' log₁', outline'.readRow symbol row' log₁ = .ok next' log₁'
      ∧ next.Alike (.after unit) f next' := by
  have hchars : row'.chars = row.chars := congrArg String.toList htext
  have hblank : row'.isBlank = row.isBlank := by rw [Row.isBlank_eq, Row.isBlank_eq, hchars]
  unfold readRow at hrun ⊢
  rw [hblank]
  split at hrun
  · rename_i hrow
    cases hrun
    rw [if_pos hrow]
    exact ⟨_, _, rfl, h.append rfl⟩
  · rename_i hrow
    rw [if_neg hrow, readFilled_eq]
    rw [readFilled_eq] at hrun
    obtain ⟨⟨depth, measured⟩, log₂, hmeasure, hplace⟩ := Narrated.bind_eq_ok hrun
    have hmeasured := eq_of_measure hread hmeasure
    have hfits' : measured.Fits unit := by rwa [Fits, ← place_unit hplace]
    obtain ⟨-, hdepth, hmeasures⟩ := measure_isRead (by simpa using hrow) hmeasure hread
    have hlevel : measured.level = outline'.level := by rw [h.level, hmeasured]; rfl
    have hunit : outline'.unit = some unit := h.unit
    have hindents : unit.Indents depth row'.chars :=
      hchars ▸ (hmeasures.isFilled unit hfits').indents
    have hindent : outline'.indentOf depth = measured.indentOf depth := by
      cases hknown : measured.unit with
      | none => rw [hmeasures.unindented hknown, indentOf_zero, indentOf_zero]
      | some found => rw [indentOf, indentOf, hunit, hknown, hfits' found hknown]
    have halike : measured.Alike (.after unit) f outline' := by
      rw [hmeasured]
      exact ⟨h.unit, h.nodes, h.layers⟩
    rw [Narrated.bind_of_ok (measure_of_known hunit hvalid hindents (hlevel ▸ hdepth))]
    simp only [hindent]
    exact (halike.placeMoved hline htext hlast _ depth).exists_of_ok hplace log₁

/-- **All rows** can be read in the unit that the text is indented in. -/
theorem foldlM_after (hvalid : unit.IsValid) (count : Nat) {rows' : List Row}
    (h : outline.Alike (.after unit) (SourceLine.advance count) outline')
    (hread : outline.IsRead symbol rows)
    (hrun : rows'.foldlM (readRow symbol) outline log = .ok next log') (hfits : next.Fits unit)
    (log₁ : List LogRecord) :
    ∃ next' log₁', (rows'.map (Row.advance count)).foldlM (readRow symbol) outline' log₁
        = .ok next' log₁' ∧ next.Alike (.after unit) (SourceLine.advance count) next' := by
  induction rows' generalizing outline outline' rows log log₁ with
  | nil =>
    cases hrun
    exact ⟨outline', log₁, rfl, h⟩
  | cons row rows' ih =>
    obtain ⟨middle, _, hrow, hrun⟩ := Narrated.bind_eq_ok hrun
    have hmiddle := readRow_isRead hrow hread
    have hfits' : middle.Fits unit := fun found hfound =>
      hfits found (foldlM_unit hmiddle hrun hfound)
    have hline : (row.advance count).line = row.line.advance count := rfl
    obtain ⟨middle', log₂, hrow', h⟩ :=
      readRow_after hvalid h hread hline rfl id hrow hfits' log₁
    obtain ⟨next', log₁', hrun', hnext⟩ := ih h hmiddle hrun log₂
    refine ⟨next', log₁', ?_, hnext⟩
    rw [List.map_cons, List.foldlM_cons, Narrated.bind_of_ok hrow']
    exact hrun'

end Outline

/-! ### Both texts -/

namespace Program

variable {symbol : List Char} {text text' lineBreak : String} {nodes nodes' : List Node}
  {unit unit' : Option IndentUnit}

/-- What a text is read as and the unit that is known then, by the outline at its end. -/
theorem parse_and_unit_iff : parse symbol text = .ok nodes ∧ unit? symbol text = unit
    ↔ ∃ log, ({} : Outline).readAll symbol (rows text) [] = .ok ⟨unit, nodes.reverse, []⟩ log := by
  constructor
  · rintro ⟨hparse, hunit⟩
    obtain ⟨log, hread⟩ := parse_eq_ok_iff.mp hparse
    obtain ⟨outline, log₁, hfold, hread⟩ := Narrated.bind_eq_ok hread
    obtain ⟨closed, log₂, hclose, hread⟩ := Narrated.bind_eq_ok hread
    obtain ⟨_, _, -, hread⟩ := Narrated.bind_eq_ok hread
    cases hread
    obtain ⟨-, hclosed, hlevel⟩ := Outline.close_isRead hclose
      (Outline.foldlM_readRow_isRead hfold (Outline.isRead_empty symbol))
    have hlayers : closed.layers = [] :=
      List.length_eq_zero_iff.mp (hlevel.trans (Nat.min_zero _))
    have hunit : outline.unit = unit := by
      rw [unit?, hfold] at hunit
      exact hunit
    refine ⟨log₂, ?_⟩
    rw [Outline.readAll, Narrated.bind_of_ok hfold, hclose, ← hunit, ← hclosed, List.reverse_reverse,
      ← hlayers]
  · rintro ⟨log, hread⟩
    obtain ⟨outline, log₁, hfold, hclose⟩ := Narrated.bind_eq_ok hread
    refine ⟨parse_eq_ok_iff.mpr ⟨.parsed nodes.length :: log, ?_⟩, ?_⟩
    · rw [readRows, Narrated.bind_of_ok hfold, Narrated.bind_of_ok hclose]
      simp only [List.reverse_reverse]
      rfl
    · rw [unit?, hfold]
      exact (Outline.close_unit hclose).symm

/-- Rows that can be read after marks can be read, so many lines further down, where a unit is known
with which theirs does not conflict. -/
theorem readAll_advance {rows rows₀ : List Row} {marks : List Node} {closed : Outline}
    {log log' : List LogRecord} (hmarks : marks.all Node.isEndOfLine = true)
    (hread : Outline.IsRead symbol ⟨none, marks, []⟩ rows₀) (hvalid : ∀ known ∈ unit, known.IsValid)
    (hrun : Outline.readAll symbol rows ⟨none, marks, []⟩ log = .ok closed log')
    (hfits : ∀ known ∈ unit, closed.Fits known) (count : Nat) (log₁ : List LogRecord) :
    ∃ closed' log₁', Outline.readAll symbol (rows.map (Row.advance count)) { unit } log₁
        = .ok closed' log₁'
      ∧ closed'.unit = unit.or closed.unit ∧ closed'.layers.length = closed.layers.length
      ∧ Node.bareBlock closed'.nodes.reverse
        = Node.bareBlock (closed.nodes.reverse.map (Node.mapLines (SourceLine.advance count))) := by
  have hempty : Node.bareBlock []
      = Node.bareBlock (marks.reverse.map (Node.mapLines (SourceLine.advance count))) := by
    refine (Node.bareBlock_eq_nil_iff.mpr ?_).symm
    rw [List.all_map, List.all_reverse, ← hmarks]
    exact congrArg marks.all (funext (Node.isEndOfLine_mapLines _))
  obtain ⟨outline, log₂, hfold, hclose⟩ := Narrated.bind_eq_ok hrun
  cases unit with
  | none =>
    have hbegin : Outline.Padded (SourceLine.advance count) ⟨none, marks, []⟩ {} :=
      ⟨rfl, hempty, .nil⟩
    obtain ⟨outline', log₂', hfold', halike⟩ :=
      (Outline.foldlM_padded (Row.padded_advance count rows) hbegin).exists_of_ok hfold log₁
    obtain ⟨closed', log₁', hclose', hclosed⟩ := (halike.close 0).exists_of_ok hclose log₂'
    refine ⟨closed', log₁', ?_, hclosed.unit, hclosed.layers.length_eq.symm, hclosed.nodes⟩
    exact (Narrated.bind_of_ok hfold').trans hclose'
  | some known =>
    have hbegin : Outline.Alike (.after known) (SourceLine.advance count) ⟨none, marks, []⟩
        { unit := some known } := ⟨rfl, hempty, .nil⟩
    have hfits' : outline.Fits known := by
      rw [Outline.Fits, ← Outline.close_unit hclose]
      exact hfits known rfl
    obtain ⟨outline', log₂', hfold', halike⟩ :=
      Outline.foldlM_after (hvalid known rfl) count hbegin hread hfold hfits' log₁
    obtain ⟨closed', log₁', hclose', hclosed⟩ := (halike.close 0).exists_of_ok hclose log₂'
    refine ⟨closed', log₁', ?_, hclosed.unit, hclosed.layers.length_eq.symm, hclosed.nodes⟩
    exact (Narrated.bind_of_ok hfold').trans hclose'

/-- The rows of a text that others follow leave an outline whose blocks can end. -/
theorem exists_open {rows rows' : List Row} {log : List LogRecord}
    (hrun : ({} : Outline).readAll symbol rows [] = .ok ⟨unit, nodes.reverse, []⟩ log)
    (hrows : Row.Padded id rows rows') :
    ∃ outline log₁ front log₂, rows'.foldlM (Outline.readRow symbol) {} [] = .ok outline log₁
      ∧ outline.close 0 log₁ = .ok (({ unit } : Outline).prepend front) log₂
      ∧ Node.bareBlock front.reverse = Node.bareBlock nodes := by
  obtain ⟨outline, log₁, hfold, hclose⟩ := Narrated.bind_eq_ok hrun
  have hbegin : Outline.Padded id {} {} := ⟨rfl, rfl, .nil⟩
  obtain ⟨outline', log₁', hfold', halike⟩ :=
    (Outline.foldlM_padded hrows hbegin).exists_of_ok hfold []
  obtain ⟨⟨unit', front, layers⟩, log₂, hclose', hclosed⟩ :=
    (halike.close 0).exists_of_ok hclose log₁'
  obtain ⟨hunit, hnodes, hlayers⟩ := hclosed
  obtain rfl : unit' = unit := hunit
  cases hlayers
  refine ⟨outline', log₁', front, log₂, hfold', hclose', ?_⟩
  have hbare : Node.bareBlock front.reverse
      = Node.bareBlock (nodes.reverse.reverse.map (Node.mapLines id)) := hnodes
  rw [hbare, List.reverse_reverse, List.map_id'' Node.mapLines_id nodes]

/-- The blank rows at the beginning of a text leave marks. -/
theorem exists_filled {rows : List Row} {closed : Outline} {log : List LogRecord}
    (hrun : ({} : Outline).readAll symbol rows [] = .ok closed log) :
    ∃ blank filled marks, rows = blank ++ filled ∧ (∀ row ∈ blank, row.isBlank = true)
      ∧ (∀ row ∈ filled.head?, row.isBlank = false) ∧ marks.all Node.isEndOfLine = true
      ∧ Outline.IsRead symbol ⟨none, marks, []⟩ blank
      ∧ Outline.readAll symbol filled ⟨none, marks, []⟩ [] = .ok closed log := by
  have hsplit := List.takeWhile_append_dropWhile (p := Row.isBlank) (l := rows)
  have hblank : ∀ row ∈ rows.takeWhile Row.isBlank, row.isBlank = true := fun row =>
    List.mem_takeWhile_imp
  obtain ⟨marks, hmarks, hfold⟩ := Outline.foldlM_blank symbol {} [] hblank
  refine ⟨rows.takeWhile Row.isBlank, rows.dropWhile Row.isBlank, marks.reverse, hsplit.symm, hblank,
    fun row hrow => ?_, by rwa [List.all_reverse], ?_, ?_⟩
  · have := List.head?_dropWhile_not Row.isBlank rows
    rw [hrow] at this
    simpa using this
  · have := Outline.foldlM_readRow_isRead hfold (Outline.isRead_empty symbol)
    simpa [Outline.append] using this
  · rw [← hsplit, Outline.readAll, List.foldlM_append, bind_assoc] at hrun
    rw [Narrated.bind_of_ok hfold] at hrun
    simpa [Outline.append, Outline.readAll] using hrun

/-- **One text after another** is read as the one program and then the other, apart from the marks
and with the lines of the second one further down. -/
theorem parse_append (hbreak : Source.Breaks text lineBreak) (hparse : parse symbol text = .ok nodes)
    (hparse' : parse symbol text' = .ok nodes')
    (hunits : ∀ known ∈ unit? symbol text, ∀ found ∈ unit? symbol text', found = known) :
    ∃ joined, parse symbol (text ++ lineBreak ++ text') = .ok joined
      ∧ unit? symbol (text ++ lineBreak ++ text') = (unit? symbol text).or (unit? symbol text')
      ∧ Node.bareBlock joined = Node.bareBlock
        (nodes ++ nodes'.map (Node.mapLines (SourceLine.advance (Source.lines text).length))) := by
  generalize hknown : unit? symbol text = known at hunits ⊢
  generalize hfound : unit? symbol text' = found at hunits ⊢
  obtain ⟨rows', hpadded, hrows⟩ := rows_append hbreak text'
  generalize (Source.lines text).length = count at hrows ⊢
  obtain ⟨log, hrun⟩ := parse_and_unit_iff.mp ⟨hparse, hknown⟩
  obtain ⟨log', hrun'⟩ := parse_and_unit_iff.mp ⟨hparse', hfound⟩
  obtain ⟨blank, filled, marks, hsplit, hblank, hfilled, hmarks, hread', hrun'⟩ := exists_filled hrun'
  -- the blank rows at the beginning of the second text may as well belong to the first one
  have hopening : Row.Padded id (rows text) (rows' ++ blank.map (Row.advance count)) :=
    hpadded.append_blank fun _ hmem => by
      obtain ⟨row, hrow, rfl⟩ := List.mem_map.mp hmem
      exact hblank row hrow
  obtain ⟨outline, log₁, front, log₂, hfold, hclose, hfront⟩ := exists_open hrun hopening
  have hread := Outline.foldlM_readRow_isRead hfold (Outline.isRead_empty symbol)
  have hvalid : ∀ unit ∈ known, unit.IsValid := by
    have hunit : known = outline.unit := Outline.close_unit hclose
    rw [hunit]
    exact hread.valid
  obtain ⟨⟨_, more, layers⟩, log₃, hrun'', hunit, hlayers, hmore⟩ :=
    readAll_advance hmarks hread' hvalid hrun' hunits count log₂
  obtain rfl := hunit
  obtain rfl : layers = [] := List.length_eq_zero_iff.mp hlayers
  have hfront' : (({ unit := known } : Outline).prepend front).readAll symbol
      (filled.map (Row.advance count)) log₂ = .ok ⟨known.or found, more ++ front, []⟩ log₃ := by
    rw [Outline.readAll_prepend]
    exact Narrated.bind_of_ok hrun''
  have hseam := Outline.readAll_seam hread hclose (fun row hhead => ?_) hfront'
  · refine ⟨front.reverse ++ more.reverse, ?_⟩
    rw [← and_assoc, parse_and_unit_iff]
    refine ⟨⟨log₃, ?_⟩, ?_⟩
    · rw [hrows, hsplit, List.map_append, ← List.append_assoc, Outline.readAll, List.foldlM_append,
        bind_assoc, Narrated.bind_of_ok hfold, List.reverse_append, List.reverse_reverse,
        List.reverse_reverse]
      exact hseam
    · rw [Node.bareBlock_append, Node.bareBlock_append, hfront, hmore, List.reverse_reverse]
  · rw [List.head?_map] at hhead
    obtain ⟨row, hrow, rfl⟩ := Option.map_eq_some_iff.mp hhead
    exact hfilled row hrow

/-- Counted from their own first lines again, the nodes of both texts are those that each text has on
its own. -/
theorem bareBlock_retreat {joined : List Node} (hparse : parse symbol text = .ok nodes)
    (hparse' : parse symbol text' = .ok nodes')
    (h : Node.bareBlock joined = Node.bareBlock
      (nodes ++ nodes'.map (Node.mapLines (SourceLine.advance (Source.lines text).length)))) :
    Node.bareBlock (nodes ++ nodes') = Node.bareBlock
      (joined.map (Node.mapLines (SourceLine.retreat (Source.lines text).length))) := by
  have hnodes : nodes.map (Node.mapLines (SourceLine.retreat (Source.lines text).length))
      = nodes := by
    have hback := Node.mapLinesOfList_cancel (f := id)
      (g := SourceLine.retreat (Source.lines text).length) nodes fun line hline => by
        obtain ⟨hnumber, htext⟩ := hasLine_of_parse hparse line hline
        have hinside := (List.getElem?_eq_some_iff.mp htext).1
        exact SourceLine.retreat_of_le (by simp only [id]; omega)
    rwa [Node.mapLinesOfList_id, Node.mapLinesOfList_eq_map] at hback
  have hnodes' : (nodes'.map (Node.mapLines (SourceLine.advance (Source.lines text).length))).map
      (Node.mapLines (SourceLine.retreat (Source.lines text).length)) = nodes' := by
    have hback := Node.mapLinesOfList_cancel
      (f := SourceLine.advance (Source.lines text).length)
      (g := SourceLine.retreat (Source.lines text).length) nodes' fun line hline =>
        SourceLine.retreat_advance (hasLine_of_parse hparse' line hline).number _
    rwa [Node.mapLinesOfList_eq_map, Node.mapLinesOfList_eq_map] at hback
  rw [Node.bareBlock_map, h, ← Node.bareBlock_map, List.map_append, hnodes, hnodes']

end Program

end Tablica
