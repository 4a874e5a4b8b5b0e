import Tablica.Proofs.Syntax.Layout
import Tablica.Proofs.Syntax.Relocation

/-!
# Errors and nodes point at the text

A position **lies in** a text if it is that of one of its characters or of the end of a line.  All
positions that are told apart while a line is read come from its lexemes, so a relocation that
leaves these in place leaves the place of a fault there too; this is how it is seen that a fault of
a line lies in that line.  What else reading remembers are the places where the open blocks have to
begin, and these lie in the text as long as another row follows or the end of the last one is meant.

The lines that the nodes of a program remember are those of its rows, by the reading of the rows.

* `Source.HasPosition`, `Source.HasLine` — the positions and lines of a text;
* `readForm_position` — the fault of a line;
* `Narrated.Ends` — what a computation that may meet a fault ends with;
* `Outline.readRow_ends` — a row keeps the places of the open blocks in the text;
* `Row.HoldsForm`, `Reading.exists_row` — the rows that hold statements, and the lines of a reading;
* `Program.hasPosition_of_parse`, `Program.hasLine_of_parse` — errors and nodes.
-/

namespace Tablica

/-! ### The places of a text -/

/-- A position in a text with the given lines: in one of them, or at its end. -/
structure Source.HasPosition (lines : List (List Char)) (q : Position) : Prop where
  line : 1 ≤ q.line
  column : 1 ≤ q.column
  inside : ∃ cs, lines[q.line - 1]? = some cs ∧ q.column ≤ cs.length + 1

/-- A line of a text by its number and its literal text. -/
structure Source.HasLine (lines : List (List Char)) (line : SourceLine) : Prop where
  number : 1 ≤ line.number
  text : lines[line.number - 1]? = some line.text.toList

/-- A row of a text. -/
structure Row.IsOf (lines : List (List Char)) (row : Row) : Prop where
  hasLine : Source.HasLine lines row.line
  next : row.isLast = false → row.line.number < lines.length

theorem Row.isOf_of_mem_ofLines (before : List (List Char)) {lines : List (List Char)} {row : Row}
    (h : row ∈ ofLines (before.length + 1) lines) : row.IsOf (before ++ lines) := by
  induction lines generalizing before with
  | nil => cases h
  | cons cs lines ih =>
    rcases List.mem_cons.mp h with rfl | h
    · refine ⟨⟨Nat.succ_pos _, by simp⟩, fun hlast => ?_⟩
      have hne : lines ≠ [] := by
        rintro rfl
        cases hlast
      have := List.length_pos_iff.mpr hne
      simp only [List.length_append, List.length_cons]
      omega
    · have := ih (before ++ [cs]) (by simpa using h)
      simpa using this

/-- The rows that are read are rows of the text. -/
theorem Program.isOf_of_mem_rows {text : String} {row : Row} (h : row ∈ rows text) :
    row.IsOf (Source.lines text) :=
  Row.isOf_of_mem_ofLines [] (List.mem_of_mem_filter h)

section Row

variable {lines : List (List Char)} {row : Row}

/-- The places of a row. -/
theorem Row.IsOf.hasPosition (h : row.IsOf lines) {column : Nat} (hpositive : 1 ≤ column)
    (hcolumn : column ≤ row.chars.length + 1) :
    Source.HasPosition lines ⟨row.line.number, column⟩ :=
  ⟨h.hasLine.number, hpositive, row.chars, h.hasLine.text, hcolumn⟩

theorem Row.IsOf.hasPosition_blockStart (h : row.IsOf lines) :
    Source.HasPosition lines (Outline.blockStart row) := by
  unfold Outline.blockStart
  split
  · exact h.hasPosition (Nat.succ_pos _) (Nat.le_refl _)
  · rename_i hlast
    have hnext := h.next (by simpa using hlast)
    exact ⟨Nat.succ_pos _, Nat.le_refl _, lines[row.line.number], by simp [hnext], Nat.succ_pos _⟩

/-! ### The fault of a line -/

section Pin

open Classical

variable {P : Position → Prop} {q₀ : Position}

/-- The relocation that keeps the positions with a property and moves all others to one place. -/
noncomputable def Relocation.pin (P : Position → Prop) (q₀ : Position) : Relocation where
  line := id
  position q := if P q then q else q₀

theorem Relocation.pin_of {q : Position} (h : P q) : (pin P q₀).position q = q := if_pos h

theorem Relocation.pin_position (h₀ : P q₀) (q : Position) : P ((pin P q₀).position q) := by
  show P (if P q then q else q₀)
  split
  · assumption
  · exact h₀

end Pin

variable {P : Position → Prop}

/-- **The fault of a line** lies where the characters of the line do. -/
theorem readForm_position {symbol : List Char} {indent : Nat} (hindent : indent ≤ row.chars.length)
    (hP : ∀ column, 1 ≤ column → column ≤ row.chars.length + 1 → P ⟨row.line.number, column⟩) :
    (∀ inRoutine fault, readForm row.line inRoutine (row.lexemes symbol indent) = .error fault →
        P fault.position)
      ∧ ∀ fault, Form.finishLine (row.lexemes symbol indent).ending
        (row.lexemes symbol indent).items.tail = .error fault → P fault.position := by
  have h₀ : P ⟨row.line.number, 1⟩ := hP 1 (Nat.le_refl _) (by omega)
  have hpinned : ∀ k ≤ (row.chars.drop indent).length,
      (Relocation.pin P ⟨row.line.number, 1⟩).position ⟨row.line.number, indent + 1 + k⟩
        = ⟨row.line.number, indent + 1 + k⟩ := fun k hk =>
    Relocation.pin_of (hP _ (by omega) (by rw [List.length_drop] at hk; omega))
  have hlast : row.isLast = true → row.isLast = true := id
  obtain ⟨hitems, hending⟩ :=
    Token.lexemesFrom_relocates symbol hlast _ _ (row.chars.drop indent) hpinned
  have hmoved : ∀ {α : Type} {V : α → α → Prop} {x : Except Fault α} {fault : Fault},
      Relates (Relocation.pin P ⟨row.line.number, 1⟩).Moves V x x → x = .error fault →
        P fault.position := by
    intro α V x fault hrelates hfault
    subst hfault
    cases hrelates with
    | error h =>
      rw [h.1]
      exact Relocation.pin_position h₀ _
  refine ⟨fun inRoutine fault => ?_, fun fault => ?_⟩
  · exact hmoved (Relocation.readForm_relates hitems hending row.line inRoutine)
  · have hrelates := Relocation.finishLine_relates hending (row.lexemes symbol indent).items.tail
    have htail : (row.lexemes symbol indent).items.tail.map
        (Relocation.pin P ⟨row.line.number, 1⟩).lexeme
        = (row.lexemes symbol indent).items.tail := by
      rw [List.map_tail]
      exact congrArg List.tail hitems.symm
    rw [htail] at hrelates
    exact hmoved hrelates

end Row

/-! ### Narrated computations -/

/-- A computation whose fault, if it meets one, is such a fault, and whose result is such. -/
def Narrated.Ends {α : Type} (P : Fault → Prop) (V : α → Prop) (x : Narrated α) : Prop :=
  ∀ log, match x log with
    | .ok a _ => V a
    | .error fault _ => P fault

namespace Narrated.Ends

variable {α β : Type} {P : Fault → Prop} {V : α → Prop} {W : β → Prop} {x : Narrated α}

theorem pure {a : α} (h : V a) : Ends P V (pure a) := fun _ => h

theorem throw {fault : Fault} (h : P fault) : Ends P V (throw fault) := fun _ => h

theorem note (record : LogRecord) : Ends P (fun _ => True) (Narrated.note record) :=
  fun _ => trivial

theorem of_except {x : Except Fault α} (hok : ∀ a, x = .ok a → V a)
    (herror : ∀ fault, x = .error fault → P fault) :
    Ends P V (ofExcept x : Narrated α) := by
  cases x with
  | ok a => exact fun _ => hok a rfl
  | error fault => exact fun _ => herror fault rfl

theorem bind {f : α → Narrated β} (h : Ends P V x) (hf : ∀ a, V a → Ends P W (f a)) :
    Ends P W (x >>= f) := by
  intro log
  have hx := h log
  simp only [Bind.bind, EStateM.bind]
  cases hrun : x log with
  | ok a log' =>
    rw [hrun] at hx
    exact hf a hx log'
  | error fault log' =>
    rw [hrun] at hx
    exact hx

end Narrated.Ends

/-! ### Reading a row -/

namespace IndentUnit

variable {number level : Nat} {cs : List Char} {fault : Fault}

theorem leadingRun_le (c : Char) (cs : List Char) : leadingRun c cs ≤ cs.length :=
  (List.takeWhile_prefix _).length_le

/-- A line that fixes no unit is at fault from its beginning. -/
theorem position_of_discover (h : discover number level cs = .error fault) :
    fault.position = ⟨number, 1⟩ := by
  unfold discover at h
  simp only at h
  split at h
  · cases h
  · repeat' split at h
    all_goals cases h
    all_goals rfl

/-- A line whose depth is not to be told is at fault in its indentation, or directly behind it. -/
theorem position_of_depth {unit : IndentUnit} (h : unit.depth number level cs = .error fault) :
    ∃ column, 1 ≤ column ∧ column ≤ cs.length + 1 ∧ fault.position = ⟨number, column⟩ := by
  unfold IndentUnit.depth at h
  simp only at h
  split at h
  · cases h
    have := leadingRun_le unit.character cs
    exact ⟨_, Nat.succ_pos _, by omega, rfl⟩
  · cases h

/-- The indentation of a line is a part of it. -/
theorem mul_le_of_depth {unit : IndentUnit} {depth : Nat}
    (h : unit.depth number level cs = .ok depth) : unit.width * depth ≤ cs.length := by
  unfold IndentUnit.depth at h
  simp only at h
  split at h
  · cases h
  · cases h
    exact Nat.le_trans (Nat.mul_div_le _ _) (leadingRun_le _ _)

end IndentUnit

namespace Outline

open Narrated (Ends)

variable {P : Fault → Prop} {symbol : List Char} {outline : Outline} {row : Row}

/-- All open blocks have to begin at places where they may be missing. -/
def StartsIn (P : Fault → Prop) (outline : Outline) : Prop :=
  ∀ layer ∈ outline.layers, P ⟨.emptyBlock, layer.start⟩

theorem checkBlock_ends {layer : Layer} (h : P ⟨.emptyBlock, layer.start⟩) (level : Nat) (nodes : List Node) :
    Ends P (fun _ => True) (checkBlock layer level nodes) := by
  unfold checkBlock
  split
  · exact .throw h
  · exact .note _

theorem closeTo_ends (depth : Nat) (layers : List Layer) (nodes : List Node)
    (h : ∀ layer ∈ layers, P ⟨.emptyBlock, layer.start⟩) :
    Ends P (fun closed => ∀ layer ∈ closed.1, P ⟨.emptyBlock, layer.start⟩)
      (closeTo depth layers nodes) := by
  induction layers generalizing nodes with
  | nil => exact .pure h
  | cons layer layers ih =>
    unfold closeTo
    split
    · exact .pure h
    · obtain ⟨hlayer, hlayers⟩ := List.forall_mem_cons.mp h
      exact (checkBlock_ends hlayer _ _).bind fun _ _ => ih _ hlayers

theorem close_ends (depth : Nat) (h : outline.StartsIn P) :
    Ends P (StartsIn P) (outline.close depth) :=
  (closeTo_ends depth outline.layers outline.nodes h).bind fun _ hclosed => .pure hclosed

variable (hrow : ∀ kind column, 1 ≤ column → column ≤ row.chars.length + 1 →
  P ⟨kind, ⟨row.line.number, column⟩⟩)

include hrow

/-- The depth of a row is told, or the row is at fault; its indentation is a part of it. -/
theorem measure_ends (h : outline.StartsIn P) :
    Ends P (fun found => found.2.StartsIn P ∧ found.2.indentOf found.1 ≤ row.chars.length)
      (outline.measure row) := by
  have hstart : ∀ kind, P ⟨kind, ⟨row.line.number, 1⟩⟩ := fun kind =>
    hrow kind 1 (Nat.le_refl _) (by omega)
  have hzero : outline.indentOf 0 ≤ row.chars.length := by
    unfold indentOf
    split <;> simp
  have hdepth : ∀ unit : IndentUnit, Ends P
      (fun found => found.2.StartsIn P ∧ found.2.indentOf found.1 ≤ row.chars.length)
      (do
        let depth ← ofExcept (unit.depth row.line.number outline.level row.chars)
        return (depth, { outline with unit := some unit })) := by
    intro unit
    refine (Narrated.Ends.of_except (fun depth hdepth => IndentUnit.mul_le_of_depth hdepth)
      fun fault hfault => ?_).bind fun depth hdepth => .pure ⟨h, hdepth⟩
    obtain ⟨column, hpositive, hcolumn, hposition⟩ := IndentUnit.position_of_depth hfault
    change P ⟨fault.kind, fault.position⟩
    rw [hposition]
    exact hrow fault.kind column hpositive hcolumn
  unfold measure
  simp only
  split
  · split
    · exact .throw (hstart _)
    · exact .pure ⟨h, hzero⟩
  · split
    · rename_i unit _
      exact hdepth unit
    · refine (Narrated.Ends.of_except (fun _ _ => trivial) fun fault hfault => ?_).bind
        fun found _ => ?_
      · change P ⟨fault.kind, fault.position⟩
        rw [IndentUnit.position_of_discover hfault]
        exact hstart fault.kind
      · cases found with
        | none => exact .pure ⟨h, hzero⟩
        | some unit => exact (Narrated.Ends.note _).bind fun _ _ => hdepth unit

/-- The fault of a line is one at a place of the row. -/
theorem readForm_fault {indent : Nat} (hindent : indent ≤ row.chars.length) :
    (∀ inRoutine fault, readForm row.line inRoutine (row.lexemes symbol indent) = .error fault →
        P fault)
      ∧ ∀ fault, Form.finishLine (row.lexemes symbol indent).ending
        (row.lexemes symbol indent).items.tail = .error fault → P fault := by
  have hplaces : ∀ column, 1 ≤ column → column ≤ row.chars.length + 1 →
      ∀ kind, P ⟨kind, ⟨row.line.number, column⟩⟩ := fun column hpositive hcolumn kind =>
    hrow kind column hpositive hcolumn
  obtain ⟨hform, hfinish⟩ := readForm_position (P := fun q => ∀ kind, P ⟨kind, q⟩) hindent hplaces
  exact ⟨fun inRoutine fault h => hform inRoutine fault h fault.kind,
    fun fault h => hfinish fault h fault.kind⟩

theorem enterForm_ends (hblock : P ⟨.emptyBlock, blockStart row⟩) {indent : Nat}
    (hindent : indent ≤ row.chars.length) (h : outline.StartsIn P) :
    Ends P (StartsIn P) (do
      match ← ofExcept (readForm row.line outline.inRoutine (row.lexemes symbol indent)) with
      | .simple node => return outline.append [node, .endOfLine]
      | .heading heading => return outline.openBlock heading row.line (blockStart row)) := by
  refine (Narrated.Ends.of_except (fun _ _ => trivial)
    ((readForm_fault hrow hindent).1 _)).bind fun form _ => ?_
  cases form with
  | simple node => exact .pure h
  | heading heading => exact .pure (List.forall_mem_cons.mpr ⟨hblock, h⟩)

theorem readStatement_ends (hblock : P ⟨.emptyBlock, blockStart row⟩) {indent : Nat}
    (hindent : indent ≤ row.chars.length) (h : outline.StartsIn P) :
    Ends P (StartsIn P) (outline.readStatement row (row.lexemes symbol indent)) := by
  unfold readStatement
  split
  · exact (Narrated.Ends.note _).bind fun _ _ => enterForm_ends hrow hblock hindent h
  · exact enterForm_ends hrow hblock hindent h

theorem readFilled_ends (hblock : P ⟨.emptyBlock, blockStart row⟩) (h : outline.StartsIn P) :
    Ends P (StartsIn P) (outline.readFilled symbol row) := by
  refine (measure_ends hrow h).bind fun (depth, measured) hmeasured => ?_
  obtain ⟨h, hindent⟩ := hmeasured
  refine (close_ends (depth + 1) h).bind fun closed hclosed => ?_
  have hstatement : Ends P (StartsIn P) (do
      let outline ← closed.close depth
      outline.readStatement row (row.lexemes symbol (measured.indentOf depth))) :=
    (close_ends depth hclosed).bind fun _ h => readStatement_ends hrow hblock hindent h
  split
  · rename_i test line start before layers hlayers
    rw [StartsIn, hlayers] at hclosed
    obtain ⟨hstart, hlayers⟩ := List.forall_mem_cons.mp hclosed
    split
    · refine (checkBlock_ends hstart _ _).bind fun _ _ => ?_
      refine (Narrated.Ends.of_except (fun _ _ => trivial)
        (readForm_fault hrow hindent).2).bind fun _ _ => .pure ?_
      exact List.forall_mem_cons.mpr ⟨hblock, hlayers⟩
    · exact hstatement
  · exact hstatement

/-- **One row** keeps the places at which the open blocks have to begin. -/
theorem readRow_ends (hblock : P ⟨.emptyBlock, blockStart row⟩) (h : outline.StartsIn P) :
    Ends P (StartsIn P) (outline.readRow symbol row) := by
  unfold readRow
  split
  · exact .pure h
  · exact readFilled_ends hrow hblock h

omit hrow in
/-- **All rows** do. -/
theorem foldlM_ends {rows : List Row} (hrows : ∀ row ∈ rows, ∀ kind column, 1 ≤ column →
      column ≤ row.chars.length + 1 → P ⟨kind, ⟨row.line.number, column⟩⟩)
    (hblocks : ∀ row ∈ rows, P ⟨.emptyBlock, blockStart row⟩) (h : outline.StartsIn P) :
    Ends P (StartsIn P) (rows.foldlM (readRow symbol) outline) := by
  induction rows generalizing outline with
  | nil => exact .pure h
  | cons row rows ih =>
    obtain ⟨hrow, hrest⟩ := List.forall_mem_cons.mp hrows
    obtain ⟨hblock, hblocks⟩ := List.forall_mem_cons.mp hblocks
    rw [List.foldlM_cons]
    exact (readRow_ends hrow hblock h).bind fun outline h => ih hrest hblocks h

end Outline

/-! ### The lines of the nodes -/

theorem Node.sourceLinesOfList_append (nodes nodes' : List Node) :
    sourceLinesOfList (nodes ++ nodes') = sourceLinesOfList nodes ++ sourceLinesOfList nodes' := by
  induction nodes with
  | nil => rfl
  | cons node nodes ih => simp [sourceLinesOfList, ih]

/-- The nodes of a heading remember the line of the heading and those of its block. -/
theorem Heading.IsRead.mem_sourceLines {heading : Heading} {line line' : SourceLine}
    {block : List Node} (h : heading.IsRead line)
    (hmem : line' ∈ Node.sourceLinesOfList (heading.nodes line block)) :
    line' = line ∨ line' ∈ Node.sourceLinesOfList block := by
  have hblock : ∀ {node : Node}, node ∈ block → line' ∈ node.sourceLines →
      line' ∈ Node.sourceLinesOfList block := fun hnode hmem =>
    Node.mem_sourceLinesOfList.mpr ⟨_, hnode, hmem⟩
  cases h with
  | condition htest | whileLoop htest =>
    simp only [Heading.nodes, Node.sourceLinesOfList, Node.sourceLines, Node.sourceLinesOfBlock,
      List.append_nil, List.mem_cons, List.mem_append] at hmem
    rcases hmem with hmem | hmem | hmem
    · exact .inl hmem
    · exact .inl (htest.eq_of_mem_sourceLines hmem)
    · exact .inr hmem
  | range hfirst hlast =>
    simp only [Heading.nodes, Node.sourceLinesOfList, Node.sourceLines, List.append_nil,
      List.nil_append, List.mem_cons, List.mem_append] at hmem
    rcases hmem with (hmem | hmem) | hmem | (hmem | hmem) | hmem
    · exact .inl hmem
    · exact .inl (hfirst.eq_of_mem_sourceLines hmem)
    · exact .inl hmem
    · exact .inl hmem
    · exact .inl (hlast.eq_of_mem_sourceLines hmem)
    · obtain ⟨node, hnode, hmem⟩ := Node.mem_sourceLinesOfList.mp hmem
      rcases List.mem_append.mp hnode with hnode | hnode
      · exact .inr (hblock hnode hmem)
      · obtain rfl := List.mem_singleton.mp hnode
        exact .inl (by simpa [Node.sourceLines] using hmem)
  | routine =>
    simp only [Heading.nodes, Node.sourceLinesOfList, Node.sourceLines, List.append_nil,
      List.mem_cons] at hmem
    exact hmem

/-- A row that holds a statement, at some depth of the text. -/
def Row.HoldsForm (symbol : List Char) (unit : IndentUnit) (row : Row) : Prop :=
  ∃ inRoutine depth form, readForm row.line inRoutine (unit.lexemes symbol depth row) = .ok form

/-- **The lines that a reading remembers** are those of its rows that hold statements. -/
theorem Reading.exists_row {symbol : List Char} {unit : IndentUnit} {inRoutine : Bool}
    {depth : Nat} {nodes : List Node} {rows : List Row} {line : SourceLine}
    (h : Reading symbol unit inRoutine depth nodes rows)
    (hmem : line ∈ Node.sourceLinesOfList nodes) :
    ∃ row ∈ rows, row.line = line ∧ row.HoldsForm symbol unit := by
  have hlater : ∀ {rows rows' : List Row}, (∀ row ∈ rows, row ∈ rows') →
      (∃ row ∈ rows, row.line = line ∧ row.HoldsForm symbol unit) →
        ∃ row ∈ rows', row.line = line ∧ row.HoldsForm symbol unit :=
    fun hsub ⟨row, hrow, hline⟩ => ⟨row, hsub row hrow, hline⟩
  induction h with
  | nil => cases hmem
  | mark _ _ ih => exact hlater (fun _ => List.mem_cons_of_mem _) (ih hmem)
  | simple _ hread _ ih =>
    have hnode := readForm_isRead (unit.lexemes_isNatural _ _ _) hread
    rcases List.mem_append.mp hmem with hmem | hmem
    · exact ⟨_, List.mem_cons_self, (IsSimple.eq_of_mem_sourceLines hnode hmem).symm, _, _, _,
        hread⟩
    · exact hlater (fun _ => List.mem_cons_of_mem _) (ih hmem)
  | @heading _ _ row _ _ _ rows rows' _ hread _ _ _ ihblock ih =>
    have hheading := readForm_isRead (unit.lexemes_isNatural _ _ _) hread
    rw [Node.sourceLinesOfList_append, List.mem_append] at hmem
    rcases hmem with hmem | hmem
    · rcases Heading.IsRead.mem_sourceLines hheading hmem with rfl | hmem
      · exact ⟨row, List.mem_cons_self, rfl, _, _, _, hread⟩
      · exact hlater (fun _ h => List.mem_cons_of_mem _ (List.mem_append_left _ h)) (ihblock hmem)
    · exact hlater (fun _ h => List.mem_cons_of_mem _ (List.mem_append_right _ h)) (ih hmem)
  | @alternative _ _ row row' _ _ _ _ rows rows' rows'' _ hread _ _ _ _ _ _ ihthen ihelse ih =>
    have hheading := readForm_isRead (unit.lexemes_isNatural _ _ _) hread
    cases hheading with
    | condition htest =>
      simp only [Node.sourceLinesOfList, Node.sourceLines, Node.sourceLinesOfBlock, List.mem_cons,
        List.mem_append] at hmem
      rcases hmem with (rfl | (hmem | hmem) | hmem) | hmem
      · exact ⟨row, List.mem_cons_self, rfl, _, _, _, hread⟩
      · exact ⟨row, List.mem_cons_self, (htest.eq_of_mem_sourceLines hmem).symm, _, _, _, hread⟩
      · exact hlater (fun _ h => by simp [h]) (ihthen hmem)
      · exact hlater (fun _ h => by simp [h]) (ihelse hmem)
      · exact hlater (fun _ h => by simp [h]) (ih hmem)

/-! ### Programs -/

namespace Program

variable {symbol : List Char} {text : String}

open Narrated (Ends)

/-- The rows of a text are at fault at positions of the text. -/
theorem readRows_ends (symbol : List Char) (text : String) :
    Ends (fun fault => Source.HasPosition (Source.lines text) fault.position) (fun _ => True)
      (readRows symbol (rows text)) := by
  have hrows : Ends (fun fault => Source.HasPosition (Source.lines text) fault.position)
      (Outline.StartsIn fun fault => Source.HasPosition (Source.lines text) fault.position)
      ((rows text).foldlM (Outline.readRow symbol) {}) :=
    Outline.foldlM_ends (fun _ hrow _ _ => (isOf_of_mem_rows hrow).hasPosition)
      (fun _ hrow => (isOf_of_mem_rows hrow).hasPosition_blockStart) nofun
  exact hrows.bind fun outline h =>
    (Outline.close_ends 0 h).bind fun _ _ => (Ends.note _).bind fun _ _ => .pure trivial

/-- **An error lies in the text**, and it holds the line at its position. -/
theorem hasPosition_of_parse {e : SyntaxError} (h : parse symbol text = .error e) :
    Source.HasPosition (Source.lines text) e.position
      ∧ e.source = Source.lineAt (Source.lines text) e.position.line := by
  have hends := readRows_ends symbol text []
  unfold parse read EStateM.run at h
  split at h
  · cases h
  · rename_i fault log hrun
    rw [hrun] at hends
    cases h
    exact ⟨hends, rfl⟩

/-- **The nodes of a program** remember lines of its text. -/
theorem hasLine_of_parse {nodes : List Node} (h : parse symbol text = .ok nodes) :
    ∀ line ∈ Node.sourceLinesOfList nodes, Source.HasLine (Source.lines text) line := by
  intro line hmem
  obtain ⟨unit, -, hreading⟩ := reading_of_parse h
  obtain ⟨row, hrow, rfl, -⟩ := hreading.exists_row hmem
  exact (isOf_of_mem_rows hrow).hasLine

end Program

end Tablica
