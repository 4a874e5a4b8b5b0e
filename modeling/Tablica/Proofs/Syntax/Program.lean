import Tablica.Proofs.Syntax.Reading

/-!
# A program that is read has a reading

The outline of a program whose rows are read up to some row keeps the nodes of the innermost block,
and with every open block those before its heading.  All of them have readings, and the rows of
these are the rows that were read.  While nothing is indented yet the unit is not known, but then
any unit will do, since at most one block is open.

* `Opened` — the open blocks and the rows before the innermost one;
* `Outline.Reads` — an outline and the rows that were read;
* `Outline.closeTo_reads`, `Outline.readFilled_isRead`, `Outline.readRow_isRead` — ending blocks and
  reading a row;
* `Program.reading_of_parse` — the result of `parse` has a reading;
* `IsParsed.isBlock` — so it is a block.
-/

namespace Tablica

/-- A sequence of narrated steps succeeds if each of them does. -/
theorem Narrated.bind_eq_ok {α β : Type} {x : Narrated α} {f : α → Narrated β} {b : β}
    {log log' : List LogRecord} (h : (x >>= f) log = .ok b log') :
    ∃ a log'', x log = .ok a log'' ∧ f a log'' = .ok b log' := by
  simp only [bind, EStateM.bind] at h
  cases hx : x log with
  | ok a log'' =>
    rw [hx] at h
    exact ⟨a, log'', rfl, h⟩
  | error fault log'' =>
    rw [hx] at h
    cases h

theorem Narrated.ofExcept_eq_ok {α : Type} {x : Except Fault α} {a : α}
    {log log' : List LogRecord} (h : (ofExcept x : Narrated α) log = .ok a log') :
    x = .ok a ∧ log' = log := by
  cases x with
  | ok a =>
    cases h
    exact ⟨rfl, rfl⟩
  | error fault => cases h

/-- Whether a row inside the layers may give back a value. -/
def Layer.inRoutine (layers : List Layer) : Bool :=
  layers.any (·.heading.isRoutine)

/-- The open blocks, and the rows up to the beginning of the innermost one. -/
inductive Opened (symbol : List Char) (unit : IndentUnit) : List Layer → List Row → Prop
  | nil : Opened symbol unit [] []
  | heading {layer : Layer} {layers : List Layer} {row : Row} {rows rows' : List Row}
      (houter : Opened symbol unit layers rows)
      (hbefore : Reading symbol unit (Layer.inRoutine layers) layers.length layer.before.reverse
        rows')
      (hrow : row.IsFilled unit layers.length) (hline : layer.line = row.line)
      (hread : readForm row.line (Layer.inRoutine layers) (unit.lexemes symbol layers.length row)
        = .ok (.heading layer.heading)) :
      Opened symbol unit (layer :: layers) (rows ++ (rows' ++ [row]))
  | alternative {layer : Layer} {layers : List Layer} {row row' : Row} {test : Node}
      {thenBlock : List Node} {rows rows' rows'' : List Row}
      (houter : Opened symbol unit layers rows)
      (hbefore : Reading symbol unit (Layer.inRoutine layers) layers.length layer.before.reverse
        rows')
      (hrow : row.IsFilled unit layers.length) (hline : layer.line = row.line)
      (hheading : layer.heading = .alternative test thenBlock)
      (hread : readForm row.line (Layer.inRoutine layers) (unit.lexemes symbol layers.length row)
        = .ok (.heading (.condition test)))
      (hthen : Reading symbol unit (Layer.inRoutine layers) (layers.length + 1) thenBlock rows'')
      (hfilled : IsFilled thenBlock) (hrow' : row'.IsAlternative symbol unit layers.length) :
      Opened symbol unit (layer :: layers) (rows ++ (rows' ++ row :: (rows'' ++ [row'])))

theorem IsFilled.reverse {nodes : List Node} (h : IsFilled nodes) : IsFilled nodes.reverse := by
  obtain ⟨node, hnode, hmark⟩ := h
  exact ⟨node, List.mem_reverse.mpr hnode, hmark⟩

/-- Open blocks and the nodes of the innermost one, the last one first, that stand for rows. -/
def LayersRead (symbol : List Char) (unit : IndentUnit) (layers : List Layer) (nodes : List Node)
    (rows : List Row) : Prop :=
  ∃ outer inner, rows = outer ++ inner ∧ Opened symbol unit layers outer
    ∧ Reading symbol unit (Layer.inRoutine layers) layers.length nodes.reverse inner

namespace LayersRead

variable {symbol : List Char} {unit : IndentUnit} {layer : Layer} {layers : List Layer}
  {nodes nodes' : List Node} {row : Row} {rows rows' : List Row}

/-- More rows in the innermost block. -/
theorem append (h : LayersRead symbol unit layers nodes rows)
    (hread : Reading symbol unit (Layer.inRoutine layers) layers.length nodes' rows') :
    LayersRead symbol unit layers (nodes'.reverse ++ nodes) (rows ++ rows') := by
  obtain ⟨outer, inner, rfl, hopened, hinner⟩ := h
  refine ⟨outer, inner ++ rows', List.append_assoc _ _ _, hopened, ?_⟩
  rw [List.reverse_append, List.reverse_reverse]
  exact hinner.append hread

/-- The innermost block is over. -/
theorem close (h : LayersRead symbol unit (layer :: layers) nodes rows) (hfilled : IsFilled nodes) :
    LayersRead symbol unit layers
      ((layer.heading.nodes layer.line nodes.reverse).reverse ++ layer.before) rows := by
  obtain ⟨outer, inner, rfl, hopened, hinner⟩ := h
  have hfilled := hfilled.reverse
  cases hopened with
  | heading houter hbefore hrow hline hread =>
    rename_i row rows rows'
    have hblock := Reading.heading hrow hread hinner hfilled .nil
    rw [List.append_nil, List.append_nil, ← hline] at hblock
    have := append ⟨rows, rows', rfl, houter, hbefore⟩ hblock
    simpa using this
  | alternative houter hbefore hrow hline hheading hread hthen hthenFilled hrow' =>
    rename_i row row' test thenBlock rows rows' rows''
    rw [Layer.inRoutine, List.any_cons, hheading, Heading.isRoutine, Bool.false_or] at hinner
    · have hblock := Reading.alternative hrow hread hthen hthenFilled hrow' hinner hfilled .nil
      rw [List.append_nil, ← hline] at hblock
      have := append ⟨rows, rows', rfl, houter, hbefore⟩ hblock
      simpa [hheading, Heading.nodes] using this
    · intro _ _ _ heq
      cases heq

/-- A block begins. -/
theorem openBlock (h : LayersRead symbol unit layers nodes rows)
    (hrow : row.IsFilled unit layers.length) {heading : Heading} {start : Position}
    (hread : readForm row.line (Layer.inRoutine layers) (unit.lexemes symbol layers.length row)
      = .ok (.heading heading)) :
    LayersRead symbol unit (⟨heading, row.line, start, nodes⟩ :: layers) [] (rows ++ [row]) := by
  obtain ⟨outer, inner, rfl, hopened, hinner⟩ := h
  refine ⟨outer ++ (inner ++ [row]), [], by simp, .heading hopened hinner hrow rfl hread, .nil⟩

/-- The other block of a condition begins. -/
theorem openAlternative {test : Node} {line : SourceLine} {start start' : Position}
    {before : List Node}
    (h : LayersRead symbol unit (⟨.condition test, line, start, before⟩ :: layers) nodes rows)
    (hfilled : IsFilled nodes) (hrow : row.IsAlternative symbol unit layers.length) :
    LayersRead symbol unit (⟨.alternative test nodes.reverse, line, start', before⟩ :: layers) []
      (rows ++ [row]) := by
  obtain ⟨outer, inner, rfl, hopened, hinner⟩ := h
  have hfilled := hfilled.reverse
  cases hopened with
  | heading houter hbefore hrow' hline hread =>
    rename_i row' rows rows'
    refine ⟨rows ++ (rows' ++ row' :: (inner ++ [row])), [], by simp, ?_, .nil⟩
    exact .alternative houter hbefore hrow' hline rfl hread hinner hfilled hrow
  | alternative _ _ _ _ hheading => cases hheading

end LayersRead

namespace Outline

variable {symbol : List Char} {unit : IndentUnit} {outline outline' : Outline} {row : Row}
  {rows : List Row} {log log' : List LogRecord}

/-- The rows that an outline stands for. -/
def Reads (symbol : List Char) (unit : IndentUnit) (outline : Outline) (rows : List Row) : Prop :=
  LayersRead symbol unit outline.layers outline.nodes rows

/-- An outline stands for rows in whatever unit it can be read. -/
structure IsRead (symbol : List Char) (outline : Outline) (rows : List Row) : Prop where
  valid : ∀ unit ∈ outline.unit, unit.IsValid
  level : outline.unit = none → outline.level ≤ 1
  reads : ∀ unit, (∀ unit' ∈ outline.unit, unit' = unit) → outline.Reads symbol unit rows

/-! ### Ending blocks -/

theorem isFilled_of_checkBlock {layer : Layer} {level : Nat} {nodes : List Node}
    (h : checkBlock layer level nodes log = .ok () log') : IsFilled nodes := by
  unfold checkBlock at h
  split at h
  · cases h
  · rename_i hall
    simpa [IsFilled] using hall

/-- The blocks that are deeper than the given depth end, and no others. -/
theorem closeTo_reads {depth : Nat} {layers layers' : List Layer} {nodes nodes' : List Node}
    (h : closeTo depth layers nodes log = .ok (layers', nodes') log') :
    layers'.length = min layers.length depth
      ∧ ∀ unit rows, LayersRead symbol unit layers nodes rows →
        LayersRead symbol unit layers' nodes' rows := by
  induction layers generalizing nodes log with
  | nil =>
    cases h
    exact ⟨by simp, fun _ _ h => h⟩
  | cons layer layers ih =>
    unfold closeTo at h
    split at h
    · rename_i hdepth
      cases h
      rw [List.length_cons]
      exact ⟨by omega, fun _ _ h => h⟩
    · rename_i hdepth
      obtain ⟨_, _, hcheck, h⟩ := Narrated.bind_eq_ok h
      obtain ⟨hlength, hreads⟩ := ih h
      rw [List.length_cons]
      exact ⟨by omega, fun unit rows hlayers =>
        hreads unit rows (hlayers.close (isFilled_of_checkBlock hcheck))⟩

theorem close_isRead {depth : Nat} (h : outline.close depth log = .ok outline' log')
    (hread : outline.IsRead symbol rows) :
    outline'.IsRead symbol rows ∧ outline'.unit = outline.unit
      ∧ outline'.level = min outline.level depth := by
  obtain ⟨⟨layers, nodes⟩, _, hclose, h⟩ := Narrated.bind_eq_ok h
  cases h
  obtain ⟨hlength, hreads⟩ := closeTo_reads hclose
  refine ⟨⟨hread.valid, fun hunit => ?_, fun unit hfits => ?_⟩, rfl, hlength⟩
  · have := hread.level hunit
    have : layers.length ≤ outline.level := by
      rw [hlength]
      exact Nat.min_le_left _ _
    show layers.length ≤ 1
    omega
  · exact hreads unit rows (hread.reads unit hfits)

/-! ### Reading a row -/

/-- The unit is the outline's, if it has one. -/
def Fits (outline : Outline) (unit : IndentUnit) : Prop :=
  ∀ unit' ∈ outline.unit, unit' = unit

/-- A depth that the row has in every unit that fits the outline. -/
structure Measures (symbol : List Char) (outline : Outline) (row : Row) (depth : Nat) : Prop where
  isFilled : ∀ unit, outline.Fits unit → row.IsFilled unit depth
  lexemes : ∀ unit, outline.Fits unit →
    row.lexemes symbol (outline.indentOf depth) = unit.lexemes symbol depth row
  unindented : outline.unit = none → depth = 0

theorem Measures.congr {depth : Nat} (h : outline.Measures symbol row depth)
    (hunit : outline'.unit = outline.unit) : outline'.Measures symbol row depth := by
  have hfits : ∀ unit, outline'.Fits unit → outline.Fits unit := fun unit hfits => by
    rwa [Fits, ← hunit]
  refine ⟨fun unit hunit => h.isFilled unit (hfits unit hunit), fun unit hfits' => ?_,
    fun hnone => ?_⟩
  · rw [← h.lexemes unit (hfits unit hfits'), indentOf, indentOf, hunit]
  · exact h.unindented (hunit ▸ hnone)

/-- A row that is not indented has depth zero in every unit. -/
theorem measures_zero (hrow : row.isBlank = false)
    (hhead : row.chars.head?.any Text.isBlank = false) : outline.Measures symbol row 0 where
  isFilled unit _ := by
    refine ⟨hrow, IndentUnit.indents_zero ?_ hhead⟩
    obtain ⟨c, hc, -⟩ := Row.exists_not_isBlank hrow
    exact List.ne_nil_of_mem hc
  lexemes unit _ := by
    have hindent : outline.indentOf 0 = 0 := by
      unfold indentOf
      split <;> simp
    rw [hindent, IndentUnit.lexemes, Nat.zero_mul]
  unindented _ := rfl

/-- The outline with a unit that fits, in which the row has a depth. -/
theorem isRead_of_depth {number depth : Nat} (hrow : row.isBlank = false)
    (hread : outline.IsRead symbol rows) (hfits : outline.Fits unit) (hvalid : unit.IsValid)
    (h : unit.depth number outline.level row.chars = .ok depth) :
    IsRead symbol { outline with unit := some unit } rows ∧ depth ≤ outline.level
      ∧ Measures symbol { outline with unit := some unit } row depth := by
  obtain ⟨hindents, hlevel⟩ :=
    IndentUnit.indents_of_depth hvalid (Row.exists_not_isBlank hrow) h
  refine ⟨⟨fun unit' hunit => ?_, (nomatch ·), fun unit' hunit => ?_⟩, hlevel,
    fun unit' hunit => ?_, fun unit' hunit => ?_, (nomatch ·)⟩
  · cases hunit
    exact hvalid
  · exact hread.reads unit' fun unit'' hunit'' => by rw [hfits unit'' hunit'', hunit unit rfl]
  · obtain rfl := hunit unit rfl
    exact ⟨hrow, hindents⟩
  · obtain rfl := hunit unit rfl
    rw [IndentUnit.lexemes, indentOf, Nat.mul_comm]

theorem measure_isRead {depth : Nat} (hrow : row.isBlank = false)
    (h : outline.measure row log = .ok (depth, outline') log')
    (hread : outline.IsRead symbol rows) :
    outline'.IsRead symbol rows ∧ depth ≤ outline'.level
      ∧ outline'.Measures symbol row depth := by
  unfold measure at h
  simp only at h
  split at h
  · rename_i hlevel
    split at h
    · cases h
    · rename_i hhead
      cases h
      exact ⟨hread, Nat.zero_le _, measures_zero hrow (by simpa using hhead)⟩
  · rename_i hlevel
    cases hunit : outline.unit with
    | some unit =>
      rw [hunit] at h
      obtain ⟨_, _, hpure, h⟩ := Narrated.bind_eq_ok h
      cases hpure
      obtain ⟨_, _, hrun, h⟩ := Narrated.bind_eq_ok h
      obtain ⟨hdepth, -⟩ := Narrated.ofExcept_eq_ok hrun
      cases h
      refine isRead_of_depth hrow hread (fun unit' hunit' => ?_) (hread.valid unit hunit) hdepth
      rw [hunit] at hunit'
      exact (Option.some.inj hunit').symm
    | none =>
      rw [hunit] at h
      have hone : outline.level = 1 := by
        have := hread.level hunit
        omega
      obtain ⟨found, _, hfound, h⟩ := Narrated.bind_eq_ok h
      obtain ⟨hfound, -⟩ := Narrated.ofExcept_eq_ok hfound
      rw [hone] at hfound
      have hvalid := IndentUnit.isValid_of_discover hfound
      cases found with
      | none =>
        cases h
        exact ⟨hread, Nat.zero_le _, measures_zero hrow hvalid⟩
      | some unit =>
        obtain ⟨_, _, -, h⟩ := Narrated.bind_eq_ok h
        obtain ⟨_, _, hpure, h⟩ := Narrated.bind_eq_ok h
        cases hpure
        obtain ⟨_, _, hrun, h⟩ := Narrated.bind_eq_ok h
        obtain ⟨hdepth, -⟩ := Narrated.ofExcept_eq_ok hrun
        cases h
        refine isRead_of_depth hrow hread (fun unit' hunit' => ?_) hvalid hdepth
        rw [hunit] at hunit'
        cases hunit'

/-- The node of a statement is added to its block, and a heading opens a block. -/
theorem place_eq_ok {form : Except Fault Form} {next : Form → Narrated Outline}
    (hsimple : ∀ node, next (.simple node) = pure (outline.append [node, .endOfLine]))
    (hheading : ∀ heading, next (.heading heading)
      = pure (outline.openBlock heading row.line (blockStart row)))
    (h : ((ofExcept form : Narrated Form) >>= next) log = .ok outline' log') :
    (∃ node, form = .ok (.simple node) ∧ outline' = outline.append [node, .endOfLine])
      ∨ ∃ heading, form = .ok (.heading heading)
        ∧ outline' = outline.openBlock heading row.line (blockStart row) := by
  obtain ⟨form', _, hform, hnext⟩ := Narrated.bind_eq_ok h
  obtain ⟨rfl, -⟩ := Narrated.ofExcept_eq_ok hform
  cases form' with
  | simple node =>
    rw [hsimple] at hnext
    obtain ⟨rfl, -⟩ := EStateM.Result.ok.inj hnext
    exact .inl ⟨node, rfl, rfl⟩
  | heading heading =>
    rw [hheading] at hnext
    obtain ⟨rfl, -⟩ := EStateM.Result.ok.inj hnext
    exact .inr ⟨heading, rfl, rfl⟩

theorem readStatement_eq_ok {lexemes : Lexemes}
    (h : outline.readStatement row lexemes log = .ok outline' log') :
    (∃ node, readForm row.line outline.inRoutine lexemes = .ok (.simple node)
        ∧ outline' = outline.append [node, .endOfLine])
      ∨ ∃ heading, readForm row.line outline.inRoutine lexemes = .ok (.heading heading)
        ∧ outline' = outline.openBlock heading row.line (blockStart row) := by
  unfold readStatement at h
  obtain ⟨items, ending⟩ := lexemes
  rcases items with _ | ⟨token | fault, items⟩
  · exact place_eq_ok (fun _ => rfl) (fun _ => rfl) h
  · obtain ⟨_, _, -, h⟩ := Narrated.bind_eq_ok h
    exact place_eq_ok (fun _ => rfl) (fun _ => rfl) h
  · exact place_eq_ok (fun _ => rfl) (fun _ => rfl) h

/-- Reading the statement of a row in the block of its depth. -/
theorem readStatement_isRead {depth : Nat} (hdepth : outline.level = depth)
    (hmeasures : outline.Measures symbol row depth)
    (h : outline.readStatement row (row.lexemes symbol (outline.indentOf depth)) log
      = .ok outline' log')
    (hread : outline.IsRead symbol rows) : outline'.IsRead symbol (rows ++ [row]) := by
  subst hdepth
  rcases readStatement_eq_ok h with ⟨node, hform, rfl⟩ | ⟨heading, hform, rfl⟩
  · refine ⟨hread.valid, hread.level, fun unit hfits => ?_⟩
    rw [hmeasures.lexemes unit hfits] at hform
    exact (hread.reads unit hfits).append (.simple (hmeasures.isFilled unit hfits) hform .nil)
  · refine ⟨hread.valid, fun hunit => ?_, fun unit hfits => ?_⟩
    · have := hmeasures.unindented hunit
      show outline.level + 1 ≤ 1
      omega
    · rw [hmeasures.lexemes unit hfits] at hform
      exact (hread.reads unit hfits).openBlock (hmeasures.isFilled unit hfits) hform

/-- The row is read after all blocks that are deeper have ended. -/
theorem closeStatement_isRead {depth : Nat} {lexemes : Lexemes}
    (hlexemes : lexemes = row.lexemes symbol (outline.indentOf depth))
    (hdepth : depth ≤ outline.level) (hmeasures : outline.Measures symbol row depth)
    (h : (do let outline ← outline.close depth; outline.readStatement row lexemes) log
      = .ok outline' log')
    (hread : outline.IsRead symbol rows) : outline'.IsRead symbol (rows ++ [row]) := by
  obtain ⟨closed, _, hclose, h⟩ := Narrated.bind_eq_ok h
  obtain ⟨hclosed, hunit, hlevel⟩ := close_isRead hclose hread
  rw [hlexemes, indentOf, ← hunit, ← indentOf] at h
  exact readStatement_isRead (by rw [hlevel]; exact Nat.min_eq_right hdepth)
    (hmeasures.congr hunit) h hclosed

theorem readFilled_isRead (hrow : row.isBlank = false)
    (h : outline.readFilled symbol row log = .ok outline' log')
    (hread : outline.IsRead symbol rows) : outline'.IsRead symbol (rows ++ [row]) := by
  obtain ⟨⟨depth, measured⟩, _, hmeasure, h⟩ := Narrated.bind_eq_ok h
  obtain ⟨hmeasured, hlevel, hmeasures⟩ := measure_isRead hrow hmeasure hread
  obtain ⟨closed, _, hclose, h⟩ := Narrated.bind_eq_ok h
  obtain ⟨hclosed, hunit, hclosedLevel⟩ := close_isRead hclose hmeasured
  have hmeasures := hmeasures.congr hunit
  have hlexemes : row.lexemes symbol (measured.indentOf depth)
      = row.lexemes symbol (closed.indentOf depth) := by rw [indentOf, indentOf, hunit]
  have hle : depth ≤ closed.level := by omega
  cases hlayers : closed.layers with
  | nil =>
    rw [hlayers] at h
    exact closeStatement_isRead hlexemes hle hmeasures h hclosed
  | cons layer layers =>
    obtain ⟨heading, line, start, before⟩ := layer
    rw [hlayers] at h
    cases heading with
    | condition test =>
      simp only at h
      split at h
      · rename_i hstarts
        rw [Bool.and_eq_true, decide_eq_true_eq] at hstarts
        obtain ⟨hlength, hstarts⟩ := hstarts
        obtain ⟨_, _, hcheck, h⟩ := Narrated.bind_eq_ok h
        obtain ⟨_, _, hfinish, h⟩ := Narrated.bind_eq_ok h
        cases h
        refine ⟨hclosed.valid, fun hnone => ?_, fun unit hfits => ?_⟩
        · have := hclosed.level hnone
          rwa [Outline.level, hlayers] at this
        · have hreads := hclosed.reads unit hfits
          rw [Reads, hlayers] at hreads
          refine hreads.openAlternative (isFilled_of_checkBlock hcheck) ?_
          rw [hlength]
          rw [hlexemes, hmeasures.lexemes unit hfits] at hstarts hfinish
          exact ⟨hmeasures.isFilled unit hfits, hstarts, (Narrated.ofExcept_eq_ok hfinish).1⟩
      · exact closeStatement_isRead hlexemes hle hmeasures h hclosed
    | _ => exact closeStatement_isRead hlexemes hle hmeasures h hclosed

/-- **One more row** is read. -/
theorem readRow_isRead (h : outline.readRow symbol row log = .ok outline' log')
    (hread : outline.IsRead symbol rows) : outline'.IsRead symbol (rows ++ [row]) := by
  unfold readRow at h
  split at h
  · rename_i hrow
    cases h
    exact ⟨hread.valid, hread.level, fun unit hfits =>
      (hread.reads unit hfits).append (.mark hrow .nil)⟩
  · rename_i hrow
    exact readFilled_isRead (by simpa using hrow) h hread

theorem foldlM_readRow_isRead {rows' : List Row}
    (h : rows'.foldlM (readRow symbol) outline log = .ok outline' log')
    (hread : outline.IsRead symbol rows) : outline'.IsRead symbol (rows ++ rows') := by
  induction rows' generalizing outline rows log with
  | nil =>
    cases h
    rwa [List.append_nil]
  | cons row rows' ih =>
    obtain ⟨next, _, hrow, h⟩ := Narrated.bind_eq_ok h
    have := ih h (readRow_isRead hrow hread)
    rwa [List.append_assoc, List.singleton_append] at this

theorem isRead_empty (symbol : List Char) : IsRead symbol {} [] where
  valid _ hunit := nomatch hunit
  level _ := Nat.zero_le 1
  reads _ _ := ⟨[], [], rfl, .nil, .nil⟩

end Outline

/-- **A text that can be parsed has a reading**, in some valid unit of indentation. -/
theorem Program.reading_of_parse {symbol : List Char} {text : String} {nodes : List Node}
    (h : Program.parse symbol text = .ok nodes) :
    ∃ unit, unit.IsValid ∧ Reading symbol unit false 0 nodes (Program.rows text) := by
  unfold parse read at h
  cases hrun : (readRows symbol (rows text)).run [] with
  | error fault log => simp [hrun] at h
  | ok nodes' log =>
    obtain rfl : nodes' = nodes := by simpa [hrun] using h
    obtain ⟨outline, _, hfold, hrun⟩ := Narrated.bind_eq_ok hrun
    obtain ⟨closed, _, hclose, hrun⟩ := Narrated.bind_eq_ok hrun
    obtain ⟨_, _, -, hrun⟩ := Narrated.bind_eq_ok hrun
    cases hrun
    have hread := Outline.foldlM_readRow_isRead hfold (Outline.isRead_empty symbol)
    obtain ⟨hclosed, -, hlevel⟩ := Outline.close_isRead hclose hread
    have hreading : ∀ unit, closed.Fits unit →
        Reading symbol unit false 0 closed.nodes.reverse (rows text) := by
      intro unit hfits
      obtain ⟨outer, inner, hrows, hopened, hinner⟩ := hclosed.reads unit hfits
      have hnone : closed.layers = [] := List.eq_nil_of_length_eq_zero (by
        rw [Nat.min_zero] at hlevel
        exact hlevel)
      rw [hnone] at hopened hinner
      cases hopened
      rw [List.nil_append, List.nil_append] at hrows
      rw [hrows]
      exact hinner
    cases hunit : closed.unit with
    | some unit =>
      refine ⟨unit, hclosed.valid unit hunit, hreading unit fun unit' hunit' => ?_⟩
      rw [hunit] at hunit'
      exact (Option.some.inj hunit').symm
    | none =>
      refine ⟨⟨'\t', 1⟩, .inr ⟨rfl, Nat.le_refl 1⟩, hreading _ fun unit' hunit' => ?_⟩
      rw [hunit] at hunit'
      cases hunit'

/-- The programs that are read from a text. -/
def IsParsed (program : List Node) : Prop :=
  ∃ symbol text, Program.parse symbol text = .ok program

theorem IsParsed.isBlock {program : List Node} (h : IsParsed program) : IsBlock false program := by
  obtain ⟨symbol, text, h⟩ := h
  obtain ⟨unit, -, hreading⟩ := Program.reading_of_parse h
  exact hreading.isBlock

end Tablica
