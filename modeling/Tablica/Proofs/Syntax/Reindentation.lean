import Tablica.Proofs.Source.Edits
import Tablica.Proofs.Syntax.Likeness
import Tablica.Proofs.Syntax.Positions

/-!
# Indentation in another unit

How much a level of indentation is does not matter.  If each line is indented in another unit, by as
many levels as before, the same program is read:

    unit of two spaces       jeżeli x to        unit of one tab        jeżeli x to
                             ··pisz 1                                  →pisz 1

Both texts are read side by side.  As long as nothing is indented no unit is known on either side;
the line that fixes the one unit fixes the other; and from then on a line has one depth in both.

* `Program.unit?` — the unit in which a text is indented;
* `IndentUnit.reindent`, `Source.reindent` — a line, and a text, in another unit;
* `IndentUnit.depth_of_indents`, `IndentUnit.discover_of_indents` — what indents a line fixes its
  depth, and the unit;
* `Outline.readRow_reindented` — a row of both texts;
* `reindentation_keeps_the_program` — both texts are read as one program.
-/

namespace Tablica

namespace IndentUnit

variable {unit unit' : IndentUnit} {number level depth : Nat} {cs : List Char}

/-- The line with as many levels of another unit in front. -/
def reindent (unit unit' : IndentUnit) (cs : List Char) : List Char :=
  let depth := leadingRun unit.character cs / unit.width
  List.replicate (depth * unit'.width) unit'.character ++ cs.drop (depth * unit.width)

/-- The same, but a line that is blank or a comment stays as it is. -/
def reindentLine (unit unit' : IndentUnit) (cs : List Char) : List Char :=
  if Source.holdsNothing cs then cs else unit.reindent unit' cs

theorem IsValid.width_pos (h : unit.IsValid) : 0 < unit.width := by
  rcases h with ⟨-, h⟩ | ⟨-, h⟩ <;> omega

/-! ### The depth of a line -/

theorem leadingRun_replicate_append (c : Char) (count : Nat) {cs : List Char}
    (hcs : cs.head? ≠ some c) : leadingRun c (List.replicate count c ++ cs) = count := by
  have htail : cs.takeWhile (· == c) = [] := by
    cases cs with
    | nil => rfl
    | cons c' cs =>
      rw [List.takeWhile_cons_of_neg]
      exact fun heq => hcs (congrArg some (eq_of_beq heq))
  rw [leadingRun, List.takeWhile_append_of_pos (by simp), htail, List.append_nil,
    List.length_replicate]

theorem Indents.leadingRun_eq (hvalid : unit.IsValid) (h : unit.Indents depth cs) :
    leadingRun unit.character cs = depth * unit.width := by
  obtain ⟨c, rest, rfl, hc⟩ := h
  refine leadingRun_replicate_append _ _ fun heq => ?_
  obtain rfl : c = unit.character := Option.some.inj heq
  rw [hvalid.isBlank] at hc
  cases hc

/-- A line of depth zero does not start with a blank. -/
theorem Indents.head (h : unit.Indents 0 cs) : cs.head?.any Text.isBlank = false := by
  obtain ⟨c, rest, rfl, hc⟩ := h
  rw [Nat.zero_mul, List.replicate_zero, List.nil_append, List.head?_cons, Option.any_some, hc]

/-- **What indents a line fixes its depth.** -/
theorem depth_of_indents (hvalid : unit.IsValid) (h : unit.Indents depth cs) (hle : depth ≤ level) :
    unit.depth number level cs = .ok depth := by
  have hrun := h.leadingRun_eq hvalid
  have hnext : (cs[depth * unit.width]?).any Text.isBlank = false := by
    obtain ⟨c, rest, rfl, hc⟩ := h
    rw [List.getElem?_append_right (by simp), List.length_replicate, Nat.sub_self]
    exact hc
  have hlevel : depth * unit.width ≤ unit.width * level := by
    rw [Nat.mul_comm]
    exact Nat.mul_le_mul_left _ hle
  unfold IndentUnit.depth
  simp only [hrun, hnext, Nat.mul_mod_left, Nat.mul_div_cancel _ hvalid.width_pos]
  rw [if_neg]
  simpa using hlevel

/-- A line of the first level fixes the unit. -/
theorem discover_of_indents (hvalid : unit.IsValid) (h : unit.Indents 1 cs) :
    discover number 1 cs = .ok (some unit) := by
  have hrun := h.leadingRun_eq hvalid
  have hhead : cs.head? = some unit.character := by
    obtain ⟨c, rest, rfl, hc⟩ := h
    have hwidth := hvalid.width_pos
    rw [List.head?_append, List.head?_replicate, if_neg (by omega), Option.some_or]
  have hwide : ¬ (unit.character = ' ' ∧ 1 * unit.width < 2) := by
    rintro ⟨hspace, hnarrow⟩
    rcases hvalid with ⟨-, hwidth⟩ | ⟨htab, -⟩
    · omega
    · rw [hspace] at htab
      exact absurd htab (by decide)
  unfold discover
  simp only [hhead, hvalid.isBlank, hrun, Bool.not_true, Bool.false_eq_true, if_false]
  rw [if_neg hwide, Nat.mod_one, if_neg (by simp), Nat.div_one, Nat.one_mul]

/-- A line that is not indented fixes no unit. -/
theorem discover_of_head (h : cs.head?.any Text.isBlank = false) :
    discover number level cs = .ok none := by
  unfold discover
  simp only
  split
  · rfl
  · rename_i c hhead
    rw [hhead, Option.any_some] at h
    rw [h]
    rfl

/-! ### A line in another unit -/

/-- A line of some depth has it in the other unit as well, and goes on as before. -/
theorem Indents.reindent (hvalid : unit.IsValid) (h : unit.Indents depth cs) :
    unit.reindent unit' cs
      = List.replicate (depth * unit'.width) unit'.character ++ cs.drop (depth * unit.width) := by
  rw [IndentUnit.reindent, h.leadingRun_eq hvalid, Nat.mul_div_cancel _ hvalid.width_pos]

theorem Indents.reindent_indents (hvalid : unit.IsValid) (h : unit.Indents depth cs) :
    unit'.Indents depth (unit.reindent unit' cs) := by
  rw [h.reindent hvalid]
  obtain ⟨c, rest, rfl, hc⟩ := h
  exact ⟨c, rest, by simp, hc⟩

/-- Another unit adds neither a line feed nor a carriage return. -/
theorem reindentLine_keepsEndings (unit : IndentUnit) (hvalid : unit'.IsValid) :
    Source.KeepsEndings (unit.reindentLine unit') := by
  have hother : ∀ {c : Char}, Text.isBlank c = false → unit'.character ≠ c := by
    rintro c hc rfl
    rw [hvalid.isBlank] at hc
    cases hc
  refine ⟨fun {line} hline => ?_, fun {line} hline => ?_⟩
  · unfold reindentLine
    split
    · exact hline
    · rw [IndentUnit.reindent, List.mem_append, not_or]
      exact ⟨fun hmem => hother rfl (List.eq_of_mem_replicate hmem).symm,
        fun hmem => hline (List.mem_of_mem_drop hmem)⟩
  · unfold reindentLine
    split
    · exact hline
    · rw [IndentUnit.reindent, List.getLast?_append]
      cases hrest : (line.drop _).getLast? with
      | none =>
        rw [Option.none_or]
        intro hmem
        exact hother rfl (List.eq_of_mem_replicate (List.mem_of_getLast? hmem)).symm
      | some c =>
        rw [Option.some_or]
        rw [List.getLast?_drop] at hrest
        split at hrest
        · cases hrest
        · rwa [← hrest]

end IndentUnit

/-- A text in another unit of indentation.  Lines that are blank or comments stay as they are. -/
def Source.reindent (unit unit' : IndentUnit) (text : String) : String :=
  mapLines (unit.reindentLine unit') text

/-- A line in another unit. -/
def SourceLine.reindent (unit unit' : IndentUnit) (line : SourceLine) : SourceLine :=
  ⟨line.number, String.ofList (unit.reindentLine unit' line.text.toList)⟩

/-- A row in another unit. -/
def Row.reindent (unit unit' : IndentUnit) (row : Row) : Row :=
  ⟨row.line.reindent unit unit', row.isLast⟩

/-- The unit of indentation that is known when a text has been read. -/
def Program.unit? (symbol : List Char) (text : String) : Option IndentUnit :=
  match (rows text).foldlM (Outline.readRow symbol) {} [] with
  | .ok outline _ => outline.unit
  | .error _ _ => none

/-! ### Rows in another unit -/

section Rows

variable {unit unit' : IndentUnit} {row : Row}

theorem Row.chars_reindent : (row.reindent unit unit').chars = unit.reindentLine unit' row.chars :=
  String.toList_ofList

theorem Row.chars_reindent_of_isBlank (h : row.isBlank = true) :
    (row.reindent unit unit').chars = row.chars := by
  rw [Row.isBlank_eq] at h
  rw [chars_reindent, IndentUnit.reindentLine, if_pos h]

theorem Row.chars_reindent_of_filled (h : row.isBlank = false) :
    (row.reindent unit unit').chars = unit.reindent unit' row.chars := by
  rw [Row.isBlank_eq] at h
  rw [chars_reindent, IndentUnit.reindentLine, h, if_neg Bool.false_ne_true]

/-- A line that is neither blank nor a comment is none in another unit. -/
theorem Row.isBlank_reindent (hvalid : unit.IsValid) (hvalid' : unit'.IsValid)
    (h : row.isBlank = false) {depth : Nat} (hindents : unit.Indents depth row.chars) :
    (row.reindent unit unit').isBlank = false := by
  have hblanks : ∀ {unit : IndentUnit} (count : Nat) (cs : List Char), unit.IsValid →
      Source.holdsNothing (List.replicate count unit.character ++ cs)
        = Source.holdsNothing cs := fun count cs hvalid => by
    rw [Source.holdsNothing, List.dropWhile_append_of_pos fun c hc => by
      rw [List.eq_of_mem_replicate hc, hvalid.isBlank], ← Source.holdsNothing]
  have hsplit : row.chars = List.replicate (depth * unit.width) unit.character
      ++ row.chars.drop (depth * unit.width) := by
    rw [← hindents.leadingRun_eq hvalid, IndentUnit.replicate_leadingRun_append]
  rw [isBlank_eq, chars_reindent_of_filled h, hindents.reindent hvalid, hblanks _ _ hvalid',
    ← hblanks (depth * unit.width) _ hvalid, ← hsplit]
  exact h

/-- What is not blank is left of a line in another unit. -/
theorem Row.isEmpty_reindent (hvalid : unit.IsValid) (row : Row) :
    (row.reindent unit unit').line.text.isEmpty = row.line.text.isEmpty := by
  rw [Bool.eq_iff_iff, String.isEmpty_iff, String.isEmpty_iff, ← String.toList_eq_nil_iff,
    ← String.toList_eq_nil_iff]
  change (row.reindent unit unit').chars = [] ↔ row.chars = []
  cases hrow : row.isBlank with
  | true => rw [chars_reindent_of_isBlank hrow]
  | false =>
    obtain ⟨c, hc, hfilled⟩ := exists_not_isBlank hrow
    have hnonempty : row.chars ≠ [] := List.ne_nil_of_mem hc
    rw [chars_reindent_of_filled hrow]
    refine ⟨fun hnil => absurd ?_ hnonempty, fun hnil => absurd hnil hnonempty⟩
    -- otherwise the whole line would be its leading run, which is blank
    have hlength := List.drop_eq_nil_iff.mp (List.append_eq_nil_iff.mp hnil).2
    have hrun := Nat.le_trans hlength (Nat.div_mul_le_self _ _)
    have hsplit := IndentUnit.replicate_leadingRun_append unit.character row.chars
    rw [List.drop_eq_nil_of_le hrun, List.append_nil] at hsplit
    rw [← hsplit] at hc
    rw [List.eq_of_mem_replicate hc, hvalid.isBlank] at hfilled
    cases hfilled

/-- The rows of a text in another unit. -/
theorem Program.rows_reindent (hvalid : unit.IsValid) (hvalid' : unit'.IsValid) (text : String) :
    rows (Source.reindent unit unit' text) = (rows text).map (Row.reindent unit unit') := by
  have hlines := Source.lines_mapLines (IndentUnit.reindentLine_keepsEndings unit hvalid') text
  rw [rows, Row.ofText, Source.reindent, hlines, Row.ofLines_map, rows, Row.ofText]
  change ((Row.ofLines 1 (Source.lines text)).map (Row.reindent unit unit')).filter _ = _
  rw [List.filter_map]
  refine congrArg (List.map _) (List.filter_congr fun row _ => ?_)
  simp only [Function.comp_apply, Row.isEmpty_reindent hvalid]
  rfl

end Rows

/-! ### Reading in both units -/

namespace Outline

variable {symbol : List Char} {outline next : Outline} {row : Row} {rows : List Row}
  {lexemes : Lexemes} {depth : Nat} {log log' : List LogRecord}

theorem close_unit (h : outline.close depth log = .ok next log') : next.unit = outline.unit := by
  obtain ⟨_, _, -, h⟩ := Narrated.bind_eq_ok h
  cases h
  rfl

theorem closeStatement_unit
    (h : (do (← outline.close depth).readStatement row lexemes) log = .ok next log') :
    next.unit = outline.unit := by
  obtain ⟨closed, _, hclose, h⟩ := Narrated.bind_eq_ok h
  rw [← close_unit hclose]
  rcases readStatement_eq_ok h with ⟨_, -, rfl⟩ | ⟨_, -, rfl⟩ <;> rfl

/-- Once the depth of a row is known the unit stays as it is. -/
theorem place_unit (h : outline.place row lexemes depth log = .ok next log') :
    next.unit = outline.unit := by
  obtain ⟨closed, _, hclose, h⟩ := Narrated.bind_eq_ok h
  rw [← close_unit hclose]
  obtain ⟨unit, nodes, layers⟩ := closed
  rcases layers with _ | ⟨⟨heading, line, start, before⟩, layers⟩
  · exact closeStatement_unit h
  · cases heading with
    | condition test =>
      simp only at h
      split at h
      · obtain ⟨_, _, -, h⟩ := Narrated.bind_eq_ok h
        obtain ⟨_, _, -, h⟩ := Narrated.bind_eq_ok h
        cases h
        rfl
      · exact closeStatement_unit h
    | _ => exact closeStatement_unit h

/-- The ways in which the depth of a row is told: outside of all blocks and where nothing is
indented the row must not be indented either; otherwise the unit is known, or the row fixes it. -/
theorem measure_cases (hread : outline.IsRead symbol rows)
    (h : outline.measure row log = .ok (depth, next) log') :
    (next = outline ∧ depth = 0 ∧ (outline.level = 0 ∨ outline.unit = none ∧ outline.level = 1))
      ∨ (∃ unit, outline.unit = some unit ∧ next = outline ∧ outline.level ≠ 0)
      ∨ ∃ unit, outline.unit = none ∧ outline.level = 1
        ∧ next = { outline with unit := some unit } ∧ row.chars.head?.any Text.isBlank = true := by
  unfold measure at h
  simp only at h
  split at h
  · rename_i hlevel
    split at h
    · cases h
    · cases h
      exact .inl ⟨rfl, rfl, .inl hlevel⟩
  · rename_i hlevel
    cases hunit : outline.unit with
    | some unit =>
      rw [hunit] at h
      obtain ⟨_, _, hpure, h⟩ := Narrated.bind_eq_ok h
      cases hpure
      obtain ⟨_, _, -, h⟩ := Narrated.bind_eq_ok h
      cases h
      exact .inr (.inl ⟨unit, rfl, by rw [← hunit], hlevel⟩)
    | none =>
      rw [hunit] at h
      have hone : outline.level = 1 := by
        have := hread.level hunit
        omega
      obtain ⟨found, _, hfound, h⟩ := Narrated.bind_eq_ok h
      obtain ⟨hfound, -⟩ := Narrated.ofExcept_eq_ok hfound
      cases found with
      | none =>
        cases h
        exact .inl ⟨rfl, rfl, .inr ⟨rfl, hone⟩⟩
      | some unit =>
        obtain ⟨_, _, -, h⟩ := Narrated.bind_eq_ok h
        obtain ⟨_, _, hpure, h⟩ := Narrated.bind_eq_ok h
        cases hpure
        obtain ⟨_, _, -, h⟩ := Narrated.bind_eq_ok h
        cases h
        refine .inr (.inr ⟨unit, rfl, hone, rfl, ?_⟩)
        cases hhead : row.chars.head?.any Text.isBlank with
        | true => rfl
        | false =>
          rw [IndentUnit.discover_of_head hhead] at hfound
          cases hfound

/-- A unit that is known stays known. -/
theorem readRow_unit (hread : outline.IsRead symbol rows)
    (h : outline.readRow symbol row log = .ok next log') {unit : IndentUnit}
    (hunit : outline.unit = some unit) : next.unit = some unit := by
  unfold readRow at h
  split at h
  · cases h
    exact hunit
  · obtain ⟨⟨depth, measured⟩, _, hmeasure, h⟩ := Narrated.bind_eq_ok h
    have hmeasured : measured.unit = outline.unit := by
      rcases measure_cases hread hmeasure with ⟨rfl, -⟩ | ⟨_, -, rfl, -⟩ | ⟨_, hnone, -⟩
      · rfl
      · rfl
      · rw [hunit] at hnone
        cases hnone
    rw [place_unit h, hmeasured, hunit]

/-! The depth of a row is told whenever its indentation allows it. -/

theorem measure_of_head (hlevel : outline.level = 0 ∨ outline.unit = none)
    (hhead : row.chars.head?.any Text.isBlank = false) :
    outline.measure row log = .ok (0, outline) log := by
  unfold measure
  simp only [hhead]
  split
  · rfl
  · rename_i hpositive
    rw [hlevel.resolve_left hpositive, IndentUnit.discover_of_head hhead]
    rfl

theorem measure_of_indents {unit : IndentUnit} (hunit : outline.unit = some unit)
    (hvalid : unit.IsValid) (hlevel : outline.level ≠ 0)
    (hindents : unit.Indents depth row.chars) (hdepth : depth ≤ outline.level) :
    outline.measure row log = .ok (depth, outline) log := by
  have hmeasure : outline.measure row log
      = .ok (depth, { outline with unit := some unit }) log := by
    unfold measure
    simp only [if_neg hlevel, hunit, pure_bind, IndentUnit.depth_of_indents hvalid hindents hdepth]
    rfl
  rw [hmeasure, ← hunit]

theorem measure_of_first {unit : IndentUnit} (hunit : outline.unit = none) (hvalid : unit.IsValid)
    (hlevel : outline.level = 1) (hindents : unit.Indents 1 row.chars) (log : List LogRecord) :
    ∃ log', outline.measure row log = .ok (1, { outline with unit := some unit }) log' := by
  have hdepth : unit.depth row.line.number 1 row.chars = .ok 1 :=
    IndentUnit.depth_of_indents hvalid hindents (Nat.le_refl 1)
  refine ⟨.indentationFound unit.character unit.width :: log, ?_⟩
  unfold measure
  simp only [hunit, hlevel, IndentUnit.discover_of_indents hvalid hindents]
  change (do
    let depth ← ofExcept (unit.depth row.line.number 1 row.chars)
    return (depth, { outline with unit := some unit }) : Narrated (Nat × Outline)) _ = _
  rw [hdepth]
  rfl

end Outline

/-- The same blocks, and units of which the second is known if the first one is. -/
def IndentUnit.likeness (unit' : IndentUnit) : Likeness where
  block nodes nodes' := nodes' = nodes
  unit known known' := known' = known.map fun _ => unit'
  refl _ := rfl
  append := by
    rintro _ _ _ _ rfl rfl
    rfl
  marks := by
    rintro _ _ rfl
    rfl
  heading := by
    rintro _ _ _ _ rfl
    rfl
  alternative := by
    rintro _ _ _ _ _ _ rfl rfl
    rfl

section Reading

variable {symbol : List Char} {unit unit' : IndentUnit} {outline outline' next : Outline}
  {row : Row} {rows : List Row} {depth : Nat} {log log' : List LogRecord}

/-- Outlines of the rows of both texts. -/
abbrev Outline.Reindented (unit unit' : IndentUnit) (outline outline' : Outline) : Prop :=
  outline.Alike unit'.likeness (SourceLine.reindent unit unit') outline'

theorem Outline.Reindented.withUnit (h : outline.Reindented unit unit' outline') :
    Reindented unit unit' { outline with unit := some unit }
      { outline' with unit := some unit' } :=
  ⟨rfl, h.nodes, h.layers⟩

/-- **The depth of a row** is told in both units. -/
theorem Outline.measure_reindented (hvalid : unit.IsValid) (hvalid' : unit'.IsValid)
    (h : outline.Reindented unit unit' outline') (hread : outline.IsRead symbol rows)
    (hrow : row.isBlank = false) (hmeasure : outline.measure row log = .ok (depth, next) log')
    (hfits : next.Fits unit) (log₁ : List LogRecord) :
    ∃ next' log₁', outline'.measure (row.reindent unit unit') log₁ = .ok (depth, next') log₁'
      ∧ next.Reindented unit unit' next' := by
  obtain ⟨-, hdepth, hmeasures⟩ := measure_isRead hrow hmeasure hread
  have hindents := (hmeasures.isFilled unit hfits).indents
  have hindents' : unit'.Indents depth (row.reindent unit unit').chars := by
    rw [Row.chars_reindent_of_filled hrow]
    exact hindents.reindent_indents hvalid
  have hlevel := h.level
  have hunit : outline'.unit = outline.unit.map fun _ => unit' := h.unit
  rcases measure_cases hread hmeasure with
    ⟨rfl, rfl, hplace⟩ | ⟨_, hknown, rfl, hpositive⟩ | ⟨found, hnone, hone, rfl, hhead⟩
  · refine ⟨outline', log₁, measure_of_head ?_ hindents'.head, h⟩
    rcases hplace with hzero | ⟨hnone, -⟩
    · exact .inl (by rw [hlevel, hzero])
    · exact .inr (by rw [hunit, hnone]; rfl)
  · refine ⟨outline', log₁, measure_of_indents (by rw [hunit, hknown]; rfl) hvalid' ?_ hindents' ?_,
      h⟩
    · rwa [hlevel]
    · rwa [hlevel]
  · obtain rfl : found = unit := hfits found rfl
    obtain rfl : depth = 1 := by
      have hpositive : depth ≠ 0 := by
        rintro rfl
        rw [hindents.head] at hhead
        cases hhead
      have hle : depth ≤ outline.level := hdepth
      omega
    obtain ⟨log₁', hmeasure'⟩ := measure_of_first (by rw [hunit, hnone]; rfl) hvalid'
      (by rw [hlevel, hone]) hindents' log₁
    exact ⟨_, log₁', hmeasure', h.withUnit⟩

/-- The lexemes of a row in both units differ by the place where they stand. -/
theorem Outline.lexemes_reindented (hvalid : unit.IsValid) (hrow : row.isBlank = false)
    (hmeasures : outline.Measures symbol row depth) (hfits : outline.Fits unit)
    (h : outline.Reindented unit unit' outline') :
    ∃ r : Relocation, r.line = SourceLine.reindent unit unit'
      ∧ ((row.reindent unit unit').lexemes symbol (outline'.indentOf depth)).items
        = (row.lexemes symbol (outline.indentOf depth)).items.map r.lexeme
      ∧ r.EndingMoves (row.lexemes symbol (outline.indentOf depth)).ending
        ((row.reindent unit unit').lexemes symbol (outline'.indentOf depth)).ending := by
  have hindents := (hmeasures.isFilled unit hfits).indents
  have hunit : outline'.unit = outline.unit.map fun _ => unit' := h.unit
  have hindent : outline.indentOf depth = depth * unit.width
      ∧ outline'.indentOf depth = depth * unit'.width := by
    cases hknown : outline.unit with
    | none =>
      rw [hknown] at hunit
      rw [hmeasures.unindented hknown, indentOf, indentOf, hknown, hunit]
      simp
    | some found =>
      obtain rfl := hfits found hknown
      rw [hknown] at hunit
      rw [indentOf, indentOf, hknown, hunit]
      exact ⟨Nat.mul_comm _ _, Nat.mul_comm _ _⟩
  have hdrop : (row.reindent unit unit').chars.drop (depth * unit'.width)
      = row.chars.drop (depth * unit.width) := by
    rw [Row.chars_reindent_of_filled hrow, hindents.reindent hvalid,
      List.drop_left' List.length_replicate]
  let r : Relocation :=
    { line := SourceLine.reindent unit unit'
      position := fun q => ⟨q.line, q.column + depth * unit'.width - depth * unit.width⟩ }
  have hmoved : ∀ k ≤ (row.chars.drop (depth * unit.width)).length,
      r.position ⟨row.line.number, depth * unit.width + 1 + k⟩
        = ⟨row.line.number, depth * unit'.width + 1 + k⟩ := fun k _ => by
    have hcolumn : depth * unit.width + 1 + k + depth * unit'.width - depth * unit.width
        = depth * unit'.width + 1 + k := by omega
    exact congrArg (Position.mk row.line.number) hcolumn
  have hlast : row.isLast = true → row.isLast = true := id
  refine ⟨r, rfl, ?_⟩
  rw [hindent.1, hindent.2, Row.lexemes, Row.lexemes, hdrop]
  exact Token.lexemesFrom_relocates symbol hlast _ _ _ hmoved

/-- **A row** is read in both units. -/
theorem Outline.readRow_reindented (hvalid : unit.IsValid) (hvalid' : unit'.IsValid)
    (h : outline.Reindented unit unit' outline') (hread : outline.IsRead symbol rows)
    (hrun : outline.readRow symbol row log = .ok next log') (hfits : next.Fits unit)
    (log₁ : List LogRecord) :
    ∃ next' log₁', outline'.readRow symbol (row.reindent unit unit') log₁ = .ok next' log₁'
      ∧ next.Reindented unit unit' next' := by
  cases hrow : row.isBlank with
  | true =>
    have hrow' : (row.reindent unit unit').isBlank = true := by
      rw [Row.isBlank_eq, Row.chars_reindent_of_isBlank hrow]
      exact hrow
    rw [readRow, if_pos hrow] at hrun
    cases hrun
    rw [readRow, if_pos hrow']
    exact ⟨_, _, rfl, h.append rfl⟩
  | false =>
    rw [readRow, if_neg (by rw [hrow]; exact Bool.false_ne_true), readFilled_eq] at hrun
    obtain ⟨⟨depth, measured⟩, log₂, hmeasure, hplace⟩ := Narrated.bind_eq_ok hrun
    have hfits' : measured.Fits unit := by rwa [Fits, ← place_unit hplace]
    obtain ⟨measured', log₂', hmeasure', hmeasured⟩ :=
      measure_reindented hvalid hvalid' h hread hrow hmeasure hfits' log₁
    obtain ⟨-, -, hmeasures⟩ := measure_isRead hrow hmeasure hread
    obtain ⟨r, hline, hitems, hending⟩ :=
      lexemes_reindented hvalid hrow hmeasures hfits' hmeasured
    have hrowLine : (row.reindent unit unit').line = r.line row.line := by
      rw [hline]
      rfl
    rw [Reindented, ← hline] at hmeasured
    obtain ⟨next', log₁', hplace', hnext⟩ :=
      (hmeasured.place hrowLine hitems hending depth).exists_of_ok hplace log₂'
    have hrow' := Row.isBlank_reindent hvalid hvalid' hrow (hmeasures.isFilled unit hfits').indents
    refine ⟨next', log₁', ?_, by rwa [Reindented, ← hline]⟩
    rw [readRow, if_neg (by rw [hrow']; exact Bool.false_ne_true), readFilled_eq,
      Narrated.bind_of_ok hmeasure']
    exact hplace'

theorem Outline.foldlM_unit {rows' : List Row} (hread : outline.IsRead symbol rows)
    (hrun : rows'.foldlM (readRow symbol) outline log = .ok next log')
    (hunit : outline.unit = some unit) : next.unit = some unit := by
  induction rows' generalizing outline rows log with
  | nil =>
    cases hrun
    exact hunit
  | cons row rows' ih =>
    obtain ⟨middle, _, hrow, hrun⟩ := Narrated.bind_eq_ok hrun
    exact ih (readRow_isRead hrow hread) hrun (readRow_unit hread hrow hunit)

/-- All rows are read in both units if the first unit is the one that is found. -/
theorem Outline.foldlM_reindented (hvalid : unit.IsValid) (hvalid' : unit'.IsValid)
    {rows' : List Row} (h : outline.Reindented unit unit' outline')
    (hread : outline.IsRead symbol rows)
    (hrun : rows'.foldlM (readRow symbol) outline log = .ok next log')
    (hunit : next.unit = some unit) (log₁ : List LogRecord) :
    ∃ next' log₁', (rows'.map (Row.reindent unit unit')).foldlM (readRow symbol) outline' log₁
        = .ok next' log₁' ∧ next.Reindented unit unit' next' := by
  induction rows' generalizing outline outline' rows log log₁ with
  | nil =>
    cases hrun
    exact ⟨outline', log₁, rfl, h⟩
  | cons row rows' ih =>
    obtain ⟨middle, _, hrow, hrun⟩ := Narrated.bind_eq_ok hrun
    have hmiddle := readRow_isRead hrow hread
    -- the unit is not another one before the last row
    have hfits : middle.Fits unit := fun found hfound => by
      have := foldlM_unit hmiddle hrun hfound
      rw [hunit] at this
      exact (Option.some.inj this).symm
    obtain ⟨middle', log₂, hrow', h⟩ :=
      readRow_reindented hvalid hvalid' h hread hrow hfits log₁
    obtain ⟨next', log₁', hrun', hnext⟩ := ih h hmiddle hrun log₂
    refine ⟨next', log₁', ?_, hnext⟩
    rw [List.map_cons, List.foldlM_cons, Narrated.bind_of_ok hrow']
    exact hrun'

end Reading

/-- **Re-indenting does not change the program.**  If a text that can be read is indented in some
unit, the same text in another unit is read as the same program, with the new texts of its lines;
and the other unit is the one that is found. -/
theorem reindentation_keeps_the_program {symbol : List Char} {text : String} {nodes : List Node}
    {unit unit' : IndentUnit} (hparse : Program.parse symbol text = .ok nodes)
    (hunit : Program.unit? symbol text = some unit) (hvalid' : unit'.IsValid) :
    Program.parse symbol (Source.reindent unit unit' text)
        = .ok (nodes.map (Node.mapLines (SourceLine.reindent unit unit')))
      ∧ Program.unit? symbol (Source.reindent unit unit' text) = some unit' := by
  obtain ⟨log, hread⟩ := Program.parse_eq_ok_iff.mp hparse
  obtain ⟨outline, log₁, hfold, hfinish⟩ := Narrated.bind_eq_ok hread
  have hfound : outline.unit = some unit := by
    rw [Program.unit?, hfold] at hunit
    exact hunit
  have hvalid : unit.IsValid :=
    (Outline.foldlM_readRow_isRead hfold (Outline.isRead_empty symbol)).valid unit hfound
  have hempty : Outline.Reindented unit unit' {} {} := ⟨rfl, rfl, .nil⟩
  obtain ⟨outline', log₂, hfold', halike⟩ := Outline.foldlM_reindented hvalid hvalid' hempty
    (Outline.isRead_empty symbol) hfold hfound []
  obtain ⟨nodes', log₃, hfinish', hnodes⟩ := halike.finish.exists_of_ok hfinish log₂
  obtain rfl : nodes' = nodes.map (Node.mapLines (SourceLine.reindent unit unit')) := hnodes
  have hunit' : outline'.unit = outline.unit.map fun _ => unit' := halike.unit
  rw [← Program.rows_reindent hvalid hvalid'] at hfold'
  refine ⟨Program.parse_eq_ok_iff.mpr ⟨log₃, ?_⟩, ?_⟩
  · rw [Program.readRows, Narrated.bind_of_ok hfold']
    exact hfinish'
  · rw [Program.unit?, hfold']
    exact hunit'.trans (by rw [hfound]; rfl)

/-- Two spaces become one tab. -/
theorem reindentation_keeps_the_program_with_tabs :
    let text := "dopóki x < 2 wykonuj\n  jeżeli x to\n    pisz 1\n\n  wpp\n    pisz 2\n"
    let spaces : IndentUnit := ⟨' ', 2⟩
    let tab : IndentUnit := ⟨'\t', 1⟩
    Source.reindent spaces tab text
        = "dopóki x < 2 wykonuj\n\tjeżeli x to\n\t\tpisz 1\n\n\twpp\n\t\tpisz 2\n"
      ∧ ∃ nodes, Program.parse Token.defaultRange text = .ok nodes
        ∧ Program.parse Token.defaultRange (Source.reindent spaces tab text)
          = .ok (nodes.map (Node.mapLines (SourceLine.reindent spaces tab)))
        ∧ Program.unit? Token.defaultRange (Source.reindent spaces tab text) = some tab := by
  intro text spaces tab
  refine ⟨by decide +kernel, ?_⟩
  have hparses : (Program.parse Token.defaultRange text).toOption.isSome = true := by
    decide +kernel
  cases hparse : Program.parse Token.defaultRange text with
  | error e =>
    rw [hparse] at hparses
    cases hparses
  | ok nodes =>
    exact ⟨nodes, rfl, reindentation_keeps_the_program hparse (by decide +kernel)
      (.inr ⟨rfl, Nat.le_refl 1⟩)⟩

end Tablica
