import Tablica.Proofs.Syntax.Composition
import Tablica.Proofs.Syntax.Positions

/-!
# Errors do not look ahead

The reading of a text may be stopped behind each of its lines.

    rows 1 … k          a fault, or an outline
    rows k + 1 …        from this outline: the nodes of the program, or a fault

Where more lines follow, it is not told from the first rows which ones they are, so whatever these
rows come to, they come to in every text that begins with them.  A fault of a row behind them lies
behind them as well.  The only fault that lies further up than the row it is met at is an empty
block: it is the rest of the text that leaves a block empty.

* `Program.readOn` — reading the rest of the rows;
* `Program.exists_rows_behind` — the rows of the first lines, and those behind them;
* `Fault.IsBehind`, `Program.readOn_ends` — the faults of the rest;
* `Program.readRows_eq_error` — the faults of the first rows;
* `Program.parse_eq_error_iff` — the error of a text and the fault of its rows;
* `errors_depend_on_the_lines_before` — the law.
-/

namespace Tablica

open Narrated (Ends)

/-! ### The rows behind the first lines -/

theorem Row.le_of_mem_ofLines {number : Nat} {lines : List (List Char)} {row : Row}
    (h : row ∈ ofLines number lines) : number ≤ row.line.number := by
  induction lines generalizing number with
  | nil => cases h
  | cons line lines ih =>
    rcases List.mem_cons.mp h with rfl | h
    · exact Nat.le_refl _
    · exact Nat.le_of_succ_le (ih h)

/-- The rows of lines that others follow. -/
def Row.ofFollowedLines (lines : List (List Char)) : List Row :=
  (ofLines 1 lines).map fun row => ⟨row.line, false⟩

namespace Program

variable {symbol : List Char} {text : String}

/-- **The rows of a text** are those of its first lines, and rows behind them. -/
theorem exists_rows_behind {k : Nat} (h : k < (Source.lines text).length) :
    ∃ behind, rows text = Row.ofFollowedLines ((Source.lines text).take k) ++ behind
      ∧ ∀ row ∈ behind, k < row.line.number := by
  have hrest : (Source.lines text).drop k ≠ [] := by
    rw [ne_eq, List.drop_eq_nil_iff]
    omega
  have hlength : ((Source.lines text).take k).length = k := List.length_take_of_le (Nat.le_of_lt h)
  have hrows := Row.ofLines_append 1 ((Source.lines text).take k) hrest
  rw [List.take_append_drop, hlength] at hrows
  refine ⟨(Row.ofLines (k + 1) ((Source.lines text).drop k)).filter
    fun row => !(row.isLast && row.line.text.isEmpty), ?_, fun row hrow => ?_⟩
  · rw [rows, Row.ofText, hrows, List.filter_append]
    refine congrArg (· ++ _) (List.filter_eq_self.mpr fun row hrow => ?_)
    -- none of the first lines is the last one
    obtain ⟨row, -, rfl⟩ := List.mem_map.mp hrow
    rfl
  · exact Row.le_of_mem_ofLines (List.mem_of_mem_filter hrow)

/-! ### Reading on -/

/-- Reads the rest of the rows into the nodes of the program. -/
def readOn (symbol : List Char) (rows : List Row) (outline : Outline) : Narrated (List Node) := do
  let outline ← rows.foldlM (Outline.readRow symbol) outline
  let outline ← outline.close 0
  Narrated.note (.parsed outline.nodes.reverse.length)
  return outline.nodes.reverse

theorem readRows_append (rows rows' : List Row) : readRows symbol (rows ++ rows')
    = rows.foldlM (Outline.readRow symbol) {} >>= readOn symbol rows' := by
  unfold readRows readOn
  rw [List.foldlM_append, bind_assoc]

/-- A fault behind the first lines, or an empty block, which may begin among them. -/
def Fault.IsBehind (k : Nat) (fault : Fault) : Prop :=
  fault.kind = .emptyBlock ∨ k < fault.position.line

/-- **The faults of the rest** lie behind the first lines. -/
theorem readOn_ends {k : Nat} {rows : List Row} (h : ∀ row ∈ rows, k < row.line.number)
    (outline : Outline) : Ends (Fault.IsBehind k) (fun _ => True) (readOn symbol rows outline) := by
  have hstarts : ∀ outline : Outline, outline.StartsIn (Fault.IsBehind k) :=
    fun _ _ _ => .inl rfl
  have hrows : Ends (Fault.IsBehind k) (Outline.StartsIn (Fault.IsBehind k))
      (rows.foldlM (Outline.readRow symbol) outline) :=
    Outline.foldlM_ends (fun row hrow _ _ _ _ => .inr (h row hrow)) (fun _ _ => .inl rfl)
      (hstarts outline)
  exact hrows.bind fun outline _ => (Outline.close_ends 0 (hstarts outline)).bind fun _ _ =>
    (Ends.note _).bind fun _ _ => .pure trivial

/-- **A fault of the first rows** is met whatever rows follow. -/
theorem readRows_eq_error {k : Nat} {rows behind : List Row} {fault : Fault}
    {log : List LogRecord} (hbehind : ∀ row ∈ behind, k < row.line.number)
    (hfault : readRows symbol (rows ++ behind) [] = .error fault log)
    (hkind : fault.kind ≠ .emptyBlock) (hline : fault.position.line ≤ k) (behind' : List Row) :
    readRows symbol (rows ++ behind') [] = .error fault log := by
  rw [readRows_append] at hfault ⊢
  simp only [Bind.bind, EStateM.bind] at hfault ⊢
  cases hrun : rows.foldlM (Outline.readRow symbol) {} [] with
  | error fault' log' =>
    rw [hrun] at hfault
    exact hfault
  | ok outline log' =>
    rw [hrun] at hfault
    have hends : Ends (Fault.IsBehind k) (fun _ => True) (readOn symbol behind outline) :=
      readOn_ends hbehind outline
    replace hends := hends log'
    simp only at hfault
    rw [hfault] at hends
    rcases hends with hempty | hlater
    · exact absurd hempty hkind
    · exact absurd hlater (Nat.not_lt.mpr hline)

/-- The error of a text is the fault of its rows. -/
theorem parse_eq_error_iff {e : SyntaxError} : parse symbol text = .error e
    ↔ ∃ fault log, readRows symbol (rows text) [] = .error fault log
      ∧ e = .ofFault (Source.lines text) fault := by
  unfold parse read EStateM.run
  cases readRows symbol (rows text) [] with
  | ok nodes log => exact ⟨nofun, fun ⟨_, _, hfault, _⟩ => nomatch hfault⟩
  | error fault log =>
    constructor
    · rintro ⟨⟩
      exact ⟨fault, log, rfl, rfl⟩
    · rintro ⟨_, _, ⟨⟩, rfl⟩
      rfl

end Program

theorem Source.lineAt_eq_of_take {lines lines' : List (List Char)} {k : Nat} (hk : 1 ≤ k)
    (h : lines.take k = lines'.take k) : lineAt lines k = lineAt lines' k := by
  have hline : ∀ lines : List (List Char), lines[k - 1]? = (lines.take k)[k - 1]? := fun lines =>
    (List.getElem?_take_of_lt (by omega)).symm
  rw [lineAt, lineAt, hline lines, hline lines', h]

/-- **Errors do not look ahead.**  Of two texts that begin with the same lines and both go on behind
them, let the first one be wrong on the last of these lines, otherwise than by an empty block.  Then
the second one has the same error, at the same position and with the same line, and all that was
logged before is the same. -/
theorem errors_depend_on_the_lines_before {symbol : List Char} {text text' : String}
    {e : SyntaxError} (h : Program.parse symbol text = .error e) (hkind : e.kind ≠ .emptyBlock)
    (hlines : (Source.lines text).take e.position.line
      = (Source.lines text').take e.position.line)
    (hmore : e.position.line < (Source.lines text).length)
    (hmore' : e.position.line < (Source.lines text').length) :
    Program.parse symbol text' = .error e
      ∧ (Program.read symbol text').2 = (Program.read symbol text).2 := by
  have hpositive := (Program.hasPosition_of_parse h).1.line
  obtain ⟨fault, log, hfault, rfl⟩ := Program.parse_eq_error_iff.mp h
  obtain ⟨behind, hrows, hbehind⟩ := Program.exists_rows_behind hmore
  obtain ⟨behind', hrows', -⟩ := Program.exists_rows_behind hmore'
  rw [← hlines] at hrows'
  have hfault' : Program.readRows symbol (Program.rows text') [] = .error fault log := by
    rw [hrows']
    exact Program.readRows_eq_error hbehind (hrows ▸ hfault) hkind (Nat.le_refl _) behind'
  have hsource := Source.lineAt_eq_of_take hpositive hlines
  refine ⟨Program.parse_eq_error_iff.mpr ⟨fault, log, hfault', ?_⟩, ?_⟩
  · rw [SyntaxError.ofFault, SyntaxError.ofFault]
    exact congrArg (SyntaxError.mk _ _) hsource
  · simp only [Program.read, EStateM.run, hfault, hfault']

/-- A character that no token starts with, before two different rests. -/
theorem errors_depend_on_the_lines_before_wpp :
    let text := "jeżeli x to\n\tpisz ?\nwpp\n\tpisz 1\n"
    let text' := "jeżeli x to\n\tpisz ?\n )\n"
    ∃ e, Program.parse Token.defaultRange text = .error e ∧ e.kind = .invalidCharacter '?'
      ∧ Program.parse Token.defaultRange text' = .error e := by
  intro text text'
  let error : SyntaxError := ⟨.invalidCharacter '?', ⟨2, 7⟩, ⟨2, "\tpisz ?"⟩⟩
  have hcomputed : (match Program.parse Token.defaultRange text with
      | .ok _ => false
      | .error e => e = error) = true := by decide +kernel
  cases hparse : Program.parse Token.defaultRange text with
  | ok nodes =>
    rw [hparse] at hcomputed
    cases hcomputed
  | error e =>
    rw [hparse] at hcomputed
    obtain rfl : e = error := of_decide_eq_true hcomputed
    refine ⟨error, rfl, rfl, ?_⟩
    exact (errors_depend_on_the_lines_before hparse (by decide) (by decide +kernel)
      (by decide +kernel) (by decide +kernel)).1

end Tablica
