import Tablica.Proofs.Diagnostic.Echo
import Tablica.Proofs.Text.Trimming

/-!
# The mark under a line

A mark is a row of its own below the line in question, so it shows its place by standing there in
the right columns.  Columns of the text and columns of the row are not the same: a tab is one
character of the line and four columns of what is listed.  The line is widened character by
character, however, so a line that is cut in three is listed in three:

    2  | before      marked      after
       | ············^~~~~~~~~~~~

and the two widened parts are all that the row has to be counted by.  Both rows stand behind margins
of one width, for what is blank in the one is the number of the line in the other.

The mark of an error of a running program takes up what a statement is without the white space at
its ends.  There it matters that something is left: a statement is read from a token, and no token
starts with white space, unless the range symbol does, which starts no statement.

* `Diagnostic.markRow` — the row; `Diagnostic.Prints` — that it is printed below its line;
* `Diagnostic.Underlines` — that it marks a part of the line;
* `Diagnostic.underlines`, `Diagnostic.prints_behind` — marks in a line and behind its end;
* `Token.isWhiteSpace_eq_false_of_readToken`, `readForm_starts` — how tokens and statements start;
* `Program.exists_visible_of_parse` — the lines of statements are not blank;
* `marks_stand_under_their_characters` — marks cover what they are for.
-/

namespace Tablica

open Text

/-! ### What is printed -/

theorem pushn_eq_append (s : String) (c : Char) (n : Nat) :
    s.pushn c n = s ++ String.ofList (List.replicate n c) := by
  induction n with
  | zero => simp [String.pushn, Nat.repeat]
  | succ n ih =>
    rw [String.pushn_eq_repeat_push] at ih ⊢
    apply String.toList_injective
    rw [Nat.repeat, ih, List.replicate_succ']
    simp

namespace Diagnostic

/-- A caret and tildes that take up a number of columns behind an offset. -/
def markRow (offset width : Nat) : List Char :=
  List.replicate offset ' ' ++ '^' :: List.replicate (width - 1) '~'

/-- The listed line in question. -/
def lineIn (d : Diagnostic) (text : String) : List Char :=
  ((Source.listedLines text)[d.position.line - 1]?).getD []

/-- What stands left of a listed line, without colours. -/
def margin (d : Diagnostic) (isInQuestion : Bool) : String :=
  (gutter d.position.line isInQuestion).render false

/-- What follows the mark in its row. -/
def hinted (d : Diagnostic) : String :=
  match d.hint with
  | some hint => s!"hint: {hint}"
  | none => ""

/-- Without colours a diagnostic prints the line in question as a row of single columns, and the
given row directly below it, behind margins of the same width. -/
structure Prints (d : Diagnostic) (file text : String) (row : List Char) : Prop where
  starts : ∃ lead, (d.above text).render false = lead ++ "\n"
  printed : ∃ rest, (d.shown file text).render false = (d.above text).render false
    ++ (d.margin true ++ String.ofList (d.primary text) ++ "\n")
    ++ (d.margin false ++ String.ofList row ++ " " ++ d.hinted ++ "\n") ++ rest
  aligned : (d.margin true).length = (d.margin false).length
  columns : ∀ c ∈ d.primary text, c ≠ '\n' ∧ c ≠ '\t'

/-- The mark of a diagnostic covers the columns of a part of the line in question, or one column
where that part is empty. -/
structure Underlines (d : Diagnostic) (file text : String) (before marked after : List Char) :
    Prop where
  primary : d.primary text = widen before ++ (widen marked ++ widen after)
  prints : d.Prints file text (markRow (widen before).length (max (widen marked).length 1))

variable {d : Diagnostic} {text : String}

theorem render_plain (s : String) : (StyledText.plain s).render false = s := by
  simp [StyledText.plain, StyledText.render, StyledText.renderPiece]

theorem render_styled (style : Style) (s : String) :
    (StyledText.styled style s).render false = s := by
  simp [StyledText.styled, StyledText.render, StyledText.renderPiece]

/-- The margins of the line in question and of any other row are of the same width. -/
theorem length_margin : (d.margin true).length = (d.margin false).length := by
  simp [margin, gutter, StyledText.render_append, render_plain, render_styled]

theorem neighbour_eq (number : Nat) (line : Option (List Char)) :
    neighbour number line = [] ∨ ∃ lead, (neighbour number line).render false = lead ++ "\n" := by
  unfold neighbour
  split
  · split
    · exact .inl rfl
    · rename_i line _
      exact .inr ⟨(gutter number false).render false ++ String.ofList (widen line),
        by rw [listed, StyledText.render_append, render_plain, String.append_assoc]⟩
  · exact .inl rfl

/-- The line in question starts a row of its own. -/
theorem exists_lead (d : Diagnostic) (text : String) :
    ∃ lead, (d.above text).render false = lead ++ "\n" := by
  simp only [above]
  generalize hline : (if d.position.line - 1 = 0 then none
    else (Source.listedLines text)[d.position.line - 1 - 1]?) = line
  rcases neighbour_eq d.position.line line with hnone | ⟨lead, hlead⟩
  · exact ⟨_, by rw [hnone, List.append_nil, StyledText.render_append, render_plain]⟩
  · exact ⟨_, by rw [StyledText.render_append, hlead, ← String.append_assoc]⟩

/-- A widened line is made of the characters of the line, without the tabs, and of spaces. -/
theorem mem_widen {c : Char} {cs : List Char} (h : c ∈ widen cs) :
    c ≠ '\t' ∧ (c = ' ' ∨ c ∈ cs) := by
  obtain ⟨c', hc', hc⟩ := List.mem_flatMap.mp h
  unfold widenChar at hc
  split at hc
  · obtain rfl := List.eq_of_mem_replicate hc
    exact ⟨by decide, .inl rfl⟩
  · rename_i hne
    obtain rfl := List.mem_singleton.mp hc
    exact ⟨hne, .inr hc'⟩

/-- No listed line is broken. -/
theorem lineFeed_not_mem_lineIn (d : Diagnostic) (text : String) : '\n' ∉ d.lineIn text := by
  rw [lineIn, Source.getD_listedLines, List.mem_append, not_or]
  constructor
  · cases hline : (Source.lines text)[d.position.line - 1]? with
    | none => exact List.not_mem_nil
    | some line => exact Source.not_mem_of_mem_lines (List.mem_of_getElem? hline)
  · unfold Source.strayReturn
    split <;> decide

theorem ofList_markRow (offset width : Nat) :
    String.ofList (markRow offset width)
      = "".pushn ' ' offset ++ "^" ++ "".pushn '~' (width - 1) := by
  simp [markRow, pushn_eq_append, String.append_assoc]

/-- The mark, the hint and the margin in front of both. -/
theorem render_indicator (d : Diagnostic) (line : List Char) :
    (d.indicator line).render false = d.margin false
      ++ String.ofList (markRow (mark line d.position.column d.width).1
        (mark line d.position.column d.width).2) ++ " " ++ d.hinted ++ "\n" := by
  cases hhint : d.hint <;>
    simp only [indicator, hinted, hhint, StyledText.render_append, render_plain, render_styled,
      ofList_markRow, margin, String.append_assoc]

/-- **The row below the line in question** is its mark. -/
theorem prints (d : Diagnostic) (file text : String) :
    d.Prints file text (markRow (mark (d.lineIn text) d.position.column d.width).1
      (mark (d.lineIn text) d.position.column d.width).2) where
  starts := exists_lead d text
  printed := by
    let rest := neighbour d.position.line (Source.listedLines text)[d.position.line - 1 + 1]?
      ++ .plain s!"\nIn {file}:{d.position.shown}\n\n"
    have hbelow : d.below file text = d.indicator (d.lineIn text) ++ rest := by
      rw [below, List.append_assoc, lineIn]
    refine ⟨rest.render false, ?_⟩
    rw [shown_eq, hbelow, StyledText.render_append, StyledText.render_append,
      StyledText.render_append _ (gutter _ _), render_plain,
      StyledText.render_append _ (indicator _ _), render_indicator]
    simp only [margin, String.append_assoc]
  aligned := length_margin
  columns c hc := by
    obtain ⟨htab, hspace | hmem⟩ := mem_widen hc
    · exact ⟨hspace ▸ by decide, htab⟩
    · exact ⟨fun h => lineFeed_not_mem_lineIn d text (h ▸ hmem), htab⟩

/-! ### Marks in a line and behind it -/

/-- **A mark in a line** covers the characters from its column on: as many as it is wide or, where
the line ends before that, all that are left. -/
theorem underlines {before marked after : List Char} (file : String)
    (hline : d.lineIn text = before ++ (marked ++ after))
    (hcolumn : d.position.column = before.length + 1)
    (hwidth : marked.length = d.width ∨ marked.length < d.width ∧ after = []) :
    d.Underlines file text before marked after := by
  have htaken : (marked ++ after).take d.width = marked := by
    rcases hwidth with hwidth | ⟨hshort, rfl⟩
    · exact List.take_left' hwidth
    · rw [List.append_nil, List.take_of_length_le (Nat.le_of_lt hshort)]
  have hmark : mark (d.lineIn text) d.position.column d.width
      = ((widen before).length, max (widen marked).length 1) := by
    have hinside : before.length - (before ++ (marked ++ after)).length = 0 := by simp
    rw [mark, hline, hcolumn, Nat.add_sub_cancel, List.take_left, List.drop_left, htaken, hinside,
      Nat.add_zero, length_widen, length_widen]
  have hprints := prints d file text
  rw [hmark] at hprints
  exact ⟨by rw [primary, ← lineIn, hline, widen_append, widen_append], hprints⟩

/-- **A mark behind a line** is one column wide, and as far from the end of the line as its column
is. -/
theorem prints_behind (file : String) {k : Nat}
    (hcolumn : d.position.column = (d.lineIn text).length + 1 + k) :
    d.Prints file text (markRow ((d.primary text).length + k) 1) := by
  have hbefore : d.position.column - 1 = (d.lineIn text).length + k := by omega
  have hmark : mark (d.lineIn text) d.position.column d.width
      = ((d.primary text).length + k, 1) := by
    rw [mark, hbefore, List.take_of_length_le (Nat.le_add_right _ _),
      List.drop_of_length_le (Nat.le_add_right _ _), List.take_nil, Nat.add_sub_cancel_left,
      ← length_widen]
    rfl
  have hprints := prints d file text
  rwa [hmark] at hprints

end Diagnostic

/-! ### Statements are visible -/

/-- The code points of white space. -/
theorem Text.toNat_mem_of_isWhiteSpace {c : Char} (h : isWhiteSpace c = true) :
    c.toNat ∈ [9, 10, 11, 12, 13, 32, 133, 160, 5760, 8192, 8193, 8194, 8195, 8196, 8197, 8198,
      8199, 8200, 8201, 8202, 8232, 8233, 8239, 8287, 12288] := by
  simp only [isWhiteSpace, Bool.or_eq_true, Bool.and_eq_true, decide_eq_true_eq, beq_iff_eq] at h
  simp only [List.mem_cons, List.not_mem_nil, or_false]
  omega

/-- No white space starts a punctuator, a text, a number, an operator or a word. -/
theorem Token.startsNothing_of_isWhiteSpace {c : Char} (h : isWhiteSpace c = true) :
    punctuator? c = none ∧ c ≠ '"' ∧ c ≠ '\'' ∧ c.isDigit = false ∧ isOperatorChar c = false
      ∧ isLetter c = false ∧ c ≠ '_' := by
  have hcode := toNat_mem_of_isWhiteSpace h
  rw [← Char.ofNat_toNat c]
  generalize c.toNat = code at hcode ⊢
  revert code
  decide +kernel

/-- A kind whose tokens are visible: any but the range symbol, which may be spelled with white
space, and the end of the line. -/
def TokenKind.IsVisible : TokenKind → Prop
  | range _ | endOfLine => False
  | _ => True

/-- **Visible tokens** do not start with white space. -/
theorem Token.isWhiteSpace_eq_false_of_readToken {symbol rest after : List Char} {c : Char}
    {kind : TokenKind} (h : readToken symbol (c :: rest) = (.ok kind, after))
    (hkind : kind.IsVisible) : isWhiteSpace c = false := by
  apply Bool.eq_false_iff.mpr
  intro hspace
  obtain ⟨hpunctuator, hquote, hquote', hdigit, hoperator, hletter, hunderscore⟩ :=
    startsNothing_of_isWhiteSpace hspace
  rw [readToken] at h
  split at h
  · cases h
    exact hkind
  · split at h
    · cases h
      exact hkind
    · simp [hpunctuator, hquote, hquote', hdigit, hoperator, hletter, hunderscore] at h

/-- Characters that start with a visible token are not all white space. -/
theorem Token.exists_visible_of_lexemesFrom {symbol cs : List Char} {number column : Nat}
    {isLast : Bool} {token : Token} {next : Option Char} {items : List Lexeme}
    (h : (lexemesFrom symbol number isLast column cs).items = .token token next :: items)
    (hkind : token.kind.IsVisible) : ∃ c ∈ cs, isWhiteSpace c = false := by
  revert h
  fun_cases lexemesFrom symbol number isLast column cs with
  | case1 | case3 | case4 =>
    intro h
    cases h
  | case2 c rest hdrop position after _ _ kind hread =>
    intro h
    obtain ⟨htoken, -⟩ := List.cons.inj h
    obtain ⟨rfl, -⟩ := Lexeme.token.inj htoken
    exact ⟨c, (List.dropWhile_sublist _).mem (hdrop ▸ List.mem_cons_self),
      isWhiteSpace_eq_false_of_readToken hread hkind⟩

/-- An expression starts with a visible token: without an operand it cannot be over. -/
theorem readExpression_starts {line : SourceLine} {ending : Ending} {items : List Lexeme}
    {result : Node × Stop} (h : (readExpression line ending items).1 = .ok result) :
    ∃ token next rest, items = .token token next :: rest ∧ token.kind.IsVisible := by
  cases items with
  | nil =>
    obtain ⟨stop, -, hfinish⟩ := Except.bind_eq_ok.mp h
    cases hfinish
  | cons lexeme rest =>
    cases lexeme with
    | fault => cases h
    | token token next =>
      obtain ⟨kind, position⟩ := token
      refine ⟨_, _, _, rfl, ?_⟩
      cases kind with
      | range | endOfLine => cases h
      | _ => trivial

/-- **A statement starts with a visible token.** -/
theorem readForm_starts {line : SourceLine} {inRoutine : Bool} {lexemes : Lexemes} {form : Form}
    (h : readForm line inRoutine lexemes = .ok form) :
    ∃ token next rest, lexemes.items = .token token next :: rest ∧ token.kind.IsVisible := by
  unfold readForm at h
  split at h
  · rename_i hitems
    exact ⟨_, _, _, hitems, trivial⟩
  · rename_i hitems
    exact ⟨_, _, _, hitems, trivial⟩
  · obtain ⟨node, hnode, -⟩ := Except.do_eq_ok.mp h
    obtain ⟨result, hread, -⟩ := Except.do_eq_ok.mp hnode
    exact readExpression_starts hread

/-- **The lines of the nodes of a program** are not all white space. -/
theorem Program.exists_visible_of_parse {symbol : List Char} {text : String} {nodes : List Node}
    (h : parse symbol text = .ok nodes) : ∀ line ∈ Node.sourceLinesOfList nodes,
      ∃ c ∈ line.text.toList, isWhiteSpace c = false := by
  intro line hmem
  obtain ⟨unit, -, hreading⟩ := reading_of_parse h
  obtain ⟨row, -, rfl, inRoutine, depth, form, hform⟩ := hreading.exists_row hmem
  obtain ⟨token, next, rest, hitems, hkind⟩ := readForm_starts hform
  obtain ⟨c, hc, hvisible⟩ := Token.exists_visible_of_lexemesFrom hitems hkind
  exact ⟨c, List.mem_of_mem_drop hc, hvisible⟩

/-! ### Marks of errors -/

/-- **Marks stand under their characters.**  A mark in a line covers, in the line as it is listed,
the characters from its column on: as many as it is wide, or all that are left of the line, or one
column where none is left.  Behind the end of the line, it stands as many columns further as its
column says.  And the mark of an error with which a run ends covers the statement without the white
space at its ends. -/
theorem marks_stand_under_their_characters {σ : Type} [Console σ] (file text : String) :
    (∀ (d : Diagnostic) (before marked after : List Char),
        d.lineIn text = before ++ (marked ++ after) → d.position.column = before.length + 1 →
          marked.length = d.width ∨ marked.length < d.width ∧ after = [] →
            d.Underlines file text before marked after)
      ∧ (∀ (d : Diagnostic) (k : Nat), d.position.column = (d.lineIn text).length + 1 + k →
          d.Prints file text (Diagnostic.markRow ((d.primary text).length + k) 1))
      ∧ ∀ (symbol : List Char) (nodes : List Node), Program.parse symbol text = .ok nodes →
        ∀ (console : σ) (fuel : Nat) (error : RuntimeError),
          (run fuel nodes { console }).1 = .failed (.runtime error) →
            trim error.line.text.toList ≠ []
              ∧ ∃ before after, error.line.text.toList
                    = before ++ (trim error.line.text.toList ++ after)
                ∧ (∀ c ∈ before ++ after, isWhiteSpace c = true)
                ∧ (Diagnostic.ofRuntimeError error).Underlines file text before
                  (trim error.line.text.toList)
                  (after ++ Source.strayReturn text error.line.number) := by
  refine ⟨fun d before marked after hline hcolumn hwidth =>
      Diagnostic.underlines file hline hcolumn hwidth,
    fun d k hcolumn => Diagnostic.prints_behind file hcolumn,
    fun symbol nodes hnodes console fuel error herror => ?_⟩
  have hline := (run_holdsLines (Program.hasLine_of_parse hnodes) console fuel).1 error herror
  obtain ⟨c, hc, hvisible⟩ :=
    (run_holdsLines (Program.exists_visible_of_parse hnodes) console fuel).1 error herror
  obtain ⟨after, hcut, hafter⟩ := exists_after_trim error.line.text.toList
  have hspace : ∀ c ∈ error.line.text.toList.takeWhile isWhiteSpace ++ after,
      isWhiteSpace c = true := fun c hc =>
    (List.mem_append.mp hc).elim List.mem_takeWhile_imp (hafter c)
  have hne : trim error.line.text.toList ≠ [] := by
    intro hnone
    rw [hcut, hnone, List.nil_append] at hc
    exact Bool.false_ne_true (hvisible.symm.trans (hspace c hc))
  have hlisted : (Diagnostic.ofRuntimeError error).lineIn text
      = error.line.text.toList.takeWhile isWhiteSpace ++ (trim error.line.text.toList
        ++ (after ++ Source.strayReturn text error.line.number)) := by
    rw [Diagnostic.lineIn, Diagnostic.ofRuntimeError, hline.getD_listedLines]
    conv_lhs => rw [hcut]
    rw [List.append_assoc, List.append_assoc]
  have hwidth : (trim error.line.text.toList).length
      = (Diagnostic.ofRuntimeError error).width :=
    (Nat.max_eq_left (List.length_pos_iff.mpr hne)).symm
  exact ⟨hne, _, after, hcut, hspace, Diagnostic.underlines file hlisted rfl (.inl hwidth)⟩

/-- A mark over a tab behind a tab, a mark behind a line, and the mark of a failing statement with
white space at both ends. -/
theorem marks_stand_under_their_characters_behind_tabs :
    let failing := "jeżeli prawda to\n\tpisz\t1 - 'a' \n"
    let inside : Diagnostic := { message := "", position := ⟨2, 3⟩, width := 5 }
    let behind : Diagnostic := { message := "", position := ⟨1, 19⟩ }
    inside.Underlines "p" failing "\tp".toList "isz\t1".toList " - 'a' ".toList
      ∧ behind.Prints "p" failing (Diagnostic.markRow 18 1)
      ∧ ∃ nodes error, Program.parse Token.defaultRange failing = .ok nodes
        ∧ (run 10 nodes ({ console := {} } : Machine Transcript)).1 = .failed (.runtime error)
        ∧ trim error.line.text.toList = "pisz\t1 - 'a'".toList
        ∧ ∃ before after, (Diagnostic.ofRuntimeError error).Underlines "p" failing before
          "pisz\t1 - 'a'".toList after := by
  intro failing inside behind
  obtain ⟨hinside, hbehind, hfailed⟩ :=
    marks_stand_under_their_characters (σ := Transcript) "p" failing
  refine ⟨hinside inside _ _ _ (by decide +kernel) rfl (.inl rfl), ?_, ?_⟩
  · have hlength : (behind.lineIn failing).length = 16
        ∧ (behind.primary failing).length = 16 := by decide +kernel
    have hprints := hbehind behind 2 (by rw [hlength.1])
    rwa [hlength.2] at hprints
  · let error : RuntimeError :=
      ⟨.typeMismatch .subtract .number .text, ⟨2, "\tpisz\t1 - 'a' "⟩⟩
    have hcomputed : (Program.parse Token.defaultRange failing).toOption.map
        (fun nodes => (run 10 nodes ({ console := {} } : Machine Transcript)).1)
          = some (.failed (.runtime error)) := by decide +kernel
    have htrimmed : trim error.line.text.toList = "pisz\t1 - 'a'".toList := by decide +kernel
    obtain ⟨nodes, hnodes, hverdict⟩ := Option.map_eq_some_iff.mp hcomputed
    have hparse := Program.parse_eq_ok hnodes
    obtain ⟨-, before, after, -, -, hunderlines⟩ :=
      hfailed Token.defaultRange nodes hparse {} 10 error hverdict
    rw [htrimmed] at hunderlines
    exact ⟨nodes, error, hparse, hverdict, htrimmed, before, _, hunderlines⟩

end Tablica
