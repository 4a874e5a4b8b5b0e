import Mathlib.Data.List.InsertIdx
import Mathlib.Data.List.TakeWhile
import Tablica.Token.Lexeme

/-!
# Texts with other lines

A text is edited line by line.  What stands between two line feeds is a **piece** of the text, which
is a line and perhaps the carriage return that belongs to its ending.

* `Source.pieces`, `Source.ofPieces` — the pieces of a text, and the text of pieces;
* `Source.mapLines`, `Source.insertLine` — a text with other lines, or with one line more; the
  endings of its lines are kept;
* `Source.holdsNothing`, `Source.holdsNothing_iff` — the lines that are blank but for a comment;
* `Source.lines_mapLines`, `Source.lines_insertLine` — the lines of the new texts;
* `Source.Breaks`, `Source.lines_append` — one text after another, and its lines;
* `Row.ofLines_map` — the rows of other lines.
-/

namespace Tablica.Source

/-- Whether a line consists of blanks and perhaps a comment. -/
def holdsNothing (line : List Char) : Bool :=
  match line.dropWhile Text.isBlank with
  | [] => true
  | c :: _ => c == '#'

/-- A line of spaces and tabs, and then of a comment or nothing. -/
theorem holdsNothing_iff {line : List Char} : holdsNothing line = true ↔
    ∃ blanks rest, line = blanks ++ rest ∧ (∀ c ∈ blanks, c = ' ' ∨ c = '\t')
      ∧ (rest = [] ∨ rest.head? = some '#') := by
  have hblank : ∀ c, Text.isBlank c = true ↔ c = ' ' ∨ c = '\t' := by simp [Text.isBlank]
  constructor
  · intro h
    refine ⟨line.takeWhile Text.isBlank, line.dropWhile Text.isBlank,
      List.takeWhile_append_dropWhile.symm,
      fun c hc => (hblank c).mp (List.mem_takeWhile_imp hc), ?_⟩
    unfold holdsNothing at h
    split at h
    · rename_i hdrop
      exact .inl hdrop
    · rename_i c rest hdrop
      rw [hdrop, List.head?_cons, eq_of_beq h]
      exact .inr rfl
  · rintro ⟨blanks, rest, rfl, hblanks, hrest⟩
    rw [holdsNothing, List.dropWhile_append_of_pos fun c hc => (hblank c).mpr (hblanks c hc)]
    rcases hrest with rfl | hrest
    · rfl
    · cases rest with
      | nil => rfl
      | cons c rest =>
        obtain rfl : c = '#' := Option.some.inj hrest
        rfl

/-! ### Pieces -/

/-- What stands between the line feeds of a text. -/
def pieces (text : String) : List (List Char) :=
  splitAtLineFeeds text.toList

/-- The text of pieces, with a line feed between two. -/
def ofPieces (pieces : List (List Char)) : String :=
  String.ofList (['\n'].intercalate pieces)

theorem splitAtLineFeeds_eq_splitOn (cs : List Char) : splitAtLineFeeds cs = cs.splitOn '\n' := by
  induction cs with
  | nil => rfl
  | cons c cs ih =>
    rw [splitAtLineFeeds, List.splitOn_cons_eq_if_modifyHead, ← ih]
    split
    · rename_i hfeed
      rw [if_pos (by simpa using hfeed)]
    · rename_i hfeed
      rw [if_neg (by simpa using hfeed)]
      cases hsplit : splitAtLineFeeds cs with
      | nil => exact absurd hsplit (splitAtLineFeeds_ne_nil cs)
      | cons => rfl

theorem pieces_ofPieces {pieces' : List (List Char)} (hne : pieces' ≠ [])
    (hpieces : ∀ piece ∈ pieces', '\n' ∉ piece) : pieces (ofPieces pieces') = pieces' := by
  rw [pieces, ofPieces, String.toList_ofList, splitAtLineFeeds_eq_splitOn,
    List.splitOn_intercalate _ hpieces hne]

/-- The pieces of a text make the text. -/
theorem ofPieces_pieces (text : String) : ofPieces (pieces text) = text := by
  rw [ofPieces, pieces, splitAtLineFeeds_eq_splitOn, List.intercalate_splitOn, String.ofList_toList]

theorem not_mem_of_mem_pieces {text : String} {piece : List Char} (h : piece ∈ pieces text) :
    '\n' ∉ piece := by
  unfold pieces at h
  generalize text.toList = cs at h
  induction cs generalizing piece with
  | nil =>
    obtain rfl := List.mem_singleton.mp h
    exact List.not_mem_nil
  | cons c cs ih =>
    rw [splitAtLineFeeds] at h
    split at h
    · rcases List.mem_cons.mp h with rfl | h
      · exact List.not_mem_nil
      · exact ih h
    · rename_i hfeed
      split at h
      · obtain rfl := List.mem_singleton.mp h
        exact List.mem_singleton.not.mpr (Ne.symm hfeed)
      · rename_i line rest hsplit
        rw [hsplit] at ih
        rcases List.mem_cons.mp h with rfl | h
        · exact fun hmem => (List.mem_cons.mp hmem).elim (fun heq => hfeed heq.symm)
            (ih List.mem_cons_self)
        · exact ih (List.mem_cons_of_mem _ h)

/-- The last piece of a text is what follows its last line feed.  A carriage return at the end of the
text belongs to it. -/
theorem exists_last_piece (cs : List Char) :
    ∃ pieces last before, splitAtLineFeeds cs = pieces ++ [last]
      ∧ splitAtLineFeeds (cs ++ ['\r']) = pieces ++ [last ++ ['\r']] ∧ cs = before ++ last
      ∧ (pieces = [] ∧ before = [] ∨ pieces ≠ [] ∧ before.getLast? = some '\n') := by
  induction cs with
  | nil => exact ⟨[], [], [], rfl, rfl, rfl, .inl ⟨rfl, rfl⟩⟩
  | cons c cs ih =>
    obtain ⟨pieces, last, before, hsplit, hreturn, hcs, hfirst | ⟨hne, hbefore⟩⟩ := ih
    · obtain ⟨rfl, rfl⟩ := hfirst
      rw [List.cons_append, splitAtLineFeeds, splitAtLineFeeds, hsplit, hreturn]
      split
      · rename_i hfeed
        exact ⟨[[]], last, [c], rfl, rfl, by rw [hcs]; rfl, .inr ⟨List.cons_ne_nil _ _, by rw [hfeed]; rfl⟩⟩
      · exact ⟨[], c :: last, [], rfl, rfl, by rw [hcs]; rfl, .inl ⟨rfl, rfl⟩⟩
    · have hends : (c :: before).getLast? = some '\n' := by
        rw [List.getLast?_cons_of_ne_nil (by rintro rfl; cases hbefore), hbefore]
      obtain ⟨piece, pieces, rfl⟩ := List.exists_cons_of_ne_nil hne
      rw [List.cons_append, splitAtLineFeeds, splitAtLineFeeds, hsplit, hreturn, hcs]
      split
      · exact ⟨[] :: piece :: pieces, last, c :: before, rfl, rfl, rfl, .inr ⟨List.cons_ne_nil _ _, hends⟩⟩
      · exact ⟨(c :: piece) :: pieces, last, c :: before, rfl, rfl, rfl, .inr ⟨List.cons_ne_nil _ _, hends⟩⟩

/-! ### One text after another -/

theorem splitAtLineFeeds_append (cs cs' : List Char) :
    splitAtLineFeeds (cs ++ '\n' :: cs') = splitAtLineFeeds cs ++ splitAtLineFeeds cs' := by
  induction cs with
  | nil => rfl
  | cons c cs ih =>
    rw [List.cons_append, splitAtLineFeeds, splitAtLineFeeds, ih]
    split
    · rfl
    · cases hsplit : splitAtLineFeeds cs with
      | nil => exact absurd hsplit (splitAtLineFeeds_ne_nil cs)
      | cons => rfl

/-- A carriage return at the end of a text belongs to the ending of its last line, unless one stands
there already. -/
theorem lines_append_return {text : String} (h : text.toList.getLast? ≠ some '\r') :
    lines (text ++ "\r") = lines text := by
  obtain ⟨pieces, last, before, hsplit, hreturn, htext, -⟩ := exists_last_piece text.toList
  have hlast : last.getLast? ≠ some '\r' := fun heq => h (by
    rw [htext, List.getLast?_append, heq, Option.some_or])
  rw [lines, lines, String.toList_append]
  change (splitAtLineFeeds (text.toList ++ ['\r'])).map dropReturn = _
  rw [hsplit, hreturn, List.map_append, List.map_append, List.map_singleton, List.map_singleton,
    dropReturn, if_pos (by simp), List.dropLast_concat, dropReturn, if_neg hlast]

/-- What may stand between a text and another one that starts on a line of its own: a line feed, and
a carriage return before it if the text does not end with one. -/
def Breaks (text lineBreak : String) : Prop :=
  lineBreak = "\n" ∨ lineBreak = "\r\n" ∧ text.toList.getLast? ≠ some '\r'

/-- **The lines of one text after another.** -/
theorem lines_append {text lineBreak : String} (h : Breaks text lineBreak) (text' : String) :
    lines (text ++ lineBreak ++ text') = lines text ++ lines text' := by
  have hfeed : ∀ text, lines (text ++ "\n" ++ text') = lines text ++ lines text' := fun text => by
    rw [lines, String.toList_append, String.toList_append, List.append_assoc]
    change (splitAtLineFeeds (text.toList ++ '\n' :: text'.toList)).map dropReturn = _
    rw [splitAtLineFeeds_append, List.map_append]
    rfl
  rcases h with rfl | ⟨rfl, hreturn⟩
  · exact hfeed text
  · rw [show text ++ "\r\n" = text ++ "\r" ++ "\n" by rw [String.append_assoc]; rfl, hfeed,
      lines_append_return hreturn]

/-! ### Other lines -/

/-- The carriage return that belongs to the ending of a line. -/
def returnOf (piece : List Char) : List Char :=
  piece.drop (dropReturn piece).length

theorem dropReturn_append_returnOf (piece : List Char) :
    dropReturn piece ++ returnOf piece = piece := by
  have hprefix : dropReturn piece <+: piece := by
    unfold dropReturn
    split
    · exact List.dropLast_prefix piece
    · exact List.prefix_rfl
  rw [returnOf]
  exact List.prefix_iff_eq_append.mp hprefix

/-- A line of a text holds no line feed. -/
theorem not_mem_of_mem_lines {text : String} {line : List Char} (h : line ∈ lines text) :
    '\n' ∉ line := by
  obtain ⟨piece, hpiece, rfl⟩ := List.mem_map.mp h
  intro hfeed
  refine not_mem_of_mem_pieces hpiece ?_
  rw [← dropReturn_append_returnOf piece]
  exact List.mem_append_left _ hfeed

/-- A text with other lines. -/
def mapLines (f : List Char → List Char) (text : String) : String :=
  ofPieces ((pieces text).map fun piece => f (dropReturn piece) ++ returnOf piece)

/-- A change of lines that neither adds a line feed nor puts a carriage return at their end. -/
structure KeepsEndings (f : List Char → List Char) : Prop where
  feed : ∀ {line}, '\n' ∉ line → '\n' ∉ f line
  carriage : ∀ {line}, line.getLast? ≠ some '\r' → (f line).getLast? ≠ some '\r'

theorem KeepsEndings.dropReturn {f : List Char → List Char} (h : KeepsEndings f)
    (piece : List Char) : dropReturn (f (Source.dropReturn piece) ++ returnOf piece)
      = f (Source.dropReturn piece) := by
  by_cases hreturn : piece.getLast? = some '\r'
  · have hdropped : returnOf piece = ['\r'] := by
      obtain ⟨line, rfl⟩ := List.getLast?_eq_some_iff.mp hreturn
      simp [returnOf, Source.dropReturn]
    rw [hdropped, Source.dropReturn, if_pos (by simp), List.dropLast_concat]
  · have hkept : Source.dropReturn piece = piece := if_neg hreturn
    have hnone : returnOf piece = [] := by rw [returnOf, hkept, List.drop_length]
    rw [hnone, List.append_nil, hkept, Source.dropReturn, if_neg (h.carriage hreturn)]

/-- **The lines of a text with other lines.** -/
theorem lines_mapLines {f : List Char → List Char} (h : KeepsEndings f) (text : String) :
    lines (mapLines f text) = (lines text).map f := by
  have hpieces : pieces (mapLines f text)
      = (pieces text).map fun piece => f (dropReturn piece) ++ returnOf piece := by
    refine pieces_ofPieces (by simp [pieces, splitAtLineFeeds_ne_nil]) fun piece' hpiece' => ?_
    obtain ⟨piece, hpiece, rfl⟩ := List.mem_map.mp hpiece'
    have hfeed := not_mem_of_mem_pieces hpiece
    rw [← dropReturn_append_returnOf piece, List.mem_append, not_or] at hfeed
    rw [List.mem_append, not_or]
    exact ⟨h.feed hfeed.1, hfeed.2⟩
  change (pieces (mapLines f text)).map dropReturn = ((pieces text).map dropReturn).map f
  rw [hpieces, List.map_map, List.map_map]
  exact List.map_congr_left fun piece _ => h.dropReturn piece

/-- The text with one line more, after so many of its lines. -/
def insertLine (count : Nat) (line : List Char) (text : String) : String :=
  ofPieces ((pieces text).insertIdx count line)

/-- **The lines of a text with one line more.** -/
theorem lines_insertLine {line : List Char} (hline : '\n' ∉ line) (count : Nat) (text : String) :
    lines (insertLine count line text) = (lines text).insertIdx count (dropReturn line) := by
  have hpieces : pieces (insertLine count line text) = (pieces text).insertIdx count line := by
    refine pieces_ofPieces (fun hnil => ?_) fun piece hpiece => ?_
    · have hempty := List.length_eq_zero_iff.mpr hnil
      have := List.length_le_length_insertIdx (l := pieces text) (i := count) (x := line)
      have := List.length_pos_iff.mpr (splitAtLineFeeds_ne_nil text.toList)
      rw [pieces] at *
      omega
    · rcases List.mem_cons.mp (List.insertIdx_subset_cons _ _ _ hpiece) with rfl | hpiece
      · exact hline
      · exact not_mem_of_mem_pieces hpiece
  change (pieces (insertLine count line text)).map dropReturn
    = ((pieces text).map dropReturn).insertIdx count (dropReturn line)
  rw [hpieces, List.map_insertIdx]

end Tablica.Source

namespace Tablica

/-! ### Rows -/

theorem Row.isBlank_eq (row : Row) : row.isBlank = Source.holdsNothing row.chars := rfl

/-- The rows of other lines. -/
theorem Row.ofLines_map (f : List Char → List Char) (number : Nat) (lines : List (List Char)) :
    ofLines number (lines.map f) = (ofLines number lines).map fun row =>
      ⟨⟨row.line.number, String.ofList (f row.chars)⟩, row.isLast⟩ := by
  induction lines generalizing number with
  | nil => rfl
  | cons line lines ih =>
    rw [List.map_cons, ofLines, ofLines, List.map_cons, ih, List.isEmpty_map, Row.chars,
      String.toList_ofList]

end Tablica
