import Tablica.Text.Blank

/-!
# Lines of a program text

A program is read line by line.  A line ends at a line feed, and a carriage
return directly before the line feed (or before the end of the text) is part of
the line ending and not of the line.  So the empty text has one line, which is
empty, and a text that ends with a line feed has an empty last line.

* `SourceLine` — a line's number and text, kept by whatever was read from it;
* `Position` — a line and a column, both counted from one, columns in characters;
* `Source.lines` — the lines of a text, `Source.listedLines` — the lines to be listed;
* `Source.lines_ne_nil` — there is always one.
-/

namespace Tablica

/-- A line of a program by its number, counted from one, and its text. -/
structure SourceLine where
  number : Nat
  text : String
deriving DecidableEq, Repr, Inhabited

/-- The line as a message shows it, without the white space at both ends. -/
def SourceLine.shown (line : SourceLine) : String :=
  Text.trimmed line.text

/-- A place in a program text, line and column counted from one. -/
structure Position where
  line : Nat
  column : Nat
deriving DecidableEq, Repr, Inhabited

/-- The position as messages write it. -/
def Position.shown (p : Position) : String :=
  s!"{p.line}:{p.column}"

namespace Source

/-- Cuts at every line feed. -/
def splitAtLineFeeds : List Char → List (List Char)
  | [] => [[]]
  | c :: cs =>
    if c = '\n' then [] :: splitAtLineFeeds cs
    else match splitAtLineFeeds cs with
      | [] => [[c]]
      | line :: rest => (c :: line) :: rest

/-- Drops one carriage return from the end of a line. -/
def dropReturn (line : List Char) : List Char :=
  if line.getLast? = some '\r' then line.dropLast else line

/-- The lines of a text, each without its line ending. -/
def lines (text : String) : List (List Char) :=
  (splitAtLineFeeds text.toList).map dropReturn

theorem splitAtLineFeeds_ne_nil (cs : List Char) : splitAtLineFeeds cs ≠ [] := by
  cases cs with
  | nil => simp [splitAtLineFeeds]
  | cons c cs =>
    simp only [splitAtLineFeeds]
    split
    · simp
    · split <;> simp

/-- Every text has a line. -/
theorem lines_ne_nil (text : String) : lines text ≠ [] := by
  simp [lines, splitAtLineFeeds_ne_nil]

/-- The lines of a text as they are listed for a reader: a text that ends with a line feed has no
further line, and a carriage return belongs to a line ending only before a line feed. -/
def listedLines (text : String) : List (List Char) :=
  let pieces := splitAtLineFeeds text.toList
  pieces.dropLast.map dropReturn ++ (pieces.getLast?.filter (· ≠ [])).toList

/-- The line with the given number, empty where the text has none. -/
def lineAt (lines : List (List Char)) (number : Nat) : SourceLine :=
  ⟨number, String.ofList ((lines[number - 1]?).getD [])⟩

end Source

end Tablica
