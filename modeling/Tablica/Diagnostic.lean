import Tablica.Execution.Value
import Tablica.Syntax.Fault
import Tablica.Text.Styled

/-!
# Diagnostics

An error is shown with the line it is in, and with the lines before and after it unless
they are blank.  A gutter on the left holds the line's number, and below the line a
caret and tildes mark the place:

       | a := 1
    2  | pisz a - 'x'
       | ^~~~~~~~~~~~
       | pisz a

An error of reading has a place of one character, and some have a hint, which follows
the mark.  An error of a running program has the whole statement for its place.  Lines
are listed with every tab widened to four spaces, and marks follow the widened line.

* `Diagnostic` — what is shown, `Diagnostic.ofSyntaxError`, `Diagnostic.ofRuntimeError`;
* `Diagnostic.widen`, `Diagnostic.mark` — a listed line and the mark below it;
* `Diagnostic.shown` — the whole text;
* `Diagnostic.widen_append`, `Diagnostic.length_widen` — widening works character by
  character, and the width of a text is the length of its widened form.
-/

namespace Tablica

/-- An error as it is shown: what is wrong, where it starts, how many characters it covers, and
possibly how to mend it. -/
structure Diagnostic where
  message : String
  position : Position
  width : Nat := 1
  hint : Option String := none
deriving DecidableEq, Repr, Inhabited

namespace Diagnostic

/-! ## What is shown -/

/-- How to mend a fault, where something general can be said. -/
def hintFor : SyntaxFault → Option String
  | .inconsistentIndentation => some "every block must be indented by the same unit"
  | .indentationTooNarrow _ => some "indent with at least 2 spaces or a tab"
  | .expectedKeyword wanted _ => some s!"the line should end with `{wanted.spelling}`"
  | .emptyBlock => some "indent the statements that belong to this block"
  | _ => none

def ofSyntaxError (e : SyntaxError) : Diagnostic where
  message := e.message
  position := ⟨e.position.line, max e.position.column 1⟩
  hint := hintFor e.kind

/-- The error of a running program covers its line without the white space at both ends. -/
def ofRuntimeError (e : RuntimeError) : Diagnostic where
  message := e.kind.message
  position := ⟨e.line.number, (e.line.text.toList.takeWhile Text.isWhiteSpace).length + 1⟩
  width := max (Text.trim e.line.text.toList).length 1

/-! ## Listed lines and marks -/

/-- The columns that a tab takes up. -/
def tabWidth : Nat := 4

/-- A character of a listed line. -/
def widenChar (c : Char) : List Char :=
  if c = '\t' then List.replicate tabWidth ' ' else [c]

/-- A line as it is listed. -/
def widen (line : List Char) : List Char :=
  line.flatMap widenChar

/-- The columns that a text takes up. -/
def columns : List Char → Nat
  | [] => 0
  | c :: cs => (if c = '\t' then tabWidth else 1) + columns cs

/-- Where the mark below a line starts, counted from zero, and how many columns it takes up.  A
place after the end of the line is as far from the end as its column says, and a mark is never
empty. -/
def mark (line : List Char) (column width : Nat) : Nat × Nat :=
  let before := column - 1
  (columns (line.take before) + (before - line.length),
    max (columns ((line.drop before).take width)) 1)

theorem widen_append (s t : List Char) : widen (s ++ t) = widen s ++ widen t := by
  simp [widen]

/-- The columns of a text are those of its widened form. -/
theorem length_widen (text : List Char) : (widen text).length = columns text := by
  induction text with
  | nil => rfl
  | cons c cs ih =>
    have hc : (widenChar c).length = if c = '\t' then tabWidth else 1 := by
      unfold widenChar
      split <;> simp
    simp only [widen, columns, List.flatMap_cons, List.length_append] at ih ⊢
    omega

/-! ## The text of a diagnostic -/

def alarm : Style := ⟨"\x1b[1;31m"⟩
def emphasis : Style := ⟨"\x1b[1m"⟩
def gutterStyle : Style := ⟨"\x1b[1;34m"⟩
def underline : Style := ⟨"\x1b[31m"⟩

/-- The word that opens every report of an error, and what is reported. -/
def headline (message : String) : StyledText :=
  .styled alarm "błąd" ++ .plain ": " ++ .styled emphasis message ++ .plain "\n"

/-- What stands left of a line: its number if it is the one in question, as much blank space
otherwise, and a bar. -/
def gutter (number : Nat) (isInQuestion : Bool) : StyledText :=
  let digits := toString number
  let left : StyledText :=
    if isInQuestion then .styled gutterStyle digits
    else .plain ("".pushn ' ' digits.length)
  left ++ .plain " " ++ .styled gutterStyle " | "

/-- A line with its gutter. -/
def listed (number : Nat) (isInQuestion : Bool) (line : List Char) : StyledText :=
  gutter number isInQuestion ++ .plain (String.ofList (widen line) ++ "\n")

/-- A line before or after the one in question, which is left out where it is blank. -/
def neighbour (number : Nat) (line : Option (List Char)) : StyledText :=
  match line with
  | some line => if line.all Text.isWhiteSpace then [] else listed number false line
  | none => []

/-- The mark below the line in question, and the hint. -/
def indicator (d : Diagnostic) (line : List Char) : StyledText :=
  let (offset, width) := mark line d.position.column d.width
  let hint : StyledText :=
    match d.hint with
    | some hint => .styled alarm s!"hint: {hint}"
    | none => .styled emphasis ""
  gutter d.position.line false ++ .plain ("".pushn ' ' offset) ++ .styled alarm "^"
    ++ .styled underline ("".pushn '~' (width - 1)) ++ .plain " " ++ hint ++ .plain "\n"

/-- The diagnostic of an error in a text that was read from the given file. -/
def shown (d : Diagnostic) (file text : String) : StyledText :=
  let lines := Source.listedLines text
  let index := d.position.line - 1
  let line := (lines[index]?).getD []
  let previous := if index = 0 then none else lines[index - 1]?
  headline d.message ++ .plain "\n"
    ++ neighbour d.position.line previous
    ++ listed d.position.line true line
    ++ d.indicator line
    ++ neighbour d.position.line lines[index + 1]?
    ++ .plain s!"\nIn {file}:{d.position.shown}\n\n"

end Diagnostic

end Tablica
