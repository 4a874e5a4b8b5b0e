import Tablica.Token.Lexeme

/-!
# A cursor over a text

A cursor stands at a character of a text or behind the last character of a line.
Reading never runs over the end of a line; moving to the next line is a step of its
own.  Line and column are counted from zero inside and from one in positions.

* `Cursor` — the lines of a text, and the place;
* `Cursor.rest` — the characters left on the line, from which every other question
  is answered;
* `Cursor.next`, `Cursor.nextLine`, `Cursor.skip`, `Cursor.restore`, `Cursor.rewindLine` —
  the moves;
* `Cursor.nextToken`, `Cursor.peekToken` — reading a token at the cursor.
-/

namespace Tablica

/-- A place in a text. -/
structure Cursor where
  lines : List (List Char)
  line : Nat
  column : Nat
deriving DecidableEq, Repr, Inhabited

namespace Cursor

/-- The cursor at the start of a text. -/
def ofText (text : String) : Cursor :=
  ⟨Source.lines text, 0, 0⟩

/-- The characters of the line under the cursor. -/
def chars (c : Cursor) : List Char :=
  (c.lines[c.line]?).getD []

/-- The characters of the line that are still to be read. -/
def rest (c : Cursor) : List Char :=
  c.chars.drop c.column

/-- The character the given number of places ahead, on the same line. -/
def peek (c : Cursor) (offset : Nat) : Option Char :=
  c.rest[offset]?

/-- The character under the cursor, and the cursor behind it. -/
def next (c : Cursor) : Option Char × Cursor :=
  match c.rest with
  | [] => (none, c)
  | char :: _ => (some char, { c with column := c.column + 1 })

/-- Whether no line follows. -/
def onLastLine (c : Cursor) : Bool :=
  c.lines.length ≤ c.line + 1

/-- Moves to the start of the next line, or to the end of the last one, and answers whether
there was a next line. -/
def nextLine (c : Cursor) : Bool × Cursor :=
  if c.onLastLine then (false, { c with column := c.chars.length })
  else (true, { c with line := c.line + 1, column := 0 })

def atEndOfLine (c : Cursor) : Bool :=
  c.rest.isEmpty

def atEndOfInput (c : Cursor) : Bool :=
  c.atEndOfLine && c.onLastLine

/-- Whether only blanks and perhaps a comment are left of the line. -/
def restIsBlank (c : Cursor) : Bool :=
  match c.rest.dropWhile Text.isBlank with
  | [] => true
  | char :: _ => char == '#'

def startsWith (c : Cursor) (pattern : String) : Bool :=
  pattern.toList.isPrefixOf c.rest

/-- Moves over so many characters, but not beyond the end of the line. -/
def skip (c : Cursor) (count : Nat) : Cursor :=
  { c with column := c.column + min count c.rest.length }

def position (c : Cursor) : Position :=
  ⟨c.line + 1, c.column + 1⟩

/-- Moves to a position. -/
def restore (c : Cursor) (p : Position) : Cursor :=
  { c with line := p.line - 1, column := p.column - 1 }

/-- Moves to the start of the line. -/
def rewindLine (c : Cursor) : Cursor :=
  { c with column := 0 }

def currentLine (c : Cursor) : SourceLine :=
  Source.lineAt c.lines (c.line + 1)

/-- The error of a fault at a position. -/
def errorAt (c : Cursor) (p : Position) (kind : SyntaxFault) : SyntaxError :=
  .ofFault c.lines ⟨kind, p⟩

/-- The error of a fault at the cursor. -/
def error (c : Cursor) (kind : SyntaxFault) : SyntaxError :=
  c.errorAt c.position kind

/-! ### Reading at the cursor -/

/-- The cursor moved so that only `rest` is left of its line. -/
def leaving (c : Cursor) (rest : List Char) : Cursor :=
  c.skip (c.rest.length - rest.length)

/-- Moves over spaces and tabs. -/
def skipBlanks (c : Cursor) : Cursor :=
  c.leaving (c.rest.dropWhile Text.isBlank)

/-- The characters up to the first one without the property. -/
def readWhile (c : Cursor) (p : Char → Bool) : String × Cursor :=
  (String.ofList (c.rest.takeWhile p), c.leaving (c.rest.dropWhile p))

/-- Reads with a reader of tokens; a fault lies where the reading started. -/
def readWith (c : Cursor) (read : List Char → Except SyntaxFault TokenKind × List Char) :
    Except SyntaxError TokenKind × Cursor :=
  let (outcome, rest) := read c.rest
  (outcome.mapError c.error, c.leaving rest)

/-- Reads the word at the cursor. -/
def readWord (symbol : List Char) (c : Cursor) : TokenKind × Cursor :=
  let (kind, rest) := Token.readWord symbol c.rest
  (kind, c.leaving rest)

/-- Reads the next token of the line.  At the end of a line the answer is an end-of-line token,
and at the end of the text there is no token. -/
def nextToken (symbol : List Char) (c : Cursor) : Except SyntaxError (Option Token) × Cursor :=
  let c := c.skipBlanks
  if c.atEndOfInput then (.ok none, c)
  else
    let (outcome, after) := c.readWith (Token.readToken symbol)
    (outcome.map fun kind => some ⟨kind, c.position⟩, after)

/-- Reads the next token and stays in place. -/
def peekToken (symbol : List Char) (c : Cursor) : Except SyntaxError (Option Token) :=
  (c.nextToken symbol).1

/-! ### What the moves do to the rest -/

theorem rest_next (c : Cursor) : c.next.2.rest = c.rest.tail := by
  unfold next
  split
  · rename_i h
    rw [h, List.tail_nil]
  · simp only [rest, chars, List.tail_drop]

theorem rest_skip (c : Cursor) (count : Nat) : (c.skip count).rest = c.rest.drop count := by
  simp only [skip, rest, chars, ← List.drop_drop]
  by_cases h : count ≤ (((c.lines[c.line]?).getD []).drop c.column).length
  · rw [Nat.min_eq_left h]
  · rw [Nat.min_eq_right (by omega), List.drop_eq_nil_of_le (by omega),
      List.drop_eq_nil_of_le (by omega)]

theorem rest_rewindLine (c : Cursor) : c.rewindLine.rest = c.chars := by
  simp [rewindLine, rest, chars]

/-- Going back to the position of a cursor on the same text gives that cursor back. -/
theorem restore_position (c : Cursor) (line column : Nat) :
    ({ c with line, column }).restore c.position = c := by
  simp [restore, position]

end Cursor

end Tablica
