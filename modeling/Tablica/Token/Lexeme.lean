import Tablica.Token.Reading

/-!
# A line as a row of lexemes

The rules for statements look at a line as a whole: a row of **lexemes** and the way
the row ends.  A lexeme is a token or a fault met in place of one; a fault does not
end the row, because reading goes on behind it.  With a token comes the character
that directly follows it, since `T[1]` and `f(1)` are read differently from `T [1]`
and `f (1)`.

A row ends in one of three ways.  The last line of a text is followed by nothing;
any other line is followed by an end-of-line token, however often one asks for it;
and a character that starts no token stops the reader for good, so that asking
again gives the same fault.

* `Lexeme`, `Ending`, `Lexemes` — the types;
* `lexemesFrom` — the row that the characters of a line give;
* `Row`, `Row.lexemes` — a line of a text, and its row;
* `ofText` — all tokens of a text, up to its end or to the first fault.
-/

namespace Tablica

/-- A token and the character after it, or a fault in place of a token. -/
inductive Lexeme
  | token (token : Token) (next : Option Char)
  | fault (fault : Fault)
deriving DecidableEq, Repr, Inhabited

/-- What follows the last lexeme of a line. -/
inductive Ending
  | line (position : Position)
  | input (position : Position)
  | stuck (fault : Fault)
deriving DecidableEq, Repr, Inhabited

/-- A line as the rules for statements see it. -/
structure Lexemes where
  items : List Lexeme
  ending : Ending
deriving DecidableEq, Repr, Inhabited

namespace Token

open Text

/-- The lexemes of the characters `cs`, which stand at the given column of a line.  `isLast`
says whether the line is the last one of its text. -/
def lexemesFrom (symbol : List Char) (number : Nat) (isLast : Bool) (column : Nat)
    (cs : List Char) : Lexemes :=
  match _h : cs.dropWhile isBlank with
  | [] =>
    let position := ⟨number, column + cs.length⟩
    ⟨[], if isLast then .input position else .line position⟩
  | c :: rest =>
    let position := ⟨number, column + (cs.length - (rest.length + 1))⟩
    match readToken symbol (c :: rest) with
    | (outcome, after) =>
      if _hlt : after.length < (c :: rest).length then
        let tail := lexemesFrom symbol number isLast (column + (cs.length - after.length)) after
        match outcome with
        | .ok kind => ⟨.token ⟨kind, position⟩ after.head? :: tail.items, tail.ending⟩
        | .error kind => ⟨.fault ⟨kind, position⟩ :: tail.items, tail.ending⟩
      else ⟨[], .stuck ⟨.invalidCharacter c, position⟩⟩
termination_by cs.length
decreasing_by
  have hle := length_dropWhile_le isBlank cs
  rw [_h] at hle
  omega

end Token

/-- A line of a program together with whether it is the last one. -/
structure Row where
  line : SourceLine
  isLast : Bool
deriving DecidableEq, Repr, Inhabited

namespace Row

/-- The characters of the line. -/
def chars (row : Row) : List Char :=
  row.line.text.toList

/-- Whether the line holds nothing but blanks and perhaps a comment. -/
def isBlank (row : Row) : Bool :=
  match row.chars.dropWhile Text.isBlank with
  | [] => true
  | c :: _ => c == '#'

/-- The lexemes after the first `indent` characters. -/
def lexemes (symbol : List Char) (indent : Nat) (row : Row) : Lexemes :=
  Token.lexemesFrom symbol row.line.number row.isLast (indent + 1) (row.chars.drop indent)

/-- Rows out of lines, numbered from the given number on. -/
def ofLines : Nat → List (List Char) → List Row
  | _, [] => []
  | number, line :: rest => ⟨⟨number, String.ofList line⟩, rest.isEmpty⟩ :: ofLines (number + 1) rest

/-- The rows of a text. -/
def ofText (text : String) : List Row :=
  ofLines 1 (Source.lines text)

end Row

namespace Token

/-- What was read of a text: the tokens, and then the position of its end or the error that
stopped the reading. -/
structure Listing where
  tokens : List Token
  result : Except SyntaxError Position

/-- The tokens before the first fault, and that fault. -/
def untilFault (lexemes : Lexemes) : List Token × Except Fault Ending :=
  go lexemes.items
where
  go : List Lexeme → List Token × Except Fault Ending
    | [] => ([], .ok lexemes.ending)
    | .fault fault :: _ => ([], .error fault)
    | .token token _ :: rest =>
      let (tokens, result) := go rest
      (token :: tokens, result)

/-- All tokens of the rows.  A comment is an end-of-line token itself, so the line after it
follows at once. -/
def listRows (symbol : List Char) (lines : List (List Char)) : List Row → Listing
  | [] => ⟨[], .ok ⟨lines.length, (lines.getLast?.getD []).length + 1⟩⟩
  | row :: rest =>
    match untilFault (row.lexemes symbol 0) with
    | (tokens, .error fault) => ⟨tokens, .error (.ofFault lines fault)⟩
    | (tokens, .ok (.stuck fault)) => ⟨tokens, .error (.ofFault lines fault)⟩
    | (tokens, .ok (.input _)) => ⟨tokens, (listRows symbol lines rest).result⟩
    | (tokens, .ok (.line position)) =>
      let tail := listRows symbol lines rest
      let ended := tokens.getLast?.map (·.kind) == some .endOfLine
      ⟨tokens ++ (if ended then [] else [⟨.endOfLine, position⟩]) ++ tail.tokens, tail.result⟩

/-- All tokens of a text. -/
def ofText (symbol : List Char) (text : String) : Listing :=
  listRows symbol (Source.lines text) (Row.ofText text)

end Token

end Tablica
