import Tablica.Token.Basic

/-!
# Faults of a program text

Reading a program stops at the first place where it cannot go on.  What is wrong
there is a **fault**; where it is wrong is a position; and the error that a reader
of the message gets holds, besides these two, the line itself.

* `Found` — what stood at the place of a fault;
* `Wanted`, `NamePlace` — what should have stood there;
* `SyntaxFault` — the faults, `SyntaxFault.message` — their wording;
* `Fault` — a fault and its position, `SyntaxError` — the two with their line.
-/

namespace Tablica

/-- What was met instead of what was wanted. -/
inductive Found
  | token (kind : TokenKind)
  | endOfFile
  | nothing
deriving DecidableEq, Repr, Inhabited

namespace Found

/-- What was met, as messages quote it. -/
def shown : Found → String
  | token kind => kind.shown
  | endOfFile => "end of file"
  | nothing => "nothing"

/-- A token, or the end of the program if there is none. -/
def ofToken? : Option Token → Found
  | some t => token t.kind
  | none => endOfFile

end Found

/-- What a fixed place of a statement asks for. -/
inductive Wanted
  | rangeSymbol | assignment | openParenthesis | closeParenthesis | closeBracket
  | commaOrCloseParenthesis
deriving DecidableEq, Repr, Inhabited

/-- What was wanted, as messages quote it. -/
def Wanted.shown : Wanted → String
  | rangeSymbol => "range symbol"
  | assignment => "`:=`"
  | openParenthesis => "`(`"
  | closeParenthesis => "`)`"
  | closeBracket => "`]`"
  | commaOrCloseParenthesis => "`,` or `)`"

/-- The places at which a name has to stand. -/
inductive NamePlace
  | dla | funkcja | procedura | parameter
deriving DecidableEq, Repr, Inhabited

/-- What stands before the name. -/
def NamePlace.shown : NamePlace → String
  | dla => "dla"
  | funkcja => "funkcja"
  | procedura => "procedura"
  | parameter => "("

/-- What can be wrong with a program text. -/
inductive SyntaxFault
  | cannotOperateOnNil (operator : Operator)
  | emptyBlock
  | expected (wanted : Wanted) (found : Found)
  | expectedExpression (found : Found)
  | expectedKeyword (wanted : Keyword) (found : Found)
  | expectedName (place : NamePlace) (found : Found)
  | endOfFile
  | inconsistentIndentation
  | indentationTooNarrow (width : Nat)
  | invalidCharacter (character : Char)
  | numberTooLarge (digits : String)
  | returnOutsideFunction
  | undefinedOperation
  | unexpectedIndentation
  | unexpectedKeyword (keyword : Keyword)
  | unexpectedToken (found : TokenKind)
  | unterminatedText (quote : Char)
deriving DecidableEq, Repr, Inhabited

/-- The wording of a fault. -/
def SyntaxFault.message : SyntaxFault → String
  | cannotOperateOnNil operator => s!"Cannot do `{operator.symbol}` on nil"
  | emptyBlock => "Expected indented code, but the block is empty"
  | expected wanted found => s!"Expected {wanted.shown}, instead got {found.shown}"
  | expectedExpression found => s!"Expected an expression, instead got {found.shown}"
  | expectedKeyword wanted found =>
    s!"Expected keyword `{wanted.spelling}`, instead got {found.shown}"
  | expectedName place found =>
    s!"Expected a name after `{place.shown}`, instead got {found.shown}"
  | endOfFile => "Unexpected end of file"
  | inconsistentIndentation => "Inconsistent indentation size"
  | indentationTooNarrow width =>
    s!"Invalid indentation, should be at least 2 spaces, not {width}"
  | invalidCharacter character => s!"Invalid character: `{character}`"
  | numberTooLarge digits => s!"Number `{digits}` is too large"
  | returnOutsideFunction => "`zwróć` can only be used inside a function or procedure"
  | undefinedOperation => "Undefined operation"
  | unexpectedIndentation => "Unexpected indentation"
  | unexpectedKeyword keyword => s!"Unexpected keyword `{keyword.spelling}`"
  | unexpectedToken found => s!"Unexpected {found.shown}"
  | unterminatedText quote => s!"Could not parse string, missing closing {quote}"

/-- A fault and the position at which it was met. -/
structure Fault where
  kind : SyntaxFault
  position : Position
deriving DecidableEq, Repr, Inhabited

/-- A fault, its position and the line at that position. -/
structure SyntaxError where
  kind : SyntaxFault
  position : Position
  source : SourceLine
deriving DecidableEq, Repr, Inhabited

/-- The error of a fault in a text with the given lines. -/
def SyntaxError.ofFault (lines : List (List Char)) (fault : Fault) : SyntaxError :=
  ⟨fault.kind, fault.position, Source.lineAt lines fault.position.line⟩

/-- The wording of an error is that of its fault. -/
def SyntaxError.message (e : SyntaxError) : String :=
  e.kind.message

end Tablica
