import Tablica.Token.Basic

/-!
# Log records

Reading and running a program leave a log, for whoever wants to follow what
happened.  A record is what happened; its level and its wording are derived.

* `LogRecord` — the records of reading first, then those of running;
* `LogRecord.level`, `LogRecord.message` — how important a record is and what it says;
* `LogRecord.shown` — the two as one line.
-/

namespace Tablica

inductive LogLevel
  | debug | trace
deriving DecidableEq, Repr, Inhabited

def LogLevel.name : LogLevel → String
  | debug => "DEBUG"
  | trace => "TRACE"

/-- What the log of a program can tell. -/
inductive LogRecord
  | parsed (count : Nat)
  | blockEnded (level count : Nat)
  | indentationFound (character : Char) (width : Nat)
  | statementStarted (token : Token)
  | defining (isProcedure : Bool) (name : String) (parameters : Nat)
  | executing (keyword : Keyword) (line : Nat)
  | scopeOpened (scope : Nat)
  | scopeClosed (scope cells : Nat)
  | calling (name : String) (scope : Nat)
  | iteratorExhausted (name : String)
deriving DecidableEq, Repr, Inhabited

namespace LogRecord

def level : LogRecord → LogLevel
  | parsed _ | indentationFound _ _ | defining _ _ _ => .debug
  | _ => .trace

/-- The word for a function or a procedure. -/
def routineWord (isProcedure : Bool) : String :=
  if isProcedure then "procedure" else "function"

/-- A blank character between quotes. -/
def quoteBlank (c : Char) : String :=
  if c = '\t' then "'\\t'" else s!"'{c}'"

def message : LogRecord → String
  | parsed count => s!"Parsed {count} top-level nodes"
  | blockEnded level count => s!"Block at level {level} ended with {count} nodes"
  | indentationFound character width =>
    s!"Indentation unit is {width} x {quoteBlank character}"
  | statementStarted token =>
    s!"Statement at {token.position.shown} starts with {token.kind.name} {token.kind.shown}"
  | defining isProcedure name parameters =>
    s!"Defining {routineWord isProcedure} `{name}` with {parameters} parameter(s)"
  | executing keyword line => s!"Executing `{keyword.spelling}` on line {line}"
  | scopeOpened scope => s!"Opened scope #{scope}"
  | scopeClosed scope cells => s!"Closed scope #{scope} holding {cells} variables"
  | calling name scope => s!"Calling `{name}` in scope #{scope}"
  | iteratorExhausted name => s!"Iterator `{name}` reached the largest number"

/-- A record as a line of the log. -/
def shown (r : LogRecord) : String :=
  s!"{r.level.name}: {r.message}"

end LogRecord

end Tablica
