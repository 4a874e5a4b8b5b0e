import Tablica.Source.Cursor
import Tablica.Syntax.Outline

/-!
# Reading a program by recursive descent

A program can also be read by functions that call one another and that share one cursor: there is a
function for each kind of phrase, which reads the phrase at the cursor and leaves the cursor behind
it.  The brackets and blocks that are open are then the calls that have not returned.

    body ──▸ statement ──▸ form ──▸ expression ──▸ reference ──▸ arguments, indices
      ▴          │                       ▴                              │
      └─ block ◂─┘                       └──────────────────────────────┘

The cursor does not only move forward.  A token may be looked at and left in place, a statement that
turns out to be no assignment is read again as an expression, a line is left to the enclosing block
after its indentation was measured, and so is a line that was searched for `wpp`.  At the end of the
last line there is no next line to move to, and a token may be read there without any movement.

So nothing in the form of these functions says that they come to an end, and it is not built into
their definition either.  A function that calls others, or itself for the next round of a loop, is
told how deep calls may be nested, and answers `none` where that is not deep enough.  Of a descent
that does not end, every depth is too small.

* `Parser` — the state, `Descent` — a computation on it;
* `Descent.nextToken`, `Descent.peekToken` — the next token or the end of the program;
* `Descent.expression`, `Descent.argumentList`, `Descent.indices` — expressions, in loops of which
  `Descent.item`, `Descent.argument`, `Descent.index` are one round;
* `Descent.form` — a statement, or the heading of a block, up to the end of its line;
* `Descent.body` — the rows of a block, in a loop of which `Descent.pass` is one round;
* `Descent.parse` — a whole text.
-/

namespace Tablica

/-- A text with a cursor, the unit of indentation if it is known, and how many functions and
procedures are open around the cursor. -/
structure Parser where
  symbol : List Char
  cursor : Cursor
  unit : Option IndentUnit := none
  routines : Nat := 0

/-- A computation that moves a cursor and may meet an error.  The answer `none` says that it did not
end within the depth that was allowed. -/
abbrev Descent := StateT Parser (ExceptT SyntaxError Option)

namespace Descent

/-- Gives up. -/
def exhausted {α : Type} : Descent α :=
  fun _ => none

/-! ### Tokens -/

/-- Stops at a fault. -/
def fail {α : Type} (fault : Fault) : Descent α := do
  throw ((← get).cursor.errorAt fault.position fault.kind)

/-- The value, unless there is a fault. -/
def ofExcept {α : Type} : Except Fault α → Descent α
  | .ok a => pure a
  | .error fault => fail fault

/-- Moves the cursor. -/
def move (f : Cursor → Cursor) : Descent Unit :=
  modify fun parser => { parser with cursor := f parser.cursor }

/-- Reads the next token of the line.  If the program is over, the answer is its end. -/
def nextToken : Descent Stop := do
  let parser ← get
  let (outcome, cursor) := parser.cursor.nextToken parser.symbol
  set { parser with cursor }
  match outcome with
  | .error error => throw error
  | .ok (some token) => return .ofToken token
  | .ok none => return ⟨none, cursor.position⟩

/-- Reads the next token and goes back. -/
def peekToken : Descent Stop := do
  let position := (← get).cursor.position
  let stop ← nextToken
  move (·.restore position)
  return stop

/-- The character under the cursor. -/
def peekChar : Descent (Option Char) :=
  return (← get).cursor.peek 0

/-- Refuses a token that is not the wanted one. -/
def expected {α : Type} (wanted : Wanted) (stop : Stop) : Descent α :=
  fail ⟨.expected wanted stop.found, stop.position⟩

/-- Moves to the next line, if the line ends at the stop. -/
def endLine (stop : Stop) : Descent Unit := do
  ofExcept stop.endLine
  move (·.nextLine.2)

/-- Reads the end of the line and moves to the next one. -/
def finishLine : Descent Unit := do
  endLine (← nextToken)

/-! ### Expressions -/

/-- One round of reading an expression, given how an expression is read and what follows a name: the
next item, or the token at which the expression ends. -/
def item (inner : Descent (Node × Stop)) (reference : String → Descent Node) :
    Descent (Item ⊕ Stop) := do
  let stop ← nextToken
  match stop.kind? with
  | some (.number n) => return .inl (.operand (.number n) stop.position)
  | some (.boolean b) => return .inl (.operand (.boolean b) stop.position)
  | some (.text s) => return .inl (.operand (.text s) stop.position)
  | some (.operator o) => return .inl (.operator o stop.position)
  | some (.identifier name) => return .inl (.operand (← reference name) stop.position)
  | some (.punctuator .openParenthesis) => do
    let (node, closing) ← inner
    if closing.is (.punctuator .closeParenthesis) then return .inl (.operand node stop.position)
    else expected .closeParenthesis closing
  | some (.punctuator .assignment) =>
    fail ⟨.unexpectedToken (.punctuator .assignment), stop.position⟩
  | some (.punctuator .openBracket) =>
    fail ⟨.unexpectedToken (.punctuator .openBracket), stop.position⟩
  | some (.keyword keyword) =>
    if keyword.isTerminator then return .inr stop
    else fail ⟨.unexpectedKeyword keyword, stop.position⟩
  | _ => return .inr stop

/-- One round of reading arguments, given how an expression is read: whether another one follows, and
the argument. -/
def argument (inner : Descent (Node × Stop)) : Descent (Bool × Node) := do
  let (node, stop) ← inner
  if stop.is (.punctuator .comma) then return (true, node)
  else if stop.is (.punctuator .closeParenthesis) then return (false, node)
  else expected .commaOrCloseParenthesis stop

/-- One round of reading indices, given how an expression is read: the index that follows directly,
if there is one. -/
def index (inner : Descent (Node × Stop)) : Descent (Option Node) := do
  if (← peekChar) = some '[' then
    let _ ← nextToken
    let (node, stop) ← inner
    if stop.is (.punctuator .closeBracket) then return some node
    else expected .closeBracket stop
  else return none

mutual

/-- Reads the rest of an expression, of which some items are read, the last one first.  The token at
which the expression ends is read as well. -/
def expression : Nat → SourceLine → List Item → Descent (Node × Stop)
  | 0, _, _ => exhausted
  | depth + 1, line, run => do
    match ← item (expression depth line []) (reference depth line) with
    | .inl item => expression depth line (item :: run)
    | .inr stop => return (← ofExcept (Reader.tree line { run } stop), stop)

/-- Reads what follows a name in an expression: the arguments of a call if a parenthesis stands
directly behind the name, and indices otherwise. -/
def reference : Nat → SourceLine → String → Descent Node
  | 0, _, _ => exhausted
  | depth + 1, line, name => do
    if (← peekChar) = some '(' then
      let _ ← nextToken
      return .call name (← arguments depth line) line
    else return .var name (← indices depth line [])

/-- Reads arguments, if there are any, and the closing parenthesis. -/
def arguments : Nat → SourceLine → Descent (List Node)
  | 0, _ => exhausted
  | depth + 1, line => do
    if (← peekToken).is (.punctuator .closeParenthesis) then
      let _ ← nextToken
      return []
    else argumentList depth line []

/-- Reads further arguments, of which there is at least one, and the closing parenthesis. -/
def argumentList : Nat → SourceLine → List Node → Descent (List Node)
  | 0, _, _ => exhausted
  | depth + 1, line, before => do
    let (goesOn, node) ← argument (expression depth line [])
    if goesOn then argumentList depth line (node :: before) else return (node :: before).reverse

/-- Reads indices as long as the next one follows directly. -/
def indices : Nat → SourceLine → List Node → Descent (List Node)
  | 0, _, _ => exhausted
  | depth + 1, line, before => do
    match ← index (expression depth line []) with
    | some node => indices depth line (node :: before)
    | none => return before.reverse

end

/-! ### Statements -/

/-- Reads an expression that takes the rest of the line. -/
def expressionToEnd (depth : Nat) (line : SourceLine) : Descent Node := do
  let (node, stop) ← expression depth line []
  endLine stop
  return node

/-- Reads the expression of a heading, the keyword that closes it and the end of the line. -/
def headingExpression (depth : Nat) (closing : Keyword) (line : SourceLine) : Descent Node := do
  let (node, stop) ← expression depth line []
  if stop.is (.keyword closing) then
    finishLine
    return node
  else fail ⟨.expectedKeyword closing stop.found, stop.position⟩

/-- Reads a name. -/
def takeName (place : NamePlace) : Descent String := do
  let stop ← nextToken
  match stop.kind? with
  | some (.identifier name) => return name
  | _ => fail ⟨.expectedName place stop.found, stop.position⟩

/-- Reads a fixed punctuator. -/
def takePunctuator (punctuator : Punctuator) (wanted : Wanted) : Descent Unit := do
  let stop ← nextToken
  if stop.is (.punctuator punctuator) then return
  else expected wanted stop

/-- Passes a comma, if the next token is one. -/
def skipComma : Descent Unit := do
  if (← peekToken).is (.punctuator .comma) then
    let _ ← nextToken

/-- Passes the range symbol, given what the expression before it stopped at.  A comma may stand on
either side of the symbol. -/
def takeRange (stop : Stop) : Descent Unit := do
  if stop.isRange then skipComma
  else if stop.is (.punctuator .comma) then
    let stop ← nextToken
    if stop.isRange then skipComma else expected .rangeSymbol stop
  else expected .rangeSymbol stop

/-- Reads the heading of a `dla` loop behind its keyword. -/
def rangeHeading (depth : Nat) (line : SourceLine) : Descent Heading := do
  let name ← takeName .dla
  takePunctuator .assignment .assignment
  let (first, stop) ← expression depth line []
  takeRange stop
  let last ← headingExpression depth .wykonuj line
  return .range name first last

/-- Reads further parameters, of which there is at least one, and the closing parenthesis. -/
def parameters : Nat → List String → Descent (List String)
  | 0, _ => exhausted
  | depth + 1, before => do
    let name ← takeName .parameter
    let stop ← nextToken
    if stop.is (.punctuator .comma) then parameters depth (name :: before)
    else if stop.is (.punctuator .closeParenthesis) then return (name :: before).reverse
    else expected .commaOrCloseParenthesis stop

/-- Reads parameters, if there are any, and the closing parenthesis. -/
def parameterList (depth : Nat) : Descent (List String) := do
  if (← peekToken).is (.punctuator .closeParenthesis) then
    let _ ← nextToken
    return []
  else parameters depth []

/-- Reads the heading of a function or procedure behind its keyword. -/
def routineHeading (depth : Nat) (isProcedure : Bool) : Descent Heading := do
  let name ← takeName (if isProcedure then .procedura else .funkcja)
  takePunctuator .openParenthesis .openParenthesis
  let names ← parameterList depth
  finishLine
  return .routine name names isProcedure

/-- Reads the value that `zwróć` gives back, if there is one. -/
def returnedValue (depth : Nat) (line : SourceLine) : Descent (Option Node) := do
  match (← peekToken).kind? with
  | none | some .endOfLine => do
    finishLine
    return none
  | some _ => return some (← expressionToEnd depth line)

/-- Reads the statement that a keyword at the given position opens. -/
def ofKeyword (depth : Nat) (line : SourceLine) (position : Position) : Keyword → Descent Form
  | .pisz => return .simple (.command .print (some (← expressionToEnd depth line)) line)
  | .czytaj => return .simple (.command .read (some (← expressionToEnd depth line)) line)
  | .koniec => do
    finishLine
    return .simple (.command .stop none line)
  | .jezeli => return .heading (.condition (← headingExpression depth .to line))
  | .dopoki => return .heading (.whileLoop (← headingExpression depth .wykonuj line))
  | .dla => return .heading (← rangeHeading depth line)
  | .funkcja => return .heading (← routineHeading depth false)
  | .procedura => return .heading (← routineHeading depth true)
  | .zwroc => do
    if (← get).routines = 0 then fail ⟨.returnOutsideFunction, position⟩
    return .simple (.giveBack (← returnedValue depth line) line)
  | .wpp => fail ⟨.unexpectedKeyword .wpp, position⟩
  | .to => fail ⟨.unexpectedKeyword .to, position⟩
  | .wykonuj => fail ⟨.unexpectedKeyword .wykonuj, position⟩

/-- Reads the indices of a name and the assignment sign behind them.  The answer is `none` if this
is no assignment, and the cursor may then be anywhere on the line. -/
def target (depth : Nat) (line : SourceLine) : Descent (Option (List Node)) := do
  if (← peekChar) = some '(' then return none
  let indices ← indices depth line []
  if (← peekToken).is (.punctuator .assignment) then
    let _ ← nextToken
    return some indices
  else return none

/-- Reads a statement whose first token is read already, up to the end of its line. -/
def form (depth : Nat) (line : SourceLine) (position : Position) : TokenKind → Descent Form
  | .keyword keyword => ofKeyword depth line position keyword
  | .identifier name => do
    match ← target depth line with
    | some indices =>
      return .simple (.assignment name indices (← expressionToEnd depth line) false line)
    | none => do
      move (·.restore position)
      return .simple (← expressionToEnd depth line)
  | _ => do
    move (·.restore position)
    return .simple (← expressionToEnd depth line)

/-! ### Blocks -/

/-- The unit of indentation that is known, or that the line under the cursor fixes. -/
def knownUnit (level : Nat) : Descent (Option IndentUnit) := do
  let parser ← get
  match parser.unit with
  | some unit => return some unit
  | none => ofExcept (IndentUnit.discover (parser.cursor.line + 1) level parser.cursor.rest)

/-- Whether the line under the cursor belongs to a block of the given level.  If it does, the cursor
moves over its indentation. -/
def measure (level : Nat) : Descent Bool := do
  let cursor := (← get).cursor
  let number := cursor.line + 1
  if level = 0 then
    if cursor.rest.head?.any Text.isBlank then fail ⟨.unexpectedIndentation, ⟨number, 1⟩⟩
    return true
  match ← knownUnit level with
  | none => return false
  | some unit => do
    modify fun parser => { parser with unit := some unit }
    if (← ofExcept (unit.depth number level cursor.rest)) < level then
      move Cursor.rewindLine
      return false
    else
      move (·.skip (unit.width * level))
      return true

/-- Whether the line under the cursor belongs to a block of the given level and starts with `wpp`.  If
not, the cursor goes back. -/
def findAlternative (level : Nat) : Descent Bool := do
  let cursor := (← get).cursor
  if cursor.atEndOfInput then return false
  else if ← measure level then
    if (← peekToken).is (.keyword .wpp) then return true
    else
      move (·.restore cursor.position)
      return false
  else
    move (·.restore cursor.position)
    return false

/-- Counts a function or procedure as open. -/
def enter (heading : Heading) : Descent Unit :=
  modify fun parser =>
    { parser with routines := parser.routines + (if heading.isRoutine then 1 else 0) }

/-- Counts it as open no more. -/
def leave (heading : Heading) : Descent Unit :=
  modify fun parser =>
    { parser with routines := parser.routines - (if heading.isRoutine then 1 else 0) }

/-- The nodes of a `jeżeli` with its other block, if there is one. -/
def conditionNodes (test : Node) (nodes : List Node) (line : SourceLine) :
    Option (List Node) → List Node
  | some others => (Heading.alternative test nodes).nodes line others
  | none => (Heading.condition test).nodes line nodes

/-- Reads what belongs to a heading, given how its block is read, and the other block of a `jeżeli`
if it follows. -/
def headed (block : Descent (List Node)) (alternative : Descent (Option (List Node)))
    (line : SourceLine) (heading : Heading) : Descent (List Node) := do
  enter heading
  let nodes ← block
  leave heading
  match heading with
  | .condition test => return conditionNodes test nodes line (← alternative)
  | heading => return heading.nodes line nodes

/-- Reads the block of a statement if it has one. -/
def taken (block : Descent (List Node)) (alternative : Descent (Option (List Node)))
    (line : SourceLine) : Form → Descent (List Node)
  | .simple node => return [node, .endOfLine]
  | .heading heading => headed block alternative line heading

mutual

/-- Reads the rows of a block, of which some nodes are read, the last one first. -/
def body : Nat → Nat → List Node → Descent (List Node)
  | 0, _, _ => exhausted
  | depth + 1, level, nodes => do
    let (goesOn, nodes) ← pass depth level nodes
    if goesOn then body depth level nodes else return nodes.reverse

/-- One round of reading the rows of a block: whether the block may go on, and its nodes. -/
def pass : Nat → Nat → List Node → Descent (Bool × List Node)
  | 0, _, _ => exhausted
  | depth + 1, level, nodes => do
    let cursor := (← get).cursor
    if cursor.atEndOfInput then return (false, nodes)
    else if cursor.restIsBlank then
      move (·.nextLine.2)
      return (cursor.nextLine.1, .endOfLine :: nodes)
    else if ← measure level then
      return (true, (← statement depth level).reverse ++ nodes)
    else return (false, nodes)

/-- Reads a statement, with its block if it has one. -/
def statement : Nat → Nat → Descent (List Node)
  | 0, _ => exhausted
  | depth + 1, level => do
    let line := (← get).cursor.currentLine
    let stop ← nextToken
    match stop.kind? with
    | none => return []
    | some kind => do
      let form ← form depth line stop.position kind
      taken (block depth (level + 1)) (alternative depth level) line form

/-- Reads a block, which must hold a statement. -/
def block : Nat → Nat → Descent (List Node)
  | 0, _ => exhausted
  | depth + 1, level => do
    let start := (← get).cursor.position
    let nodes ← body depth level []
    if nodes.all Node.isEndOfLine then fail ⟨.emptyBlock, start⟩
    return nodes

/-- Reads `wpp` and the block that belongs to it, if they follow. -/
def alternative : Nat → Nat → Descent (Option (List Node))
  | 0, _ => exhausted
  | depth + 1, level => do
    if ← findAlternative level then
      let _ ← nextToken
      finishLine
      return some (← block depth (level + 1))
    else return none

end

/-- Reads a whole text. -/
def parse (depth : Nat) (symbol : List Char) (text : String) :
    Option (Except SyntaxError (List Node)) :=
  (body depth 0 []).run' { symbol, cursor := .ofText text }

end Descent

end Tablica
