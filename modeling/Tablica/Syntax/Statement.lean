import Tablica.Syntax.Expression

/-!
# Reading a statement

A statement fills one line.  It is either **simple**, and then the line is all there
is to it, or it is the **heading** of a block, and then the lines that follow, indented
deeper, belong to it.  The first token decides: a keyword opens the statement that it
names; a name may open an assignment; anything else is an expression that is evaluated
for its effect.

`wpp` is no statement of its own.  It is read where a block ends, and refused here.

* `Heading` — the headings, `Form` — what a line can hold;
* `Heading.nodes` — the nodes of a heading and its block;
* `readForm` — reading a line.
-/

namespace Tablica

/-- What a block belongs to.  The block of an `alternative` is the one after `wpp`; the block
before it is complete. -/
inductive Heading
  | condition (test : Node)
  | alternative (test : Node) (thenBlock : List Node)
  | whileLoop (test : Node)
  | range (name : String) (first last : Node)
  | routine (name : String) (parameters : List String) (isProcedure : Bool)
deriving Inhabited

namespace Heading

/-- Whether `zwróć` may stand in the block. -/
def isRoutine : Heading → Bool
  | routine _ _ _ => true
  | _ => false

/-- The nodes that a heading on the given line makes of its block.  A `dla` loop binds its
iterator and then runs as long as the iterator has not passed the last value. -/
def nodes (line : SourceLine) (block : List Node) : Heading → List Node
  | condition test => [.condition test block none line]
  | alternative test thenBlock => [.condition test thenBlock (some block) line]
  | whileLoop test => [.loop test block none line]
  | range name first last =>
    [.assignment name [] first true line,
      .loop (.operation .lessOrEqual (.var name []) last line)
        (block ++ [.increment name line]) (some name) line]
  | routine name parameters isProcedure => [.routine name parameters block isProcedure line]

end Heading

/-- What a line holds. -/
inductive Form
  | simple (node : Node)
  | heading (heading : Heading)
deriving Inhabited

namespace Form

/-- Checks that nothing is left of the line. -/
def finishLine (ending : Ending) (items : List Lexeme) : Except Fault Unit :=
  (Stop.next ending items).bind Stop.endLine

/-- Reads an expression that takes the rest of the line. -/
def expressionToEnd (line : SourceLine) (ending : Ending) (items : List Lexeme) :
    Except Fault Node := do
  let (node, stop) ← (readExpression line ending items).1
  stop.endLine
  return node

/-- Reads the expression of a heading, the keyword that closes it and the end of the line. -/
def headingExpression (closing : Keyword) (line : SourceLine) (ending : Ending)
    (items : List Lexeme) : Except Fault Node := do
  let (result, rest) := readExpression line ending items
  let (node, stop) ← result
  if stop.is (.keyword closing) then
    finishLine ending rest
    return node
  else throw ⟨.expectedKeyword closing stop.found, stop.position⟩

/-- Reads a name. -/
def takeName (place : NamePlace) (ending : Ending) (items : List Lexeme) :
    Except Fault (String × List Lexeme) := do
  let stop ← Stop.next ending items
  match stop.kind? with
  | some (.identifier name) => return (name, items.tail)
  | _ => throw ⟨.expectedName place stop.found, stop.position⟩

/-- Reads a fixed punctuator. -/
def takePunctuator (punctuator : Punctuator) (wanted : Wanted) (ending : Ending)
    (items : List Lexeme) : Except Fault (List Lexeme) := do
  let stop ← Stop.next ending items
  if stop.is (.punctuator punctuator) then return items.tail
  else throw ⟨.expected wanted stop.found, stop.position⟩

/-- The lexemes without a comma at their front. -/
def dropComma : List Lexeme → List Lexeme
  | .token ⟨.punctuator .comma, _⟩ _ :: rest => rest
  | items => items

/-- Passes the range symbol, given what the expression before it stopped at.  A comma may stand
on either side of the symbol. -/
def takeRange (ending : Ending) (stop : Stop) (items : List Lexeme) :
    Except Fault (List Lexeme) := do
  if stop.isRange then return dropComma items
  if stop.is (.punctuator .comma) then
    let stop ← Stop.next ending items
    if stop.isRange then return dropComma items.tail
    throw ⟨.expected .rangeSymbol stop.found, stop.position⟩
  throw ⟨.expected .rangeSymbol stop.found, stop.position⟩

/-- Reads the heading of a `dla` loop behind its keyword. -/
def rangeHeading (line : SourceLine) (ending : Ending) (items : List Lexeme) :
    Except Fault Heading := do
  let (name, items) ← takeName .dla ending items
  let items ← takePunctuator .assignment .assignment ending items
  let (result, items) := readExpression line ending items
  let (first, stop) ← result
  let items ← takeRange ending stop items
  let last ← headingExpression .wykonuj line ending items
  return .range name first last

/-- Reads parameters, of which there is at least one, and the closing parenthesis. -/
def takeParameters (ending : Ending) : List Lexeme → Except Fault (List String × List Lexeme)
  | .token ⟨.identifier name, _⟩ _ :: .token ⟨.punctuator .comma, _⟩ _ :: rest =>
    (takeParameters ending rest).map fun (names, rest) => (name :: names, rest)
  | .token ⟨.identifier name, _⟩ _ :: .token ⟨.punctuator .closeParenthesis, _⟩ _ :: rest =>
    .ok ([name], rest)
  | .token ⟨.identifier _, _⟩ _ :: rest =>
    (Stop.next ending rest).bind fun stop =>
      .error ⟨.expected .commaOrCloseParenthesis stop.found, stop.position⟩
  | items =>
    (Stop.next ending items).bind fun stop =>
      .error ⟨.expectedName .parameter stop.found, stop.position⟩

/-- Reads the heading of a function or procedure behind its keyword. -/
def routineHeading (isProcedure : Bool) (ending : Ending) (items : List Lexeme) :
    Except Fault Heading := do
  let (name, items) ← takeName (if isProcedure then .procedura else .funkcja) ending items
  let items ← takePunctuator .openParenthesis .openParenthesis ending items
  let (parameters, items) ←
    match items with
    | .token ⟨.punctuator .closeParenthesis, _⟩ _ :: rest => pure ([], rest)
    | items => takeParameters ending items
  finishLine ending items
  return .routine name parameters isProcedure

/-- Reads the statement that a keyword at the given position opens, from the lexemes behind it. -/
def ofKeyword (line : SourceLine) (inRoutine : Bool) (position : Position) (ending : Ending)
    (items : List Lexeme) : Keyword → Except Fault Form
  | .pisz => return .simple (.command .print (some (← expressionToEnd line ending items)) line)
  | .czytaj => return .simple (.command .read (some (← expressionToEnd line ending items)) line)
  | .koniec => do
    finishLine ending items
    return .simple (.command .stop none line)
  | .jezeli => return .heading (.condition (← headingExpression .to line ending items))
  | .dopoki => return .heading (.whileLoop (← headingExpression .wykonuj line ending items))
  | .dla => return .heading (← rangeHeading line ending items)
  | .funkcja => return .heading (← routineHeading false ending items)
  | .procedura => return .heading (← routineHeading true ending items)
  | .zwroc => do
    if !inRoutine then throw ⟨.returnOutsideFunction, position⟩
    let stop ← Stop.next ending items
    match stop.kind? with
    | none | some .endOfLine => return .simple (.giveBack none line)
    | some _ => return .simple (.giveBack (some (← expressionToEnd line ending items)) line)
  | .wpp => throw ⟨.unexpectedKeyword .wpp, position⟩
  | .to => throw ⟨.unexpectedKeyword .to, position⟩
  | .wykonuj => throw ⟨.unexpectedKeyword .wykonuj, position⟩

/-- Reads a statement that starts with a name: an assignment or an expression. -/
def ofName (line : SourceLine) (ending : Ending) (items : List Lexeme) : Except Fault Form := do
  let (result, rest) := Reader.read line true ending {} items
  let (node, stop) ← result
  match stop.is (.punctuator .assignment), node with
  | true, .var name indices =>
    return .simple (.assignment name indices (← expressionToEnd line ending rest) false line)
  | _, node =>
    stop.endLine
    return .simple node

end Form

/-- Reads the statement on a line.  `inRoutine` says whether the line is part of a function or
procedure. -/
def readForm (line : SourceLine) (inRoutine : Bool) (lexemes : Lexemes) : Except Fault Form :=
  match lexemes.items with
  | .token ⟨.keyword keyword, position⟩ _ :: rest =>
    Form.ofKeyword line inRoutine position lexemes.ending rest keyword
  | .token ⟨.identifier _, _⟩ _ :: _ => Form.ofName line lexemes.ending lexemes.items
  | items => return .simple (← Form.expressionToEnd line lexemes.ending items)

end Tablica
