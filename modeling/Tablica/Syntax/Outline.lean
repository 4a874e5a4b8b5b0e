import Tablica.Log
import Tablica.Syntax.Indentation
import Tablica.Syntax.Statement

/-!
# Reading a program

A program is read row by row.  The blocks that are open wait on a stack; each layer
of it remembers the heading of its block and the nodes that stand before the heading
in the block around it.  What one row does depends on its depth only:

1. a blank row, or one that holds a comment, leaves a mark in the innermost block;
2. any other row first ends the blocks that are deeper than itself;
3. if it holds `wpp` and the last block that it ended belongs to a `jeżeli`, it opens
   the other block of that `jeżeli`;
4. otherwise it adds its statement to the innermost block that is still open, or opens
   a new block.

A block that ends without a node other than marks is a fault.

* `Layer`, `Outline` — the stack and the state of the reading;
* `Narrated` — a computation that may meet a fault and that leaves a log;
* `Outline.readRow` — what one row does;
* `Program.read`, `Program.parse` — reading a whole text, with its log and without.
-/

namespace Tablica

/-- An open block.  `start` is where it has to begin, and `before` holds the nodes of the block
around it so far, the last one first. -/
structure Layer where
  heading : Heading
  line : SourceLine
  start : Position
  before : List Node
deriving Inhabited

/-- A program of which some rows are read.  `nodes` are those of the innermost block, the last
one first, and `layers` the open blocks, the innermost first. -/
structure Outline where
  unit : Option IndentUnit := none
  nodes : List Node := []
  layers : List Layer := []
deriving Inhabited

/-- A computation that leaves log records, the last one first, and may meet a fault. -/
abbrev Narrated := EStateM Fault (List LogRecord)

/-- Leaves a record. -/
def Narrated.note (r : LogRecord) : Narrated Unit :=
  modify (r :: ·)

open Narrated (note)

namespace Outline

/-- How many blocks are open. -/
def level (outline : Outline) : Nat :=
  outline.layers.length

/-- Whether the innermost block is part of a function or procedure. -/
def inRoutine (outline : Outline) : Bool :=
  outline.layers.any (·.heading.isRoutine)

/-- Adds nodes to the innermost block. -/
def append (outline : Outline) (nodes : List Node) : Outline :=
  { outline with nodes := nodes.reverse ++ outline.nodes }

/-- Opens a block. -/
def openBlock (outline : Outline) (heading : Heading) (line : SourceLine) (start : Position) :
    Outline :=
  { outline with nodes := [], layers := ⟨heading, line, start, outline.nodes⟩ :: outline.layers }

/-- Checks that the innermost block, of the given layer and level, is not empty. -/
def checkBlock (layer : Layer) (level : Nat) (nodes : List Node) : Narrated Unit := do
  if nodes.all Node.isEndOfLine then throw ⟨.emptyBlock, layer.start⟩
  note (.blockEnded level nodes.length)

/-- Ends blocks until no more than `depth` are open, and answers the layers and nodes then. -/
def closeTo (depth : Nat) : List Layer → List Node → Narrated (List Layer × List Node)
  | [], nodes => return ([], nodes)
  | layer :: layers, nodes => do
    if layers.length < depth then return (layer :: layers, nodes)
    checkBlock layer (layers.length + 1) nodes
    closeTo depth layers ((layer.heading.nodes layer.line nodes.reverse).reverse ++ layer.before)

/-- Ends all blocks that are deeper than `depth`. -/
def close (depth : Nat) (outline : Outline) : Narrated Outline := do
  let (layers, nodes) ← closeTo depth outline.layers outline.nodes
  return { outline with nodes, layers }

/-- The depth of a row, and the outline with the unit of indentation if the row fixes it. -/
def measure (row : Row) (outline : Outline) : Narrated (Nat × Outline) := do
  let number := row.line.number
  if outline.level = 0 then
    if row.chars.head?.any Text.isBlank then throw ⟨.unexpectedIndentation, ⟨number, 1⟩⟩
    return (0, outline)
  let unit ←
    match outline.unit with
    | some unit => pure (some unit)
    | none =>
      let found ← ofExcept (IndentUnit.discover number outline.level row.chars)
      if let some unit := found then note (.indentationFound unit.character unit.width)
      pure found
  match unit with
  | none => return (0, outline)
  | some unit =>
    let depth ← ofExcept (unit.depth number outline.level row.chars)
    return (depth, { outline with unit })

/-- Where a block begins whose heading stands on the given row: on the next row, or at the end of
the last one. -/
def blockStart (row : Row) : Position :=
  if row.isLast then ⟨row.line.number, row.chars.length + 1⟩ else ⟨row.line.number + 1, 1⟩

/-- Adds the statement of a row to the innermost block. -/
def readStatement (row : Row) (lexemes : Lexemes) (outline : Outline) : Narrated Outline := do
  if let .token token _ :: _ := lexemes.items then note (.statementStarted token)
  match ← ofExcept (readForm row.line outline.inRoutine lexemes) with
  | .simple node => return outline.append [node, .endOfLine]
  | .heading heading => return outline.openBlock heading row.line (blockStart row)

/-- Whether the row goes on with the `jeżeli` whose block it ends. -/
def startsAlternative (lexemes : Lexemes) : Bool :=
  match lexemes.items with
  | .token ⟨.keyword .wpp, _⟩ _ :: _ => true
  | _ => false

/-- How many characters indent a row of the given depth. -/
def indentOf (outline : Outline) (depth : Nat) : Nat :=
  match outline.unit with
  | some unit => unit.width * depth
  | none => 0

/-- Reads a row that holds a statement. -/
def readFilled (symbol : List Char) (row : Row) (outline : Outline) : Narrated Outline := do
  let (depth, outline) ← outline.measure row
  let lexemes := row.lexemes symbol (outline.indentOf depth)
  let outline ← outline.close (depth + 1)
  match outline.layers with
  | ⟨.condition test, line, start, before⟩ :: layers =>
    if layers.length = depth && startsAlternative lexemes then
      checkBlock ⟨.condition test, line, start, before⟩ (depth + 1) outline.nodes
      ofExcept (Form.finishLine lexemes.ending lexemes.items.tail)
      let thenBlock := outline.nodes.reverse
      return { outline with
        nodes := []
        layers := ⟨.alternative test thenBlock, line, blockStart row, before⟩ :: layers }
    else (← outline.close depth).readStatement row lexemes
  | _ => (← outline.close depth).readStatement row lexemes

/-- Reads a row. -/
def readRow (symbol : List Char) (outline : Outline) (row : Row) : Narrated Outline :=
  if row.isBlank then return outline.append [.endOfLine]
  else outline.readFilled symbol row

end Outline

namespace Program

/-- The rows that are read: all of them, but the last one only if it holds a character. -/
def rows (text : String) : List Row :=
  (Row.ofText text).filter fun row => !(row.isLast && row.line.text.isEmpty)

/-- Reads rows into nodes. -/
def readRows (symbol : List Char) (rows : List Row) : Narrated (List Node) := do
  let outline ← rows.foldlM (Outline.readRow symbol) {}
  let outline ← outline.close 0
  let nodes := outline.nodes.reverse
  note (.parsed nodes.length)
  return nodes

/-- Reads a text with the given range symbol, and answers the program or the error, and the log,
oldest record first. -/
def read (symbol : List Char) (text : String) :
    Except SyntaxError (List Node) × List LogRecord :=
  match (readRows symbol (rows text)).run [] with
  | .ok nodes log => (.ok nodes, log.reverse)
  | .error fault log => (.error (.ofFault (Source.lines text) fault), log.reverse)

/-- Reads a text with the given range symbol. -/
def parse (symbol : List Char) (text : String) : Except SyntaxError (List Node) :=
  (read symbol text).1

end Program

end Tablica
