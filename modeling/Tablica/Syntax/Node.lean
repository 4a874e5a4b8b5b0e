import Tablica.Token.Basic

/-!
# Program trees

A program is a list of nodes, and a node is an expression, a statement or a mark.
One type holds them all: which nodes may stand where is decided by those who build
a tree and by those who run it.  Nodes whose execution can go wrong keep the line
they were read from.

A `dla` loop has no node of its own.  It is an assignment that binds the iterator,
followed by a loop whose body ends with an `increment`.

* `Command` — the statements `pisz`, `czytaj` and `koniec`;
* `Node` — the trees;
* `Node.name` — the word for a kind of node;
* `Node.sourceLines` — the lines that a tree remembers, in the order of the program.
-/

namespace Tablica

/-- A statement that acts on the console or ends the program. -/
inductive Command
  | print | read | stop
deriving DecidableEq, Repr, Inhabited

/-- The keyword of a command. -/
def Command.keyword : Command → Keyword
  | print => .pisz
  | read => .czytaj
  | stop => .koniec

inductive Node
  | number (value : Number)
  | text (value : String)
  | boolean (value : Bool)
  | var (name : String) (indices : List Node)
  | operation (operator : Operator) (left right : Node) (line : SourceLine)
  | call (name : String) (arguments : List Node) (line : SourceLine)
  | assignment (name : String) (indices : List Node) (value : Node) (isIterator : Bool)
      (line : SourceLine)
  | command (command : Command) (argument : Option Node) (line : SourceLine)
  | condition (test : Node) (thenBlock : List Node) (elseBlock : Option (List Node))
      (line : SourceLine)
  | loop (test : Node) (body : List Node) (iterator : Option String) (line : SourceLine)
  | routine (name : String) (parameters : List String) (body : List Node) (isProcedure : Bool)
      (line : SourceLine)
  | giveBack (value : Option Node) (line : SourceLine)
  | increment (name : String) (line : SourceLine)
  | endOfLine
deriving Inhabited

namespace Node

/-- The word for a kind of node. -/
def name : Node → String
  | number _ => "Int"
  | text _ => "Str"
  | boolean _ => "Bool"
  | var _ _ => "Variable"
  | operation _ _ _ _ => "Operation"
  | call _ _ _ => "Call"
  | assignment _ _ _ _ _ => "Assignment"
  | command _ _ _ => "Statement"
  | condition _ _ _ _ => "Condition"
  | loop _ _ _ _ => "Loop"
  | routine _ _ _ _ _ => "FunctionDef"
  | giveBack _ _ => "Return"
  | increment _ _ => "Increment"
  | endOfLine => "EndOfLine"

/-- Whether the node is a mark for a consumed line. -/
def isEndOfLine : Node → Bool
  | endOfLine => true
  | _ => false

/-- Whether the node is a variable or an element of an array. -/
def isVariable : Node → Bool
  | var _ _ => true
  | _ => false

mutual

/-- The lines that a tree remembers. -/
def sourceLines : Node → List SourceLine
  | number _ | text _ | boolean _ | endOfLine => []
  | var _ indices => sourceLinesOfList indices
  | operation _ left right line => line :: (sourceLines left ++ sourceLines right)
  | call _ arguments line => line :: sourceLinesOfList arguments
  | assignment _ indices value _ line =>
    line :: (sourceLinesOfList indices ++ sourceLines value)
  | command _ argument line => line :: sourceLinesOfOption argument
  | condition test thenBlock elseBlock line =>
    line :: (sourceLines test ++ sourceLinesOfList thenBlock ++ sourceLinesOfBlock elseBlock)
  | loop test body _ line => line :: (sourceLines test ++ sourceLinesOfList body)
  | routine _ _ body _ line => line :: sourceLinesOfList body
  | giveBack value line => line :: sourceLinesOfOption value
  | increment _ line => [line]

/-- The lines that the trees of a list remember. -/
def sourceLinesOfList : List Node → List SourceLine
  | [] => []
  | node :: rest => sourceLines node ++ sourceLinesOfList rest

/-- The lines that a tree remembers, if there is one. -/
def sourceLinesOfOption : Option Node → List SourceLine
  | none => []
  | some node => sourceLines node

/-- The lines that the trees of a block remember, if there is one. -/
def sourceLinesOfBlock : Option (List Node) → List SourceLine
  | none => []
  | some block => sourceLinesOfList block

end

end Node

end Tablica
