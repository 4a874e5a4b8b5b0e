import Tablica.Syntax.Operand
import Tablica.Token.Lexeme

/-!
# Reading an expression

An expression is read lexeme by lexeme.  The items of the innermost bracket form
the current run; the brackets that are open around it wait on a stack, each with the
run that it interrupted.  A token either extends the current run, opens a bracket,
or ends the current run.  In the last case the run is folded to a tree, and the
innermost bracket decides what becomes of the tree: an operand, an argument or an
index.  Where no bracket is open the expression is over.

An expression ends at the first token that cannot belong to it: the end of the line,
`to` or `wykonuj`, a closing bracket, a comma or the range symbol.  That token is
read and handed out as the **stop**.

A statement that starts with a name may turn out to be an assignment.  So the same
reader, asked to read a statement, also stops at an assignment sign, if all that was
read before it is a variable.

* `Bracket` — the open brackets, `Reader` — the state of the reading;
* `Stop` — what an expression ended at;
* `Reader.step` — one token; `Reader.read` — lexemes up to the stop.
-/

namespace Tablica

/-- What ended an expression: a token, or the end of the program at a position. -/
structure Stop where
  kind? : Option TokenKind
  position : Position
deriving DecidableEq, Repr, Inhabited

namespace Stop

def ofToken (token : Token) : Stop :=
  ⟨some token.kind, token.position⟩

/-- What the messages say was found. -/
def found (stop : Stop) : Found :=
  match stop.kind? with
  | some kind => .token kind
  | none => .endOfFile

/-- The token, unless the program ended. -/
def token? (stop : Stop) : Option Token :=
  stop.kind?.map (⟨·, stop.position⟩)

/-- Whether the stop is the given kind of token. -/
def is (stop : Stop) (kind : TokenKind) : Bool :=
  stop.kind? == some kind

/-- Whether the stop is the range symbol, however it is spelled. -/
def isRange (stop : Stop) : Bool :=
  match stop.kind? with
  | some (.range _) => true
  | _ => false

/-- What comes next on a line: the first of its lexemes or, if none is left, its ending. -/
def next (ending : Ending) : List Lexeme → Except Fault Stop
  | [] =>
    match ending with
    | .line position => .ok ⟨some .endOfLine, position⟩
    | .input position => .ok ⟨none, position⟩
    | .stuck fault => .error fault
  | .fault fault :: _ => .error fault
  | .token token _ :: _ => .ok (ofToken token)

/-- Refuses a stop at which the line is not over yet. -/
def endLine (stop : Stop) : Except Fault Unit :=
  match stop.kind? with
  | none | some .endOfLine => .ok ()
  | some kind => .error ⟨.unexpectedToken kind, stop.position⟩

end Stop

/-- An open bracket.  What a name opened keeps the name, its position and the arguments or
indices that are complete, the last one first. -/
inductive Bracket
  | parenthesis (position : Position)
  | arguments (name : String) (position : Position) (before : List Node)
  | index (name : String) (position : Position) (before : List Node)
deriving Inhabited

/-- What a bracket waits for. -/
def Bracket.wanted : Bracket → Wanted
  | parenthesis _ => .closeParenthesis
  | arguments _ _ _ => .commaOrCloseParenthesis
  | index _ _ _ => .closeBracket

/-- The state of reading an expression.  `run` holds the current items and `opened` the open
brackets, the last one first; `opening` says that the next token is the bracket that an earlier
one announced. -/
structure Reader where
  run : List Item := []
  opened : List (Bracket × List Item) := []
  opening : Bool := false
deriving Inhabited

namespace Reader

/-- Adds an item to the current run. -/
def push (reader : Reader) (item : Item) : Reader :=
  { reader with run := item :: reader.run }

/-- The tree of the current run, which the given stop ended. -/
def tree (line : SourceLine) (reader : Reader) (stop : Stop) : Except Fault Node :=
  if reader.run.isEmpty then .error ⟨.expectedExpression stop.found, stop.position⟩
  else Item.tree line stop.position reader.run.reverse

/-- Ends the expression at a stop that closes no bracket. -/
def finish (line : SourceLine) (reader : Reader) (stop : Stop) : Except Fault (Node × Stop) :=
  (reader.tree line stop).bind fun node =>
    match reader.opened with
    | [] => .ok (node, stop)
    | (bracket, _) :: _ => .error ⟨.expected bracket.wanted stop.found, stop.position⟩

/-- What one token leads to. -/
inductive Step
  | more (reader : Reader)
  | done (node : Node) (stop : Stop)
deriving Inhabited

/-- Ends the current run at a token, which may close or continue the innermost bracket. -/
def close (line : SourceLine) (reader : Reader) (token : Token) (next : Option Char) :
    Except Fault Step :=
  let stop := Stop.ofToken token
  let operand (node : Node) (position : Position) (run : List Item)
      (opened : List (Bracket × List Item)) : Step :=
    .more { run := .operand node position :: run, opened := opened }
  match token.kind, reader.opened, reader.run with
  | .punctuator .closeParenthesis, (.arguments name position [], run) :: opened, [] =>
    .ok (operand (.call name [] line) position run opened)
  | .punctuator .closeParenthesis, (.arguments name position before, run) :: opened, _ =>
    (reader.tree line stop).map fun node =>
      operand (.call name (node :: before).reverse line) position run opened
  | .punctuator .comma, (.arguments name position before, run) :: opened, _ =>
    (reader.tree line stop).map fun node =>
      .more { opened := (.arguments name position (node :: before), run) :: opened }
  | .punctuator .closeParenthesis, (.parenthesis position, run) :: opened, _ =>
    (reader.tree line stop).map fun node => operand node position run opened
  | .punctuator .closeBracket, (.index name position before, run) :: opened, _ =>
    (reader.tree line stop).map fun node =>
      if next = some '[' then
        .more { opened := (.index name position (node :: before), run) :: opened, opening := true }
      else operand (.var name (node :: before).reverse) position run opened
  | _, _, _ => (reader.finish line stop).map fun (node, stop) => .done node stop

/-- Reads one token; `next` is the character directly after it. -/
def step (line : SourceLine) (isStatement : Bool) (reader : Reader) (token : Token)
    (next : Option Char) : Except Fault Step :=
  let operand (node : Node) : Except Fault Step :=
    .ok (.more (reader.push (.operand node token.position)))
  let opening (bracket : Bracket) (opening : Bool) : Except Fault Step :=
    .ok (.more { opened := (bracket, reader.run) :: reader.opened, opening })
  if reader.opening then .ok (.more { reader with opening := false })
  else
    match token.kind with
    | .number n => operand (.number n)
    | .boolean b => operand (.boolean b)
    | .text s => operand (.text s)
    | .operator o => .ok (.more (reader.push (.operator o token.position)))
    | .identifier name =>
      if next = some '(' then opening (.arguments name token.position []) true
      else if next = some '[' then opening (.index name token.position []) true
      else operand (.var name [])
    | .punctuator .openParenthesis => opening (.parenthesis token.position) false
    | .punctuator .assignment =>
      match isStatement, reader.opened, reader.run with
      | true, [], [.operand (.var name indices) _] =>
        .ok (.done (.var name indices) (Stop.ofToken token))
      | _, _, _ => .error ⟨.unexpectedToken token.kind, token.position⟩
    | .punctuator .openBracket => .error ⟨.unexpectedToken token.kind, token.position⟩
    | .punctuator _ | .range _ | .endOfLine => reader.close line token next
    | .keyword keyword =>
      if keyword.isTerminator then reader.close line token next
      else .error ⟨.unexpectedKeyword keyword, token.position⟩

/-- Whether the next token is only looked at first, because an argument list may end at once. -/
def looksAhead (reader : Reader) : Bool :=
  match reader.opening, reader.opened, reader.run with
  | false, (.arguments _ _ [], _) :: _, [] => true
  | _, _, _ => false

/-- Reads lexemes up to the stop, and answers the tree, the stop and the lexemes that are left.
A fault that was only looked at is left as well. -/
def read (line : SourceLine) (isStatement : Bool) (ending : Ending) (reader : Reader) :
    List Lexeme → Except Fault (Node × Stop) × List Lexeme
  | [] => ((Stop.next ending []).bind (reader.finish line), [])
  | .fault fault :: rest => (.error fault, if reader.looksAhead then .fault fault :: rest else rest)
  | .token token next :: rest =>
    match reader.step line isStatement token next with
    | .error fault => (.error fault, rest)
    | .ok (.done node stop) => (.ok (node, stop), rest)
    | .ok (.more reader) => reader.read line isStatement ending rest

end Reader

/-- Reads one expression from the front of the lexemes, and answers it with its stop and the
lexemes that are left. -/
def readExpression (line : SourceLine) (ending : Ending) (items : List Lexeme) :
    Except Fault (Node × Stop) × List Lexeme :=
  Reader.read line false ending {} items

end Tablica
