import Tablica.Syntax.Fault
import Tablica.Syntax.Node

/-!
# Runs of operands and operators

Between two brackets, or between a bracket and the end of the line, an expression
is a flat **run** of operands and operators.  A well-formed run alternates, starting
and ending with an operand; a leading `+` or `-` counts as following a zero.

The tree of a run is found in one pass.  Operators whose right operand is not
complete yet wait on a stack, each with its left operand, and they bind ever more
strongly towards the top.  A further operator first takes from the stack all those
that bind at least as strongly as itself, so operators of one strength group from
the left.

* `Item` — an element of a run;
* `Item.pairs`, `Item.split` — the operators of a run with their right operands, or the
  first place at which the run does not alternate;
* `Waiting`, `Waiting.settle` — the stack, and taking from it;
* `Item.tree` — the tree of a run.
-/

namespace Tablica

/-- An element of a run with its position. -/
inductive Item
  | operand (node : Node) (position : Position)
  | operator (operator : Operator) (position : Position)
deriving Inhabited

namespace Item

/-- What follows the first operand, as operators with their right operands. -/
def pairs : List Item → Except Fault (List (Operator × Node))
  | [] => .ok []
  | operand _ position :: _ => .error ⟨.undefinedOperation, position⟩
  | operator o _ :: operand node _ :: rest => (pairs rest).map ((o, node) :: ·)
  | operator o position :: _ => .error ⟨.cannotOperateOnNil o, position⟩

/-- The first operand of a run, and what follows it.  `stop` is where the run ended. -/
def split (stop : Position) : List Item → Except Fault (Node × List (Operator × Node))
  | [] => .error ⟨.expectedExpression .nothing, stop⟩
  | operand node _ :: rest => (pairs rest).map (node, ·)
  | operator o position :: rest =>
    if o.isSign then (pairs (operator o position :: rest)).map (.number .zero, ·)
    else .error ⟨.cannotOperateOnNil o, position⟩

end Item

/-- Left operands and operators that wait for the rest of their right operand, the strongest
first. -/
abbrev Waiting := List (Node × Operator)

/-- Completes, with the given right operand, the waiting operators that bind at least as
strongly as the given rank, and answers what still waits and the right operand now. -/
def Waiting.settle (line : SourceLine) (rank : Nat) : Waiting → Node → Waiting × Node
  | [], right => ([], right)
  | (left, o) :: waiting, right =>
    if rank ≤ o.precedence.rank then settle line rank waiting (.operation o left right line)
    else ((left, o) :: waiting, right)

/-- The tree of a first operand and the pairs after it, under what already waits. -/
def Waiting.fold (line : SourceLine) : Waiting → Node → List (Operator × Node) → Node
  | waiting, last, [] => (waiting.settle line 0 last).2
  | waiting, last, (o, node) :: rest =>
    let (waiting, left) := waiting.settle line o.precedence.rank last
    fold line ((left, o) :: waiting) node rest

/-- The tree of a run that was read from the given line. -/
def Item.tree (line : SourceLine) (stop : Position) (run : List Item) : Except Fault Node :=
  (Item.split stop run).map fun (first, rest) => Waiting.fold line [] first rest

/-- No operator binds more weakly than rank zero, so settling to it leaves nothing waiting. -/
theorem Waiting.settle_zero (line : SourceLine) (waiting : Waiting) (right : Node) :
    (waiting.settle line 0 right).1 = [] := by
  induction waiting generalizing right with
  | nil => rfl
  | cons entry waiting ih => simpa [settle] using ih _

end Tablica
