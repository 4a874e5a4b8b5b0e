/-!
# Operators

Eleven operators stand between two operands.  They bind in three strengths:
comparisons weakest, then `+` and `-`, then `*`, `div` and `mod`.

* `Operator`, `Precedence` — the operators and the strengths;
* `Operator.symbol`, `Operator.ofSymbol?` — from an operator to its symbol and back;
* `Operator.precedence` — how strongly an operator binds;
* `Operator.isSign` — whether an expression may start with it.
-/

namespace Tablica

/-- How strongly an operator binds, weakest first. -/
inductive Precedence
  | comparison | additive | multiplicative
deriving DecidableEq, Repr, Inhabited

namespace Precedence

/-- The place in the order of strengths. -/
def rank : Precedence → Nat
  | comparison => 0
  | additive => 1
  | multiplicative => 2

/-- The next stronger one. -/
def tighter? : Precedence → Option Precedence
  | comparison => some additive
  | additive => some multiplicative
  | multiplicative => none

/-- What is tighter has the next rank. -/
theorem rank_tighter {p q : Precedence} (h : p.tighter? = some q) : q.rank = p.rank + 1 := by
  cases p <;> cases q <;> simp_all [tighter?, rank]

end Precedence

inductive Operator
  | add | subtract | multiply | divide | modulo
  | equal | notEqual | less | greater | lessOrEqual | greaterOrEqual
deriving DecidableEq, Repr, Inhabited

namespace Operator

/-- The operator as it stands in a program. -/
def symbol : Operator → String
  | add => "+"
  | subtract => "-"
  | multiply => "*"
  | divide => "div"
  | modulo => "mod"
  | equal => "="
  | notEqual => "!="
  | less => "<"
  | greater => ">"
  | lessOrEqual => "<="
  | greaterOrEqual => ">="

/-- Every operator, once. -/
def all : List Operator :=
  [add, subtract, multiply, divide, modulo, equal, notEqual, less, greater, lessOrEqual,
    greaterOrEqual]

/-- The operator with the given symbol. -/
def ofSymbol? (symbol : String) : Option Operator :=
  all.find? fun operator => operator.symbol = symbol

/-- The operator that a word spells; the others are not spelled with letters. -/
def ofWord? (word : String) : Option Operator :=
  [divide, modulo].find? fun operator => operator.symbol = word

def precedence : Operator → Precedence
  | multiply | divide | modulo => .multiplicative
  | add | subtract => .additive
  | _ => .comparison

def isComparison (operator : Operator) : Bool :=
  operator.precedence = .comparison

/-- Whether the operator may start an expression, where it follows an implicit zero. -/
def isSign : Operator → Bool
  | add | subtract => true
  | _ => false

/-- Reading a symbol gives back the operator that is written with it. -/
theorem ofSymbol?_symbol (operator : Operator) : ofSymbol? operator.symbol = some operator := by
  cases operator <;> decide

/-- Exactly the additive operators are signs. -/
theorem isSign_iff {operator : Operator} : operator.isSign ↔ operator.precedence = .additive := by
  cases operator <;> simp [isSign, precedence]

end Operator

end Tablica
