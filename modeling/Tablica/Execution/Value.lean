import Tablica.Operator
import Tablica.Number
import Tablica.Source.Line
import Tablica.Text.Quoted

/-!
# Values and what operators do with them

A variable holds nothing, a number or a text.  Truth values are numbers: one is true,
zero is false, and everything that is neither zero nor nothing counts as true.

Equality is defined on any two values.  Numbers can be added, subtracted, multiplied,
divided and compared; texts can be joined by `+` and compared character by character;
and a text can be multiplied by a number, on either side, which repeats it.  Any other
combination is a fault, as is a result that does not fit.

* `Value`, `Value.Kind` — the values and their three kinds;
* `RuntimeFault` — what can go wrong while a program runs, with its wording;
* `Value.shown`, `Value.keyFragment` — a value as it is printed, and inside a key;
* `Value.ofInput` — the value of a line typed by a user;
* `Value.apply` — what an operator does.
-/

namespace Tablica

inductive Value
  | nil
  | number (value : Number)
  | text (value : String)
deriving DecidableEq, Repr, Inhabited

/-- The kinds of values. -/
inductive Value.Kind
  | nil | number | text
deriving DecidableEq, Repr, Inhabited

def Value.Kind.name : Value.Kind → String
  | nil => "nil"
  | number => "number"
  | text => "string"

/-- What can go wrong while a program runs. -/
inductive RuntimeFault
  | argumentCount (name : String) (expected found : Nat)
  | assignToIterator (name : String)
  | divisionByZero
  | overflow (operator : Operator)
  | procedureReturnsValue (name : String)
  | readTargetNotVariable
  | recursionLimit (name : String) (limit : Nat)
  | typeMismatch (operator : Operator) (left right : Value.Kind)
  | undefinedFunction (name : String)
deriving DecidableEq, Repr, Inhabited

/-- The wording of a fault. -/
def RuntimeFault.message : RuntimeFault → String
  | argumentCount name expected found =>
    s!"Function `{name}` takes {expected} argument(s), but {found} were given"
  | assignToIterator name => s!"Variable `{name}` is not settable"
  | divisionByZero => "Division by zero"
  | overflow operator => s!"Result of `{operator.symbol}` does not fit in a number"
  | procedureReturnsValue name => s!"Procedure `{name}` cannot return a value"
  | readTargetNotVariable => "`czytaj` needs a variable to read into"
  | recursionLimit name limit => s!"Calling `{name}` goes deeper than {limit} nested calls"
  | typeMismatch operator left right =>
    s!"Cannot do `{operator.symbol}` on {left.name} and {right.name}"
  | undefinedFunction name => s!"Function `{name}` is not defined"

/-- A fault and the line at which it arose. -/
structure RuntimeError where
  kind : RuntimeFault
  line : SourceLine
deriving DecidableEq, Repr, Inhabited

namespace Value

def kind : Value → Kind
  | nil => .nil
  | number _ => .number
  | text _ => .text

/-- The value of a sentence. -/
def ofBool (b : Bool) : Value :=
  number (.ofBool b)

/-- Everything is true but zero and nothing. -/
def isTruthy : Value → Bool
  | nil => false
  | number n => n.val != 0
  | text _ => true

/-- The value as it is printed. -/
def shown : Value → String
  | nil => "nil"
  | number n => n.shown
  | text s => s

/-- The value inside the key of an array element.  Texts are quoted, so that `T["1"]` is not
`T[1]`. -/
def keyFragment : Value → String
  | text s => String.ofList (Text.quote s.toList)
  | value => value.shown

/-- A typed line: a number if it reads as one, white space around it not counted, and otherwise
the text as it is. -/
def ofInput (line : String) : Value :=
  match Number.parse? (Text.trim line.toList) with
  | some n => number n
  | none => text line

/-! ### Operators -/

/-- Whether a comparison holds of two things in the given order. -/
def holds (operator : Operator) (order : Ordering) : Bool :=
  match operator with
  | .less => order = .lt
  | .greater => order = .gt
  | .lessOrEqual => order ≠ .gt
  | .greaterOrEqual => order ≠ .lt
  | .notEqual => order ≠ .eq
  | _ => order = .eq

/-- An operation on two numbers. -/
def applyToNumbers (operator : Operator) (l r : Number) : Except RuntimeFault Value :=
  let fitting (result : Option Number) : Except RuntimeFault Value :=
    match result with
    | some n => .ok (number n)
    | none => .error (.overflow operator)
  match operator with
  | .add => fitting (l.add? r)
  | .subtract => fitting (l.sub? r)
  | .multiply => fitting (l.mul? r)
  | .divide => if r.val = 0 then .error .divisionByZero else fitting (l.div? r)
  | .modulo => if r.val = 0 then .error .divisionByZero else fitting (l.mod? r)
  | _ => .ok (ofBool (holds operator (compare l.val r.val)))

/-- How many bytes a repeated text may take up. -/
def capacity : Nat := 4294967296

/-- The text so many times over, not at all for a negative number. -/
def repeatText (s : String) (count : Number) : Except RuntimeFault Value :=
  let times := count.val.toNat
  if s.isEmpty then .ok (text "")
  else if capacity < s.utf8ByteSize * times then .error (.overflow .multiply)
  else .ok (text (Nat.repeat (· ++ s) times ""))

/-- What an operator does with two values. -/
def apply (operator : Operator) (l r : Value) : Except RuntimeFault Value :=
  match operator, l, r with
  | .equal, l, r => .ok (ofBool (l = r))
  | .notEqual, l, r => .ok (ofBool (l ≠ r))
  | operator, number m, number n => applyToNumbers operator m n
  | .add, text s, text t => .ok (text (s ++ t))
  | .multiply, text s, number n => repeatText s n
  | .multiply, number n, text s => repeatText s n
  | operator, text s, text t =>
    if operator.isComparison then .ok (ofBool (holds operator (compare s t)))
    else .error (.typeMismatch operator .text .text)
  | operator, l, r => .error (.typeMismatch operator l.kind r.kind)

theorem isTruthy_ofBool (b : Bool) : (ofBool b).isTruthy = b := by
  cases b <;> rfl

/-- Equality compares values of any two kinds. -/
theorem apply_equal (l r : Value) : apply .equal l r = .ok (ofBool (l = r)) := rfl

theorem apply_add_numbers (m n : Number) :
    apply .add (number m) (number n)
      = match m.add? n with
        | some k => .ok (number k)
        | none => .error (.overflow .add) := rfl

end Value

end Tablica
