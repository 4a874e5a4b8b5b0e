import Tablica.Syntax.Outline

/-!
# Equality of program trees

Two program trees are compared part by part.  So it can be computed whether a text is read as a
given program.

* `Node.same`, `Node.same_iff` — the comparison, and that it decides equality;
* `Program.parse_eq_ok` — what a text is read as.
-/

namespace Tablica

namespace Node

mutual

/-- Whether two trees are the same. -/
def same : Node → Node → Bool
  | number m, number n => m = n
  | text s, text t => s = t
  | boolean b, boolean c => b = c
  | var name indices, var name' indices' => name = name' && sameList indices indices'
  | operation o left right line, operation o' left' right' line' =>
    o = o' && same left left' && same right right' && line = line'
  | call name arguments line, call name' arguments' line' =>
    name = name' && sameList arguments arguments' && line = line'
  | assignment name indices value isIterator line,
      assignment name' indices' value' isIterator' line' =>
    name = name' && sameList indices indices' && same value value' && isIterator = isIterator'
      && line = line'
  | command c argument line, command c' argument' line' =>
    c = c' && sameOption argument argument' && line = line'
  | condition test block other line, condition test' block' other' line' =>
    same test test' && sameList block block' && sameBlock other other' && line = line'
  | loop test body iterator line, loop test' body' iterator' line' =>
    same test test' && sameList body body' && iterator = iterator' && line = line'
  | routine name parameters body isProcedure line,
      routine name' parameters' body' isProcedure' line' =>
    name = name' && parameters = parameters' && sameList body body' && isProcedure = isProcedure'
      && line = line'
  | giveBack value line, giveBack value' line' => sameOption value value' && line = line'
  | increment name line, increment name' line' => name = name' && line = line'
  | endOfLine, endOfLine => true
  | _, _ => false

/-- Whether the trees of two lists are the same. -/
def sameList : List Node → List Node → Bool
  | [], [] => true
  | node :: rest, node' :: rest' => same node node' && sameList rest rest'
  | _, _ => false

/-- Whether two trees are the same, or there are none. -/
def sameOption : Option Node → Option Node → Bool
  | none, none => true
  | some node, some node' => same node node'
  | _, _ => false

/-- Whether two blocks are the same, or there are none. -/
def sameBlock : Option (List Node) → Option (List Node) → Bool
  | none, none => true
  | some block, some block' => sameList block block'
  | _, _ => false

end

mutual

/-- **Trees that compare as the same are equal.** -/
theorem same_iff (a b : Node) : same a b = true ↔ a = b := by
  cases a <;> cases b <;>
    simp [same, same_iff, sameList_iff, sameOption_iff, sameBlock_iff, and_assoc]
termination_by structural a

theorem sameList_iff (a b : List Node) : sameList a b = true ↔ a = b := by
  cases a <;> cases b <;> simp [sameList, same_iff, sameList_iff]
termination_by structural a

theorem sameOption_iff (a b : Option Node) : sameOption a b = true ↔ a = b := by
  cases a <;> cases b <;> simp [sameOption, same_iff]
termination_by structural a

theorem sameBlock_iff (a b : Option (List Node)) : sameBlock a b = true ↔ a = b := by
  cases a <;> cases b <;> simp [sameBlock, sameList_iff]
termination_by structural a

end

instance : DecidableEq Node := fun a b => decidable_of_iff _ (same_iff a b)

end Node

/-- A text is read as a program if the result, when it is computed, is this program. -/
theorem Program.parse_eq_ok {symbol : List Char} {text : String} {program : List Node}
    (h : (parse symbol text).toOption = some program) : parse symbol text = .ok program := by
  cases hparse : parse symbol text with
  | error e =>
    rw [hparse] at h
    cases h
  | ok nodes =>
    rw [hparse] at h
    exact congrArg Except.ok (Option.some.inj h)

end Tablica
