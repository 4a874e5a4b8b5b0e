import Tablica.Syntax.Operand

/-!
# Runs that are trees

Without parentheses a tree is written as a run: its leftmost operand, and then operators with their
right operands.  Left of an operator stands a tree none of whose operators binds more weakly, and
right of it one whose operators all bind more strongly.  A run of this kind **unfolds** the tree,
and folding it gives the tree back.

When the run of a subtree begins, what waits binds more weakly than all of its operators and is not
touched by them.  When it ends, the next operator does not bind more strongly than any of them, so
nothing of the subtree keeps waiting:

    waiting   <  run of the subtree  ≥   next operator

* `Node.strength` — how strongly the operator on top of a tree binds;
* `Unfolds`, `Unfolds.fold` — the runs of a tree, and that folding inverts them;
* `Item.Alternates`, `Item.tree_of_split`, `Item.tree_of_unfolds` — the same for items with
  positions.
-/

namespace Tablica

/-- How strongly the operator on top of a tree binds.  What is no operation is taken as a whole. -/
def Node.strength : Node → Nat
  | operation o _ _ _ => o.precedence.rank
  | _ => 3

/-- The first operand of a tree and the pairs after it, when no operator among them binds more
weakly than the given rank.  An operand is not looked into. -/
inductive Unfolds (line : SourceLine) : Nat → Node → Node → List (Operator × Node) → Prop
  | operand {rank : Nat} {node : Node} : Unfolds line rank node node []
  | operation {rank : Nat} {o : Operator} {left right first second : Node}
      {rest rest' : List (Operator × Node)} (hrank : rank ≤ o.precedence.rank)
      (hleft : Unfolds line o.precedence.rank left first rest)
      (hright : Unfolds line (o.precedence.rank + 1) right second rest') :
      Unfolds line rank (.operation o left right line) first (rest ++ (o, second) :: rest')

variable {line : SourceLine} {rank : Nat} {node first : Node} {rest later : List (Operator × Node)}

theorem Unfolds.mono (h : Unfolds line rank node first rest) {rank' : Nat} (hle : rank' ≤ rank) :
    Unfolds line rank' node first rest := by
  cases h with
  | operand => exact .operand
  | operation hrank hleft hright => exact .operation (Nat.le_trans hle hrank) hleft hright

namespace Waiting

/-- What binds more weakly keeps waiting. -/
theorem settle_of_lt {waiting : Waiting} {right : Node}
    (h : ∀ entry ∈ waiting.head?, entry.2.precedence.rank < rank) :
    waiting.settle line rank right = (waiting, right) := by
  cases waiting with
  | nil => rfl
  | cons entry waiting => exact if_neg (Nat.not_le.mpr (h entry rfl))

/-- An operator is completed by the next one, if that does not bind more strongly, and by the end
of the run. -/
theorem fold_cons {waiting : Waiting} {o : Operator} {left right : Node}
    (h : ∀ pair ∈ later.head?, pair.1.precedence.rank ≤ o.precedence.rank) :
    fold line ((left, o) :: waiting) right later
      = fold line waiting (.operation o left right line) later := by
  have hsettle : ∀ rank', rank' ≤ o.precedence.rank →
      settle line rank' ((left, o) :: waiting) right
        = settle line rank' waiting (.operation o left right line) := fun rank' hle => if_pos hle
  cases later with
  | nil => simp only [fold, hsettle 0 (Nat.zero_le _)]
  | cons pair later => simp only [fold, hsettle _ (h pair rfl)]

end Waiting

/-- **Folding the run of a tree gives the tree**, whatever waits and whatever comes after it. -/
theorem Unfolds.fold (h : Unfolds line rank node first rest) {waiting : Waiting}
    (hwaiting : ∀ entry ∈ waiting.head?, entry.2.precedence.rank < rank)
    (hlater : ∀ pair ∈ later.head?, pair.1.precedence.rank ≤ rank) :
    waiting.fold line first (rest ++ later) = waiting.fold line node later := by
  induction h generalizing waiting later with
  | operand => rfl
  | @operation rank o left right first second rest rest' hrank _ _ ihleft ihright =>
    have hbelow : ∀ entry ∈ waiting.head?, entry.2.precedence.rank < o.precedence.rank :=
      fun entry hentry => Nat.lt_of_lt_of_le (hwaiting entry hentry) hrank
    have habove : ∀ pair ∈ later.head?, pair.1.precedence.rank ≤ o.precedence.rank :=
      fun pair hpair => Nat.le_trans (hlater pair hpair) hrank
    have hself : ∀ pair ∈ ((o, second) :: (rest' ++ later)).head?,
        pair.1.precedence.rank ≤ o.precedence.rank := by
      intro pair hpair
      obtain rfl := Option.some.inj hpair
      exact Nat.le_refl _
    have htop : ∀ entry ∈ ((left, o) :: waiting).head?,
        entry.2.precedence.rank < o.precedence.rank + 1 := by
      intro entry hentry
      obtain rfl := Option.some.inj hentry
      exact Nat.lt_succ_self _
    calc waiting.fold line first ((rest ++ (o, second) :: rest') ++ later)
        = waiting.fold line first (rest ++ ((o, second) :: (rest' ++ later))) := by
          rw [List.append_assoc, List.cons_append]
      _ = waiting.fold line left ((o, second) :: (rest' ++ later)) := ihleft hbelow hself
      _ = Waiting.fold line ((left, o) :: waiting) second (rest' ++ later) := by
          rw [Waiting.fold, Waiting.settle_of_lt hbelow]
      _ = Waiting.fold line ((left, o) :: waiting) right later :=
          ihright htop fun pair hpair => Nat.le_succ_of_le (habove pair hpair)
      _ = waiting.fold line (.operation o left right line) later := Waiting.fold_cons habove

namespace Item

/-- Items that alternate, starting and ending with an operand: the first operand, and the operators
with their right operands. -/
inductive Alternates : List Item → Node → List (Operator × Node) → Prop
  | operand {node : Node} {position : Position} : Alternates [.operand node position] node []
  | operator {node second : Node} {o : Operator} {position position' : Position}
      {items : List Item} {rest : List (Operator × Node)} (h : Alternates items second rest) :
      Alternates (.operand node position :: .operator o position' :: items) node
        ((o, second) :: rest)

variable {items items' : List Item} {second : Node} {rest' : List (Operator × Node)}

theorem Alternates.ne_nil (h : Alternates items first rest) : items ≠ [] := by
  cases h <;> exact List.cons_ne_nil _ _

/-- Two runs with an operator between them. -/
theorem Alternates.append (h : Alternates items first rest) (o : Operator) (position : Position)
    (h' : Alternates items' second rest') :
    Alternates (items ++ .operator o position :: items') first (rest ++ (o, second) :: rest') := by
  induction h with
  | operand => exact .operator h'
  | operator _ ih => exact .operator ih

theorem Alternates.pairs (h : Alternates items second rest) (o : Operator)
    (position : Position) : pairs (.operator o position :: items) = .ok ((o, second) :: rest) := by
  induction h generalizing o position with
  | operand => rfl
  | operator _ ih => rw [Item.pairs, ih]; rfl

theorem Alternates.split (h : Alternates items first rest) (stop : Position) :
    split stop items = .ok (first, rest) := by
  cases h with
  | operand => rfl
  | operator h => rw [Item.split, h.pairs]; rfl

/-- **The tree of a run that unfolds it.** -/
theorem tree_of_split {stop : Position} (h : split stop items = .ok (first, rest))
    (hnode : Unfolds line rank node first rest) : tree line stop items = .ok node := by
  have hfold : Waiting.fold line [] first (rest ++ []) = Waiting.fold line [] node [] :=
    (hnode.mono (Nat.zero_le rank)).fold (fun _ h => nomatch h) fun _ h => nomatch h
  rw [List.append_nil] at hfold
  rw [tree, h]
  exact congrArg Except.ok hfold

theorem tree_of_unfolds (h : Alternates items first rest)
    (hnode : Unfolds line rank node first rest) (stop : Position) :
    tree line stop items = .ok node :=
  tree_of_split (h.split stop) hnode

end Item

end Tablica
