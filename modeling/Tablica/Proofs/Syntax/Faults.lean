import Tablica.Proofs.Syntax.Layers

/-!
# Runs that have no tree

Whether a run is well formed can be seen from its neighbours alone: from every two items that stand
side by side, from its first item and from its last one.  Where two neighbours do not go together,
there is a fault.

    x  y  -  >  z  +
       y                  no operator stands between it and the operand before
          -               it has no operand on its right
                   +      nor has this one

A run can have many faults.  It is rejected with the leftmost of them, and it is accepted only if it
has none.

* `Item.clash` — what is wrong between two neighbours;
* `Item.faults` — the faults of a run, from left to right;
* `malformed_runs_are_rejected` — the runs that have no tree, and the fault that each is rejected
  with.
-/

namespace Tablica

namespace Item

/-- What is wrong where two neighbours of a run meet; `none` stands for an end of the run, and
`stop` is where the run ended. -/
def clash (stop : Position) : Option Item → Option Item → Option Fault
  | none, none => some ⟨.expectedExpression .nothing, stop⟩
  | none, some (operator o position) =>
    if o.isSign then none else some ⟨.cannotOperateOnNil o, position⟩
  | some (operand _ _), some (operand _ position) => some ⟨.undefinedOperation, position⟩
  | some (operator o position), some (operator _ _) => some ⟨.cannotOperateOnNil o, position⟩
  | some (operator o position), none => some ⟨.cannotOperateOnNil o, position⟩
  | _, _ => none

/-- The faults from the given neighbour on, from left to right. -/
def faultsAfter (stop : Position) (before : Option Item) : List Item → List Fault
  | [] => (clash stop before none).toList
  | item :: rest => (clash stop before (some item)).toList ++ faultsAfter stop (some item) rest

/-- The faults of a run, from left to right. -/
def faults (stop : Position) (run : List Item) : List Fault :=
  faultsAfter stop none run

/-- What follows an operand either alternates with it and has no fault, or is rejected with its
first fault. -/
theorem pairs_cases (stop : Position) (node : Node) (position : Position) (items : List Item) :
    (∃ rest, pairs items = .ok rest ∧ Alternates (operand node position :: items) node rest
        ∧ faultsAfter stop (some (operand node position)) items = [])
      ∨ ∃ fault, pairs items = .error fault
        ∧ (faultsAfter stop (some (operand node position)) items).head? = some fault := by
  -- The operand after an operator is the left neighbour of what is read next.
  induction items using pairs.induct generalizing node position with
  | case1 => exact .inl ⟨[], rfl, .operand, rfl⟩
  | case2 _ place rest => exact .inr ⟨_, rfl, rfl⟩
  | case3 o place second place' rest ih =>
    obtain ⟨later, hpairs, halternates, hnone⟩ | ⟨fault, hpairs, hfirst⟩ := ih second place'
    · exact .inl ⟨(o, second) :: later, by rw [pairs, hpairs]; rfl, .operator halternates, hnone⟩
    · exact .inr ⟨fault, by rw [pairs, hpairs]; rfl, hfirst⟩
  | case4 o place items hnext =>
    cases items with
    | nil => exact .inr ⟨_, rfl, rfl⟩
    | cons item rest =>
      cases item with
      | operand second place' => exact (hnext second place' rest rfl).elim
      | operator => exact .inr ⟨_, rfl, rfl⟩

/-- A run either alternates, perhaps behind a sign, and has no fault, or is rejected with its first
fault. -/
theorem split_cases (stop : Position) (run : List Item) :
    (∃ first rest, split stop run = .ok (first, rest) ∧ IsRun run first rest
        ∧ faults stop run = [])
      ∨ ∃ fault, split stop run = .error fault ∧ (faults stop run).head? = some fault := by
  match run with
  | [] => exact .inr ⟨_, rfl, rfl⟩
  | operand node position :: items =>
    obtain ⟨rest, hpairs, halternates, hnone⟩ | ⟨fault, hpairs, hfirst⟩ :=
      pairs_cases stop node position items
    · exact .inl ⟨node, rest, by rw [split, hpairs]; rfl, .operand halternates, hnone⟩
    · exact .inr ⟨fault, by rw [split, hpairs]; rfl, hfirst⟩
  | operator o position :: items =>
    cases hsign : o.isSign with
    | false =>
      refine .inr ⟨⟨.cannotOperateOnNil o, position⟩, ?_, ?_⟩
      · rw [split, hsign]
        rfl
      · rw [faults, faultsAfter, clash, hsign]
        rfl
    | true =>
      -- A sign follows the zero in front of it, and meets nothing at the start of the run.
      have hfaults : faults stop (operator o position :: items)
          = faultsAfter stop (some (operand (.number .zero) position))
            (operator o position :: items) := by
        rw [faults, faultsAfter, faultsAfter, clash, hsign]
        rfl
      have hsplit : split stop (operator o position :: items)
          = (pairs (operator o position :: items)).map (.number .zero, ·) := by
        rw [split, hsign]
        rfl
      rw [hfaults, hsplit]
      obtain ⟨rest, hpairs, halternates, hnone⟩ | ⟨fault, hpairs, hfirst⟩ :=
        pairs_cases stop (.number .zero) position (operator o position :: items)
      · refine .inl ⟨.number .zero, rest, by rw [hpairs]; rfl, ?_, hnone⟩
        cases halternates with
        | operator halternates =>
          exact .sign (by revert hsign; cases o <;> decide) halternates
      · exact .inr ⟨fault, by rw [hpairs]; rfl, hfirst⟩

end Item

/-- **Malformed runs are rejected with their leftmost fault.**  A run has no tree exactly if its
items do not alternate from an operand to an operand, perhaps behind a sign; and it is rejected with
the first of its faults, whatever others it has. -/
theorem malformed_runs_are_rejected (line : SourceLine) (stop : Position) (run : List Item) :
    ((∃ fault, Item.tree line stop run = .error fault) ↔ ¬ ∃ first rest, Item.IsRun run first rest)
      ∧ ∀ fault, Item.tree line stop run = .error fault
        ↔ (Item.faults stop run).head? = some fault := by
  obtain ⟨first, rest, hsplit, hrun, hnone⟩ | ⟨fault, hsplit, hfirst⟩ :=
    Item.split_cases stop run
  · have htree : Item.tree line stop run = .ok (Waiting.fold line [] first rest) := by
      rw [Item.tree, hsplit]
      rfl
    rw [htree, hnone]
    refine ⟨⟨?_, fun h => absurd ⟨first, rest, hrun⟩ h⟩, fun fault => ⟨?_, ?_⟩⟩
    · rintro ⟨_, hfault⟩
      cases hfault
    · intro hfault
      cases hfault
    · intro hfault
      cases hfault
  · have htree : Item.tree line stop run = .error fault := by
      rw [Item.tree, hsplit]
      rfl
    have hmalformed : ¬ ∃ first rest, Item.IsRun run first rest := by
      rintro ⟨first, rest, hrun⟩
      rw [hrun.split stop] at hsplit
      cases hsplit
    rw [htree, hfirst]
    exact ⟨⟨fun _ => hmalformed, fun _ => ⟨fault, rfl⟩⟩, fun fault' => by
      rw [Except.error.injEq, Option.some.injEq]⟩

/-- All the faults of `x y - > z +`, of which the first one is reported. -/
example :
    let run : List Item := [.operand (.var "x" []) ⟨1, 1⟩, .operand (.var "y" []) ⟨1, 3⟩,
      .operator .subtract ⟨1, 5⟩, .operator .greater ⟨1, 7⟩, .operand (.var "z" []) ⟨1, 9⟩,
      .operator .add ⟨1, 11⟩]
    Item.faults ⟨1, 12⟩ run = [⟨.undefinedOperation, ⟨1, 3⟩⟩,
        ⟨.cannotOperateOnNil .subtract, ⟨1, 5⟩⟩, ⟨.cannotOperateOnNil .add, ⟨1, 11⟩⟩]
      ∧ Item.split ⟨1, 12⟩ run = .error ⟨.undefinedOperation, ⟨1, 3⟩⟩ :=
  ⟨rfl, rfl⟩

end Tablica
