import Tablica.Proofs.Syntax.Equality
import Tablica.Proofs.Syntax.Program

/-!
# Programs are well formed

The grammar says how a block is put together.  Here it is said, node by node, what is found in it:
what a node holds, and what stands before and after it in its block.

    x := 1            assignment  ·  mark
    jeżeli x = 1 to   condition [ … ]
    dla i := 1 ... x  assignment (iterator)  ·  loop [ …  ·  counter ]

A block comes apart into pieces of one or two nodes: a mark, a simple statement with its mark, a
heading with its blocks, or the two nodes of a `dla` loop.  What a node needs next to it is in its
own piece, so it is there in every block that the piece is a part of.

* `Node.Stands` — the blocks of a program, each with the node that it belongs to;
* `Node.Sits` — what is found in and around a node;
* `AllSit`, `AllSit.append` — that this holds of a row of nodes, and of one row after another;
* `IsBlock.allSit` — that it holds of the blocks of the grammar;
* `IsWellFormed` — the blocks that are well formed;
* `parsed_programs_are_well_formed` — those of a program are.
-/

namespace Tablica

/-! ### What is found in a block -/

/-- Whether the node defines a function or procedure. -/
def Node.isRoutine : Node → Bool
  | routine _ _ _ _ _ => true
  | _ => false

/-- The blocks of a program: the program itself, and the blocks inside the nodes of its blocks.  With
a block goes the node that it belongs to, and whether it is part of a function or procedure. -/
inductive Node.Stands (program : List Node) : Option Node → Bool → List Node → Prop
  | program : Stands program none false program
  | inside {owner : Option Node} {inRoutine : Bool} {nodes block : List Node} {node : Node}
    (h : Stands program owner inRoutine nodes) (hnode : node ∈ nodes)
    (hblock : block ∈ node.blocks) : Stands program (some node) (node.isRoutine || inRoutine) block

/-- The next node of the block is a mark. -/
def IsMarked (after : List Node) : Prop :=
  after.head? = some .endOfLine

/-- What is found in a node of a block, and before and after it in the block.  The block belongs to
the given node, if to any. -/
def Node.Sits (owner : Option Node) (inRoutine : Bool) (before after : List Node) : Node → Prop
  | endOfLine | routine _ _ _ _ _ => True
  | assignment name indices first true line =>
    indices = [] ∧ IsExpression line first ∧ ∃ last body,
      after.head? = some (.loop (.operation .lessOrEqual (.var name []) last line)
        (body ++ [.increment name line]) (some name) line)
  | assignment _ indices value false line =>
    (∀ index ∈ indices, IsExpression line index) ∧ IsExpression line value ∧ IsMarked after
  | command _ argument line => (∀ value ∈ argument, IsExpression line value) ∧ IsMarked after
  | giveBack value line =>
    inRoutine = true ∧ (∀ given ∈ value, IsExpression line given) ∧ IsMarked after
  | condition test _ _ line | loop test _ none line => IsExpression line test
  | loop test _ (some name) line =>
    IsExpression line test ∧ ∃ first, before.getLast? = some (.assignment name [] first true line)
  | increment name line =>
    after = [] ∧ ∃ test body, owner = some (.loop test body (some name) line)
  | node => (∃ line, IsExpression line node) ∧ IsMarked after

/-- A well-formed block.  One that belongs to a node holds more than marks and a counter. -/
structure IsWellFormed (owner : Option Node) (inRoutine : Bool) (nodes : List Node) : Prop where
  filled : owner.isSome = true →
    ∃ node ∈ nodes, node.isEndOfLine = false ∧ ∀ name line, node ≠ .increment name line
  sits (before : List Node) (node : Node) (after : List Node)
    (h : nodes = before ++ node :: after) : node.Sits owner inRoutine before after

/-! ### Rows of nodes -/

section Sits

variable {owner : Option Node} {inRoutine : Bool} {before after nodes nodes' : List Node}
  {node : Node} {line : SourceLine}

/-- Every node of a row sits in it. -/
def AllSit (owner : Option Node) (inRoutine : Bool) (nodes : List Node) : Prop :=
  ∀ before node after, nodes = before ++ node :: after → node.Sits owner inRoutine before after

theorem IsMarked.append (h : IsMarked after) (after' : List Node) : IsMarked (after ++ after') := by
  rw [IsMarked, List.head?_append, show after.head? = _ from h, Option.some_or]

/-- More nodes before the row. -/
theorem Node.Sits.addBefore (h : node.Sits owner inRoutine before after) (before' : List Node) :
    node.Sits owner inRoutine (before' ++ before) after := by
  cases node with
  | assignment name indices value isIterator line => cases isIterator <;> exact h
  | loop test body iterator line =>
    cases iterator with
    | none => exact h
    | some name =>
      obtain ⟨htest, first, hbefore⟩ := h
      exact ⟨htest, first, by rw [List.getLast?_append, hbefore, Option.some_or]⟩
  | _ => exact h

/-- More nodes after the row.  Only a counter minds them. -/
theorem Node.Sits.addAfter (h : node.Sits owner inRoutine before after)
    (hcounter : ∀ name line, node ≠ .increment name line) (after' : List Node) :
    node.Sits owner inRoutine before (after ++ after') := by
  cases node with
  | endOfLine | routine | condition => exact h
  | assignment name indices value isIterator line =>
    cases isIterator with
    | false => exact ⟨h.1, h.2.1, h.2.2.append after'⟩
    | true =>
      obtain ⟨hindices, hfirst, last, body, hafter⟩ := h
      exact ⟨hindices, hfirst, last, body, by rw [List.head?_append, hafter, Option.some_or]⟩
  | loop test body iterator line => cases iterator <;> exact h
  | giveBack => exact ⟨h.1, h.2.1, h.2.2.append after'⟩
  | increment name line => exact absurd rfl (hcounter name line)
  | number | text | boolean | var | operation | call | command => exact ⟨h.1, h.2.append after'⟩

/-- One row after another.  No counter stands in the first one. -/
theorem AllSit.append (h : AllSit owner inRoutine nodes)
    (hcounter : ∀ name line, .increment name line ∉ nodes)
    (h' : AllSit owner inRoutine nodes') : AllSit owner inRoutine (nodes ++ nodes') := by
  intro before node after heq
  rcases List.append_eq_append_iff.mp heq with ⟨middle, rfl, hrest⟩ | ⟨middle, rfl, hrest⟩
  · exact (h' middle node after hrest).addBefore nodes
  · cases middle with
    | nil => simpa using (h' [] node after hrest.symm).addBefore before
    | cons node' middle =>
      obtain ⟨rfl, rfl⟩ := List.cons.inj hrest
      refine (h before node middle rfl).addAfter ?_ nodes'
      rintro name line rfl
      exact hcounter name line (List.mem_append_right _ List.mem_cons_self)

/-- A piece of one node. -/
theorem AllSit.singleton (h : node.Sits owner inRoutine [] []) : AllSit owner inRoutine [node] := by
  intro before node' after heq
  obtain ⟨rfl, rfl, rfl⟩ : before = [] ∧ node' = node ∧ after = [] := by
    cases before <;> simp_all
  exact h

/-- A piece of two nodes. -/
theorem AllSit.pair {node' : Node} (h : node.Sits owner inRoutine [] [node'])
    (h' : node'.Sits owner inRoutine [node] []) : AllSit owner inRoutine [node, node'] := by
  intro before first after heq
  rcases before with _ | ⟨_, _ | ⟨_, before⟩⟩
  · cases heq
    exact h
  · cases heq
    exact h'
  · simp at heq

/-! ### The pieces of a block -/

theorem IsSimple.sits (h : IsSimple inRoutine line node) :
    node.Sits owner inRoutine [] [.endOfLine] := by
  cases h with
  | expression h => cases h with
    | number h => exact ⟨⟨line, .number h⟩, rfl⟩
    | text s => exact ⟨⟨line, .text s⟩, rfl⟩
    | boolean b => exact ⟨⟨line, .boolean b⟩, rfl⟩
    | var h => exact ⟨⟨line, .var h⟩, rfl⟩
    | operation hleft hright => exact ⟨⟨line, .operation hleft hright⟩, rfl⟩
    | call h => exact ⟨⟨line, .call h⟩, rfl⟩
  | assignment hindices hvalue => exact ⟨hindices, hvalue, rfl⟩
  | print h | read h => exact ⟨by simpa using h, rfl⟩
  | stop => exact ⟨by simp, rfl⟩
  | giveBack hroutine h => exact ⟨hroutine, h, rfl⟩

theorem IsBlock.not_mem_increment (h : IsBlock inRoutine nodes) (name : String)
    (line : SourceLine) : .increment name line ∉ nodes := fun hmem =>
  not_isStatement_increment (h.isStatement _ hmem)

/-- A block of which the first piece is a row that sits. -/
theorem AllSit.piece (piece : List Node) {rest : List Node} (h : AllSit owner inRoutine piece)
    (hwhole : IsBlock inRoutine (piece ++ rest)) (ih : AllSit owner inRoutine rest) :
    AllSit owner inRoutine (piece ++ rest) :=
  h.append (fun name line hmem => hwhole.not_mem_increment name line
    (List.mem_append_left _ hmem)) ih

/-- **The nodes of a block of the grammar** sit in it. -/
theorem IsBlock.allSit (h : IsBlock inRoutine nodes) : AllSit owner inRoutine nodes := by
  induction h with
  | nil => exact fun before node after heq => by simp at heq
  | mark hrest ih =>
    exact AllSit.piece [_] (.singleton trivial) (.mark hrest) ih
  | simple hnode hrest ih =>
    exact AllSit.piece [_, _] (.pair hnode.sits trivial) (.simple hnode hrest) ih
  | condition htest hthen hfilled hrest _ ih =>
    exact AllSit.piece [_] (.singleton htest) (.condition htest hthen hfilled hrest)
      ih
  | alternative htest hthen hfilled helse hfilled' hrest _ _ ih =>
    exact AllSit.piece [_] (.singleton htest)
      (.alternative htest hthen hfilled helse hfilled' hrest) ih
  | whileLoop htest hbody hfilled hrest _ ih =>
    exact AllSit.piece [_] (.singleton htest) (.whileLoop htest hbody hfilled hrest)
      ih
  | @range _ loop rest hfirst hlast hbody hfilled hrest _ ih =>
    refine AllSit.piece [loop.initializer, loop.node] (.pair ?_ ?_)
      (.range hfirst hlast hbody hfilled hrest) ih
    · exact ⟨rfl, hfirst, loop.last, loop.body, rfl⟩
    · exact ⟨RangeLoop.test_isExpression hlast, loop.first, rfl⟩
  | routine hbody hfilled hrest _ ih =>
    exact AllSit.piece [_] (.singleton trivial) (.routine hbody hfilled hrest) ih

/-! ### The blocks of a program -/

/-- What a block of a program consists of: a block of the grammar, which is filled if it belongs to a
node, and the counter if that node is a `dla` loop. -/
def IsOwned (owner : Option Node) (inRoutine : Bool) (nodes : List Node) : Prop :=
  ∃ block tail, nodes = block ++ tail ∧ IsBlock inRoutine block
    ∧ (owner.isSome = true → IsFilled block)
    ∧ (tail = [] ∨ ∃ test name line, tail = [.increment name line]
      ∧ owner = some (.loop test nodes (some name) line))

theorem IsBlock.isOwned (h : IsBlock inRoutine nodes) (hfilled : IsFilled nodes)
    (owner : Option Node) : IsOwned owner inRoutine nodes :=
  ⟨nodes, [], by simp, h, fun _ => hfilled, .inl rfl⟩

/-- The blocks inside the nodes of a block. -/
theorem IsBlock.isOwned_of_mem_blocks (h : IsBlock inRoutine nodes) (hnode : node ∈ nodes)
    {block : List Node} (hblock : block ∈ node.blocks) :
    IsOwned (some node) (node.isRoutine || inRoutine) block := by
  induction h with
  | nil => cases hnode
  | mark _ ih =>
    rcases List.mem_cons.mp hnode with rfl | hnode
    · cases hblock
    · exact ih hnode
  | simple hsimple _ ih =>
    rcases List.mem_cons.mp hnode with rfl | hnode
    · cases hsimple with
      | expression h => cases h <;> cases hblock
      | _ => cases hblock
    · rcases List.mem_cons.mp hnode with rfl | hnode
      · cases hblock
      · exact ih hnode
  | condition _ hthen hfilled _ _ ih =>
    rcases List.mem_cons.mp hnode with rfl | hnode
    · obtain rfl := List.mem_singleton.mp hblock
      exact hthen.isOwned hfilled _
    · exact ih hnode
  | alternative _ hthen hfilled helse hfilled' _ _ _ ih =>
    rcases List.mem_cons.mp hnode with rfl | hnode
    · rcases List.mem_cons.mp hblock with rfl | hblock
      · exact hthen.isOwned hfilled _
      · obtain rfl := List.mem_singleton.mp hblock
        exact helse.isOwned hfilled' _
    · exact ih hnode
  | whileLoop _ hbody hfilled _ _ ih =>
    rcases List.mem_cons.mp hnode with rfl | hnode
    · obtain rfl := List.mem_singleton.mp hblock
      exact hbody.isOwned hfilled _
    · exact ih hnode
  | @range _ loop _ _ _ hbody hfilled _ _ ih =>
    rcases List.mem_cons.mp hnode with rfl | hnode
    · cases hblock
    · rcases List.mem_cons.mp hnode with rfl | hnode
      · obtain rfl := List.mem_singleton.mp hblock
        exact ⟨loop.body, [loop.counter], rfl, hbody, fun _ => hfilled,
          .inr ⟨loop.test, loop.name, loop.line, rfl, rfl⟩⟩
      · exact ih hnode
  | routine hbody hfilled _ _ ih =>
    rcases List.mem_cons.mp hnode with rfl | hnode
    · obtain rfl := List.mem_singleton.mp hblock
      exact hbody.isOwned hfilled _
    · exact ih hnode

/-- **The blocks of a block of the grammar** consist of such blocks. -/
theorem Node.Stands.isOwned {program : List Node} (h : Stands program owner inRoutine nodes)
    (hprogram : IsBlock false program) : IsOwned owner inRoutine nodes := by
  induction h with
  | program => exact ⟨program, [], by simp, hprogram, nofun, .inl rfl⟩
  | inside _ hnode hblock ih =>
    obtain ⟨inner, tail, rfl, hinner, -, htail⟩ := ih
    rcases List.mem_append.mp hnode with hnode | hnode
    · exact hinner.isOwned_of_mem_blocks hnode hblock
    · rcases htail with rfl | ⟨_, _, _, rfl, -⟩
      · cases hnode
      · obtain rfl := List.mem_singleton.mp hnode
        cases hblock

theorem IsOwned.isWellFormed (h : IsOwned owner inRoutine nodes) :
    IsWellFormed owner inRoutine nodes := by
  obtain ⟨block, tail, rfl, hblock, hfilled, htail⟩ := h
  refine ⟨fun howner => ?_, ?_⟩
  · obtain ⟨node, hnode, hmark⟩ := hfilled howner
    refine ⟨node, List.mem_append_left _ hnode, hmark, ?_⟩
    rintro name line rfl
    exact hblock.not_mem_increment name line hnode
  · refine hblock.allSit.append hblock.not_mem_increment ?_
    rcases htail with rfl | ⟨test, name, line, rfl, rfl⟩
    · exact fun before node after heq => by simp at heq
    · exact .singleton ⟨rfl, test, _, rfl⟩

end Sits

/-- **Programs are well formed.**  Every block of a program that is read from a text is: it is filled
if it belongs to a node; values are expressions; a simple statement is followed by a mark; a value is
given back in a function or procedure only; and an iterator is bound directly before the loop over
its range, which alone has a counter, as the last node of its body. -/
theorem parsed_programs_are_well_formed {symbol : List Char} {text : String}
    {program : List Node} (h : Program.parse symbol text = .ok program)
    {owner : Option Node} {inRoutine : Bool} {block : List Node}
    (hblock : Node.Stands program owner inRoutine block) : IsWellFormed owner inRoutine block :=
  (hblock.isOwned (IsParsed.isBlock ⟨symbol, text, h⟩)).isWellFormed

/-- The body of a `dla` loop in a function. -/
theorem parsed_programs_are_well_formed_in_a_loop :
    let text := "funkcja f(n)\n\tdla i := 1 ... n wykonuj\n\t\tzwróć i\n"
    let second : SourceLine := ⟨2, "\tdla i := 1 ... n wykonuj"⟩
    let body : List Node :=
      [.giveBack (some (.var "i" [])) ⟨3, "\t\tzwróć i"⟩, .endOfLine, .increment "i" second]
    let rounds : Node :=
      .loop (.operation .lessOrEqual (.var "i" []) (.var "n" []) second) body (some "i") second
    let block : List Node := [.assignment "i" [] (.number .one) true second, rounds]
    let program : List Node := [.routine "f" ["n"] block false ⟨1, "funkcja f(n)"⟩]
    Program.parse Token.defaultRange text = .ok program
      ∧ Node.Stands program (some rounds) true body
      ∧ IsWellFormed (some rounds) true body := by
  intro text second body rounds block program
  have hparse : Program.parse Token.defaultRange text = .ok program :=
    Program.parse_eq_ok (by decide +kernel)
  have hblock : Node.Stands program (some (.routine "f" ["n"] block false _)) true block :=
    .inside .program List.mem_cons_self (List.mem_singleton.mpr rfl)
  have hbody : Node.Stands program (some rounds) true body :=
    .inside hblock (List.mem_cons_of_mem _ List.mem_cons_self) (List.mem_singleton.mpr rfl)
  exact ⟨hparse, hbody, parsed_programs_are_well_formed hparse hbody⟩

end Tablica
