import Mathlib.Data.List.Chain
import Tablica.Syntax.Statement

/-!
# The grammar of program trees

One type holds all nodes, but the trees that are read from a text are of a more regular kind.
Expressions and simple statements belong to the line that they were read from; a **block** is a
row of marks, of simple statements that are each followed by a mark, and of headings with their
blocks.  A `dla` loop stands there as two nodes, of which the first binds the iterator.

What is read is a block.  What is executed is a part of a block that was read, or of a body with
the increment at its end, and one node of it after the other; so for a node by itself it is said
which **statements** can stand in a block.

* `IsExpression`, `IsSimple` — what one line can hold;
* `Heading.IsRead` — the headings that one line can hold;
* `RangeLoop` — a `dla` loop and its two nodes;
* `IsBlock` — the blocks, `IsStatement` — the nodes that stand in a block;
* `IsBody`, `IsPart` — the bodies of loops, and the parts that are executed one after another;
* `IsBlock.append` — one block after another;
* `IsBlock.isStatement` — the nodes of a block are statements;
* `Node.HoldsParts`, `IsStatement.holdsParts` — what a statement of each kind holds;
* `HasLoop` — the `dla` loops that stand in a program.
-/

namespace Tablica

/-- The expressions on a line. -/
inductive IsExpression (line : SourceLine) : Node → Prop
  | number {value : Number} (h : 0 ≤ value.val) : IsExpression line (.number value)
  | text (value : String) : IsExpression line (.text value)
  | boolean (value : Bool) : IsExpression line (.boolean value)
  | var {name : String} {indices : List Node} (h : ∀ node ∈ indices, IsExpression line node) :
      IsExpression line (.var name indices)
  | operation {operator : Operator} {left right : Node} (hleft : IsExpression line left)
      (hright : IsExpression line right) :
      IsExpression line (.operation operator left right line)
  | call {name : String} {arguments : List Node} (h : ∀ node ∈ arguments, IsExpression line node) :
      IsExpression line (.call name arguments line)

/-- The simple statements on a line; a value is given back in a function or procedure only. -/
inductive IsSimple (inRoutine : Bool) (line : SourceLine) : Node → Prop
  | expression {node : Node} (h : IsExpression line node) : IsSimple inRoutine line node
  | assignment {name : String} {indices : List Node} {value : Node}
      (hindices : ∀ node ∈ indices, IsExpression line node) (hvalue : IsExpression line value) :
      IsSimple inRoutine line (.assignment name indices value false line)
  | print {argument : Node} (h : IsExpression line argument) :
      IsSimple inRoutine line (.command .print (some argument) line)
  | read {argument : Node} (h : IsExpression line argument) :
      IsSimple inRoutine line (.command .read (some argument) line)
  | stop : IsSimple inRoutine line (.command .stop none line)
  | giveBack {value : Option Node} (hroutine : inRoutine = true)
      (h : ∀ node ∈ value, IsExpression line node) : IsSimple inRoutine line (.giveBack value line)

/-- The headings on a line.  An `alternative` takes two lines. -/
inductive Heading.IsRead (line : SourceLine) : Heading → Prop
  | condition {test : Node} (h : IsExpression line test) : IsRead line (.condition test)
  | whileLoop {test : Node} (h : IsExpression line test) : IsRead line (.whileLoop test)
  | range {name : String} {first last : Node} (hfirst : IsExpression line first)
      (hlast : IsExpression line last) : IsRead line (.range name first last)
  | routine (name : String) (parameters : List String) (isProcedure : Bool) :
      IsRead line (.routine name parameters isProcedure)

/-- A block is filled if it holds more than marks. -/
def IsFilled (nodes : List Node) : Prop :=
  ∃ node ∈ nodes, node.isEndOfLine = false

/-- A `dla` loop. -/
structure RangeLoop where
  line : SourceLine
  name : String
  first : Node
  last : Node
  body : List Node

namespace RangeLoop

/-- The node that binds the iterator. -/
def initializer (loop : RangeLoop) : Node :=
  .assignment loop.name [] loop.first true loop.line

/-- The test before every round: whether the iterator has not passed the last value. -/
def test (loop : RangeLoop) : Node :=
  .operation .lessOrEqual (.var loop.name []) loop.last loop.line

/-- The node that counts a round. -/
def counter (loop : RangeLoop) : Node :=
  .increment loop.name loop.line

/-- The node that runs the rounds. -/
def node (loop : RangeLoop) : Node :=
  .loop loop.test (loop.body ++ [loop.counter]) (some loop.name) loop.line

end RangeLoop

/-- The blocks that are read. -/
inductive IsBlock : Bool → List Node → Prop
  | nil {inRoutine : Bool} : IsBlock inRoutine []
  | mark {inRoutine : Bool} {rest : List Node} (hrest : IsBlock inRoutine rest) :
      IsBlock inRoutine (.endOfLine :: rest)
  | simple {inRoutine : Bool} {line : SourceLine} {node : Node} {rest : List Node}
      (hnode : IsSimple inRoutine line node) (hrest : IsBlock inRoutine rest) :
      IsBlock inRoutine (node :: .endOfLine :: rest)
  | condition {inRoutine : Bool} {line : SourceLine} {test : Node} {thenBlock rest : List Node}
      (htest : IsExpression line test) (hthen : IsBlock inRoutine thenBlock)
      (hfilled : IsFilled thenBlock) (hrest : IsBlock inRoutine rest) :
      IsBlock inRoutine (.condition test thenBlock none line :: rest)
  | alternative {inRoutine : Bool} {line : SourceLine} {test : Node}
      {thenBlock elseBlock rest : List Node} (htest : IsExpression line test)
      (hthen : IsBlock inRoutine thenBlock) (hthenFilled : IsFilled thenBlock)
      (helse : IsBlock inRoutine elseBlock) (helseFilled : IsFilled elseBlock)
      (hrest : IsBlock inRoutine rest) :
      IsBlock inRoutine (.condition test thenBlock (some elseBlock) line :: rest)
  | whileLoop {inRoutine : Bool} {line : SourceLine} {test : Node} {body rest : List Node}
      (htest : IsExpression line test) (hbody : IsBlock inRoutine body) (hfilled : IsFilled body)
      (hrest : IsBlock inRoutine rest) : IsBlock inRoutine (.loop test body none line :: rest)
  | range {inRoutine : Bool} {loop : RangeLoop} {rest : List Node}
      (hfirst : IsExpression loop.line loop.first) (hlast : IsExpression loop.line loop.last)
      (hbody : IsBlock inRoutine loop.body) (hfilled : IsFilled loop.body)
      (hrest : IsBlock inRoutine rest) : IsBlock inRoutine (loop.initializer :: loop.node :: rest)
  | routine {inRoutine : Bool} {line : SourceLine} {name : String} {parameters : List String}
      {isProcedure : Bool} {body rest : List Node} (hbody : IsBlock true body)
      (hfilled : IsFilled body) (hrest : IsBlock inRoutine rest) :
      IsBlock inRoutine (.routine name parameters body isProcedure line :: rest)

/-- The nodes that stand in a block. -/
inductive IsStatement (inRoutine : Bool) : Node → Prop
  | mark : IsStatement inRoutine .endOfLine
  | simple {line : SourceLine} {node : Node} (h : IsSimple inRoutine line node) :
      IsStatement inRoutine node
  | condition {line : SourceLine} {test : Node} {thenBlock : List Node}
      {elseBlock : Option (List Node)} (htest : IsExpression line test)
      (hthen : IsBlock inRoutine thenBlock) (helse : ∀ block ∈ elseBlock, IsBlock inRoutine block) :
      IsStatement inRoutine (.condition test thenBlock elseBlock line)
  | whileLoop {line : SourceLine} {test : Node} {body : List Node} (htest : IsExpression line test)
      (hbody : IsBlock inRoutine body) : IsStatement inRoutine (.loop test body none line)
  | initializer {loop : RangeLoop} (hfirst : IsExpression loop.line loop.first) :
      IsStatement inRoutine loop.initializer
  | range {loop : RangeLoop} (hlast : IsExpression loop.line loop.last)
      (hbody : IsBlock inRoutine loop.body) : IsStatement inRoutine loop.node
  | routine {line : SourceLine} {name : String} {parameters : List String} {isProcedure : Bool}
      {body : List Node} (hbody : IsBlock true body) :
      IsStatement inRoutine (.routine name parameters body isProcedure line)

theorem RangeLoop.test_isExpression {loop : RangeLoop} (h : IsExpression loop.line loop.last) :
    IsExpression loop.line loop.test :=
  .operation (.var fun _ hindex => nomatch hindex) h

/-- The body of a loop: a block, after which the counter stands if the loop is a `dla` loop. -/
def IsBody (inRoutine : Bool) (nodes : List Node) : Prop :=
  IsBlock inRoutine nodes
    ∨ ∃ block name line, IsBlock inRoutine block ∧ nodes = block ++ [.increment name line]

/-- A part of a body up to its end. -/
def IsPart (inRoutine : Bool) (nodes : List Node) : Prop :=
  ∃ before, IsBody inRoutine (before ++ nodes)

/-- Directly before the rounds of a `dla` loop its iterator is bound. -/
def MayPrecede (node next : Node) : Prop :=
  ∀ test body name line, next = .loop test body (some name) line →
    ∃ first line', node = .assignment name [] first true line'

namespace IsBlock

variable {inRoutine : Bool} {line : SourceLine} {nodes nodes' : List Node}

/-- Blocks can stand one after another. -/
theorem append (h : IsBlock inRoutine nodes) (h' : IsBlock inRoutine nodes') :
    IsBlock inRoutine (nodes ++ nodes') := by
  induction h with
  | nil => exact h'
  | mark _ ih => exact .mark (ih h')
  | simple hnode _ ih => exact .simple hnode (ih h')
  | condition htest hthen hfilled _ _ ih => exact .condition htest hthen hfilled (ih h')
  | alternative htest hthen hfilled helse hfilled' _ _ _ ih =>
    exact .alternative htest hthen hfilled helse hfilled' (ih h')
  | whileLoop htest hbody hfilled _ _ ih => exact .whileLoop htest hbody hfilled (ih h')
  | range hfirst hlast hbody hfilled _ _ ih => exact .range hfirst hlast hbody hfilled (ih h')
  | routine hbody hfilled _ _ ih => exact .routine hbody hfilled (ih h')

/-- The nodes of a heading and a filled block, which is the block of a function or procedure if
the heading is one. -/
theorem ofHeading {heading : Heading} {block : List Node} (h : heading.IsRead line)
    (hblock : IsBlock (heading.isRoutine || inRoutine) block) (hfilled : IsFilled block) :
    IsBlock inRoutine (heading.nodes line block) := by
  cases h with
  | condition h => exact .condition h (by simpa [Heading.isRoutine] using hblock) hfilled .nil
  | whileLoop h => exact .whileLoop h (by simpa [Heading.isRoutine] using hblock) hfilled .nil
  | @range name first last hfirst hlast =>
    have hbody : IsBlock inRoutine block := by simpa [Heading.isRoutine] using hblock
    let loop : RangeLoop := ⟨line, name, first, last, block⟩
    have hrange : IsBlock inRoutine [loop.initializer, loop.node] :=
      .range hfirst hlast hbody hfilled .nil
    exact hrange
  | routine name parameters isProcedure =>
    exact .routine (by simpa [Heading.isRoutine] using hblock) hfilled .nil

/-- **The nodes of a block are statements.** -/
theorem isStatement (h : IsBlock inRoutine nodes) : ∀ node ∈ nodes, IsStatement inRoutine node := by
  induction h with
  | nil => exact fun node hnode => nomatch hnode
  | mark _ ih => exact List.forall_mem_cons.mpr ⟨.mark, ih⟩
  | simple hnode _ ih =>
    exact List.forall_mem_cons.mpr ⟨.simple hnode, List.forall_mem_cons.mpr ⟨.mark, ih⟩⟩
  | condition htest hthen _ _ _ ih =>
    exact List.forall_mem_cons.mpr ⟨.condition htest hthen (by simp), ih⟩
  | alternative htest hthen _ helse _ _ _ _ ih =>
    exact List.forall_mem_cons.mpr ⟨.condition htest hthen (by simpa using helse), ih⟩
  | whileLoop htest hbody _ _ _ ih => exact List.forall_mem_cons.mpr ⟨.whileLoop htest hbody, ih⟩
  | range hfirst hlast hbody _ _ _ ih =>
    exact List.forall_mem_cons.mpr
      ⟨.initializer hfirst, List.forall_mem_cons.mpr ⟨.range hlast hbody, ih⟩⟩
  | routine hbody _ _ _ ih => exact List.forall_mem_cons.mpr ⟨.routine hbody, ih⟩

/-- No block begins with the rounds of a `dla` loop. -/
theorem ne_rounds (h : IsBlock inRoutine nodes) {test : Node} {body rest : List Node}
    {name : String} : nodes ≠ .loop test body (some name) line :: rest := by
  intro heq
  subst heq
  cases h with
  | simple h =>
    cases h with
    | expression h => cases h

theorem mayPrecede_head (h : IsBlock inRoutine nodes) (node : Node) :
    ∀ next ∈ nodes.head?, MayPrecede node next := by
  intro next hnext test body name line heq
  obtain ⟨rest, hnodes⟩ := List.head?_eq_some_iff.mp hnext
  rw [heq] at hnodes
  exact absurd hnodes h.ne_rounds

/-- Rounds stand behind their initializer only. -/
theorem isChain (h : IsBlock inRoutine nodes) : nodes.IsChain MayPrecede := by
  induction h with
  | nil => exact .nil
  | mark hrest ih => exact List.isChain_cons.mpr ⟨hrest.mayPrecede_head _, ih⟩
  | simple _ hrest ih =>
    refine List.isChain_cons.mpr ⟨?_, List.isChain_cons.mpr ⟨hrest.mayPrecede_head _, ih⟩⟩
    intro next hnext test body name line heq
    cases hnext
    cases heq
  | condition _ _ _ hrest _ ih | alternative _ _ _ _ _ hrest _ _ ih | whileLoop _ _ _ hrest _ ih
  | routine _ _ hrest _ ih => exact List.isChain_cons.mpr ⟨hrest.mayPrecede_head _, ih⟩
  | @range _ loop rest _ _ _ _ hrest _ ih =>
    refine List.isChain_cons.mpr ⟨?_, List.isChain_cons.mpr ⟨hrest.mayPrecede_head _, ih⟩⟩
    intro next hnext test body name line heq
    cases hnext
    cases heq
    exact ⟨loop.first, loop.line, rfl⟩

theorem isBody (h : IsBlock inRoutine nodes) : IsBody inRoutine nodes := .inl h

theorem isBody_counter (h : IsBlock inRoutine nodes) (name : String) (line : SourceLine) :
    IsBody inRoutine (nodes ++ [.increment name line]) :=
  .inr ⟨nodes, name, line, h, rfl⟩

end IsBlock

theorem IsBody.isPart {inRoutine : Bool} {nodes : List Node} (h : IsBody inRoutine nodes) :
    IsPart inRoutine nodes :=
  ⟨[], h⟩

theorem IsBlock.isPart {inRoutine : Bool} {nodes : List Node} (h : IsBlock inRoutine nodes) :
    IsPart inRoutine nodes :=
  h.isBody.isPart

theorem IsBody.isChain {inRoutine : Bool} {nodes : List Node} (h : IsBody inRoutine nodes) :
    nodes.IsChain MayPrecede := by
  rcases h with h | ⟨block, name, line, h, rfl⟩
  · exact h.isChain
  · refine List.isChain_append.mpr ⟨h.isChain, .singleton _, ?_⟩
    intro node _ next hnext test body name line heq
    cases hnext
    cases heq

namespace IsPart

variable {inRoutine : Bool} {node : Node} {rest : List Node}

theorem tail (h : IsPart inRoutine (node :: rest)) : IsPart inRoutine rest := by
  obtain ⟨before, h⟩ := h
  refine ⟨before ++ [node], ?_⟩
  rwa [List.append_assoc, List.singleton_append]

/-- The first node of a part is a statement, or it is the counter and the last node. -/
theorem head (h : IsPart inRoutine (node :: rest)) :
    IsStatement inRoutine node ∨ ∃ name line, node = .increment name line ∧ rest = [] := by
  obtain ⟨before, h | ⟨block, name, line, h, hend⟩⟩ := h
  · exact .inl (h.isStatement node (by simp))
  · rcases List.eq_nil_or_concat rest with rfl | ⟨rest, last, rfl⟩
    · refine .inr ⟨name, line, ?_, rfl⟩
      simpa using (List.append_inj' hend rfl).2
    · refine .inl (h.isStatement node ?_)
      rw [List.concat_eq_append, ← List.cons_append, ← List.append_assoc] at hend
      rw [← (List.append_inj' hend rfl).1]
      simp

/-- What stands before the rounds of a `dla` loop binds the iterator. -/
theorem initializer_of_rounds {test : Node} {body : List Node} {name : String} {line : SourceLine}
    (h : IsPart inRoutine (node :: .loop test body (some name) line :: rest)) :
    ∃ first line', node = .assignment name [] first true line' := by
  obtain ⟨before, h⟩ := h
  exact (List.isChain_append_cons_cons.mp h.isChain).2.1 test body name line rfl

end IsPart

/-! ### What a statement holds -/

/-- What the nodes of each kind have to hold in order to be statements. -/
def Node.HoldsParts (inRoutine : Bool) : Node → Prop
  | condition _ thenBlock elseBlock _ =>
    IsBlock inRoutine thenBlock ∧ ∀ block ∈ elseBlock, IsBlock inRoutine block
  | loop _ body none _ => IsBlock inRoutine body
  | loop test body (some name) line => ∃ last block, IsExpression line last
    ∧ IsBlock inRoutine block ∧ test = .operation .lessOrEqual (.var name []) last line
    ∧ body = block ++ [.increment name line]
  | routine _ _ body _ _ => IsBlock true body
  | assignment _ _ value true line => IsExpression line value
  | giveBack _ _ => inRoutine = true
  | increment _ _ => False
  | _ => True

namespace IsStatement

variable {inRoutine : Bool} {test : Node} {body : List Node} {line : SourceLine}

theorem holdsParts {node : Node} (h : IsStatement inRoutine node) : node.HoldsParts inRoutine := by
  cases h with
  | mark => trivial
  | simple h =>
    cases h with
    | expression h => cases h <;> trivial
    | giveBack hroutine => exact hroutine
    | _ => trivial
  | condition _ hthen helse => exact ⟨hthen, helse⟩
  | whileLoop _ hbody => exact hbody
  | initializer hfirst => exact hfirst
  | @range loop hlast hbody => exact ⟨loop.last, loop.body, hlast, hbody, rfl, rfl⟩
  | routine hbody => exact hbody

/-- The blocks of a condition are blocks. -/
theorem blocks_of_condition {thenBlock : List Node} {elseBlock : Option (List Node)}
    (h : IsStatement inRoutine (.condition test thenBlock elseBlock line)) :
    IsBlock inRoutine thenBlock ∧ ∀ block ∈ elseBlock, IsBlock inRoutine block :=
  h.holdsParts

/-- The body of a loop is a block, in a `dla` loop followed by the counter. -/
theorem body_of_loop {iterator : Option String}
    (h : IsStatement inRoutine (.loop test body iterator line)) :
    (iterator = none → IsBlock inRoutine body) ∧ ∀ name, iterator = some name →
      ∃ block, IsBlock inRoutine block ∧ body = block ++ [.increment name line] := by
  refine ⟨?_, ?_⟩
  · intro hnone
    subst hnone
    exact h.holdsParts
  · intro name hsome
    subst hsome
    obtain ⟨last, block, -, hblock, -, hbody⟩ := h.holdsParts
    exact ⟨block, hblock, hbody⟩

theorem first_of_initializer {loop : RangeLoop} (h : IsStatement inRoutine loop.initializer) :
    IsExpression loop.line loop.first :=
  h.holdsParts

theorem last_of_rounds {loop : RangeLoop} (h : IsStatement inRoutine loop.node) :
    IsExpression loop.line loop.last ∧ IsBlock inRoutine loop.body := by
  obtain ⟨last, block, hlast, hblock, htest, hbody⟩ := h.holdsParts
  obtain ⟨-, -, rfl, -⟩ := Node.operation.inj htest
  obtain rfl := List.append_inj_left' hbody rfl
  exact ⟨hlast, hblock⟩

theorem block_of_routine {name : String} {parameters : List String} {isProcedure : Bool}
    (h : IsStatement inRoutine (.routine name parameters body isProcedure line)) :
    IsBlock true body :=
  h.holdsParts

theorem isBody_of_loop {iterator : Option String}
    (h : IsStatement inRoutine (.loop test body iterator line)) : IsBody inRoutine body := by
  cases iterator with
  | none => exact (h.body_of_loop.1 rfl).isBody
  | some name =>
    obtain ⟨block, hblock, rfl⟩ := h.body_of_loop.2 name rfl
    exact hblock.isBody_counter name line

end IsStatement

/-- No statement is a counter. -/
theorem not_isStatement_increment {inRoutine : Bool} {name : String} {line : SourceLine} :
    ¬ IsStatement inRoutine (.increment name line) :=
  fun h => h.holdsParts

/-- Outside of a function or procedure nothing is given back. -/
theorem not_isStatement_giveBack {value : Option Node} {line : SourceLine} :
    ¬ IsStatement false (.giveBack value line) :=
  fun h => Bool.false_ne_true h.holdsParts

/-! ### The `dla` loops of a program -/

/-- The blocks inside of a node. -/
def Node.blocks : Node → List (List Node)
  | condition _ thenBlock elseBlock _ => thenBlock :: elseBlock.toList
  | loop _ body _ _ | routine _ _ body _ _ => [body]
  | _ => []

/-- A `dla` loop stands among nodes, or in a block inside of one of them. -/
inductive HasLoop (loop : RangeLoop) : List Node → Prop
  | here (before after : List Node) :
      HasLoop loop (before ++ loop.initializer :: loop.node :: after)
  | inside {nodes block : List Node} {node : Node} (hnode : node ∈ nodes)
      (hblock : block ∈ node.blocks) (hloop : HasLoop loop block) : HasLoop loop nodes

theorem IsBody.isStatement {inRoutine : Bool} {nodes : List Node} {node : Node}
    (h : IsBody inRoutine nodes) (hnode : node ∈ nodes) :
    IsStatement inRoutine node ∨ ∃ name line, node = .increment name line := by
  rcases h with h | ⟨block, name, line, h, rfl⟩
  · exact .inl (h.isStatement node hnode)
  · rcases List.mem_append.mp hnode with hnode | hnode
    · exact .inl (h.isStatement node hnode)
    · exact .inr ⟨name, line, List.mem_singleton.mp hnode⟩

theorem IsStatement.isBody_of_mem_blocks {inRoutine : Bool} {node : Node}
    (h : IsStatement inRoutine node) {block : List Node} (hblock : block ∈ node.blocks) :
    ∃ inRoutine, IsBody inRoutine block := by
  cases node with
  | condition test thenBlock elseBlock line =>
    obtain ⟨hthen, helse⟩ := h.blocks_of_condition
    rcases List.mem_cons.mp hblock with rfl | hblock
    · exact ⟨_, hthen.isBody⟩
    · exact ⟨_, (helse block (Option.mem_toList.mp hblock)).isBody⟩
  | loop test body iterator line =>
    obtain rfl := List.mem_singleton.mp hblock
    exact ⟨_, h.isBody_of_loop⟩
  | routine name parameters body isProcedure line =>
    obtain rfl := List.mem_singleton.mp hblock
    exact ⟨_, h.block_of_routine.isBody⟩
  | _ => cases hblock

/-- An assignment that binds an iterator belongs to a loop. -/
theorem IsBlock.exists_loop {inRoutine : Bool} {name : String} {indices : List Node} {first : Node}
    {line : SourceLine} {rest : List Node}
    (h : IsBlock inRoutine (.assignment name indices first true line :: rest)) :
    ∃ loop after, .assignment name indices first true line = RangeLoop.initializer loop
      ∧ rest = loop.node :: after := by
  generalize hnodes : .assignment name indices first true line :: rest = nodes at h
  cases h with
  | nil => cases hnodes
  | simple h =>
    obtain ⟨rfl, -⟩ := List.cons.inj hnodes
    cases h with
    | expression h => cases h
  | @range _ loop after =>
    obtain ⟨hinitializer, hrest⟩ := List.cons.inj hnodes
    exact ⟨loop, after, hinitializer, hrest⟩
  | _ => cases (List.cons.inj hnodes).1

/-- The loops of a program that was read are those of the grammar. -/
theorem HasLoop.isRead {loop : RangeLoop} {nodes : List Node} (h : HasLoop loop nodes)
    {inRoutine : Bool} (hnodes : IsBody inRoutine nodes) :
    IsExpression loop.line loop.first ∧ IsExpression loop.line loop.last
      ∧ ∃ inRoutine, IsBlock inRoutine loop.body := by
  induction h generalizing inRoutine with
  | here before after =>
    have hinitializer : IsStatement inRoutine loop.initializer :=
      (hnodes.isStatement (by simp)).resolve_right nofun
    have hrounds : IsStatement inRoutine loop.node :=
      (hnodes.isStatement (by simp)).resolve_right nofun
    exact ⟨hinitializer.first_of_initializer, hrounds.last_of_rounds.1, _, hrounds.last_of_rounds.2⟩
  | inside hnode hblock _ ih =>
    rcases hnodes.isStatement hnode with hstatement | ⟨name, line, rfl⟩
    · obtain ⟨inRoutine, hbody⟩ := hstatement.isBody_of_mem_blocks hblock
      exact ih hbody
    · cases hblock

end Tablica
