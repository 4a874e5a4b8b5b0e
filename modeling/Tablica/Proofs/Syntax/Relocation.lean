import Tablica.Proofs.Syntax.Forms
import Tablica.Proofs.Token.Spelling

/-!
# Lines that are moved

What a line is read as depends on its characters only.  The line itself and the positions of the
tokens are handed on: they come back in the nodes and in the faults, and nothing is decided by
them.  So if a line is **relocated**, and its tokens with it, the same is read from it, with all
lines and positions relocated.

    lexemes ──read──▸ form
       │                │
    relocate         relocate
       ▾                ▾
    lexemes ──read──▸ form

The line may also cease to be the last one of its text.  Then the end of the program becomes the end
of a line, which some faults tell apart; the form, if there is one, stays the same.

* `Node.mapLines` — a tree with other lines;
* `Relocation` — where lines and positions go, and what becomes of all that is read;
* `Except.Relates` — two results that are both given or both refused;
* `Relocation.readForm_relates` — the square;
* `Token.lexemesFrom_relocates` — the lexemes of a line that stands elsewhere.
-/

namespace Tablica

/-! ### Trees with other lines -/

namespace Node

mutual

/-- The tree whose lines are replaced. -/
def mapLines (f : SourceLine → SourceLine) : Node → Node
  | number n => number n
  | text s => text s
  | boolean b => boolean b
  | var name indices => var name (mapLinesOfList f indices)
  | operation operator left right line =>
    operation operator (mapLines f left) (mapLines f right) (f line)
  | call name arguments line => call name (mapLinesOfList f arguments) (f line)
  | assignment name indices value isIterator line =>
    assignment name (mapLinesOfList f indices) (mapLines f value) isIterator (f line)
  | command c argument line => command c (mapLinesOfOption f argument) (f line)
  | condition test thenBlock elseBlock line =>
    condition (mapLines f test) (mapLinesOfList f thenBlock) (mapLinesOfBlock f elseBlock) (f line)
  | loop test body iterator line =>
    loop (mapLines f test) (mapLinesOfList f body) iterator (f line)
  | routine name parameters body isProcedure line =>
    routine name parameters (mapLinesOfList f body) isProcedure (f line)
  | giveBack value line => giveBack (mapLinesOfOption f value) (f line)
  | increment name line => increment name (f line)
  | endOfLine => endOfLine

/-- The trees of a list with other lines. -/
def mapLinesOfList (f : SourceLine → SourceLine) : List Node → List Node
  | [] => []
  | node :: rest => mapLines f node :: mapLinesOfList f rest

/-- The tree with other lines, if there is one. -/
def mapLinesOfOption (f : SourceLine → SourceLine) : Option Node → Option Node
  | none => none
  | some node => some (mapLines f node)

/-- The block with other lines, if there is one. -/
def mapLinesOfBlock (f : SourceLine → SourceLine) : Option (List Node) → Option (List Node)
  | none => none
  | some block => some (mapLinesOfList f block)

end

mutual

theorem mapLines_id (node : Node) : node.mapLines id = node := by
  cases node <;>
    simp only [mapLines, mapLines_id, mapLinesOfList_id, mapLinesOfOption_id, mapLinesOfBlock_id,
      id_eq]
termination_by structural node

theorem mapLinesOfList_id (nodes : List Node) : mapLinesOfList id nodes = nodes := by
  cases nodes <;> simp only [mapLinesOfList, mapLines_id, mapLinesOfList_id]
termination_by structural nodes

theorem mapLinesOfOption_id (node : Option Node) : mapLinesOfOption id node = node := by
  cases node <;> simp only [mapLinesOfOption, mapLines_id]
termination_by structural node

theorem mapLinesOfBlock_id (block : Option (List Node)) : mapLinesOfBlock id block = block := by
  cases block <;> simp only [mapLinesOfBlock, mapLinesOfList_id]
termination_by structural block

end

@[simp] theorem mapLinesOfList_eq_map (f : SourceLine → SourceLine) (nodes : List Node) :
    mapLinesOfList f nodes = nodes.map (mapLines f) := by
  induction nodes with
  | nil => rfl
  | cons node rest ih => rw [mapLinesOfList, ih, List.map_cons]

@[simp] theorem mapLinesOfOption_eq_map (f : SourceLine → SourceLine) (node : Option Node) :
    mapLinesOfOption f node = node.map (mapLines f) := by
  cases node <;> rfl

@[simp] theorem mapLinesOfBlock_eq_map (f : SourceLine → SourceLine) (block : Option (List Node)) :
    mapLinesOfBlock f block = block.map (List.map (mapLines f)) := by
  cases block <;> simp [mapLinesOfBlock]

end Node

/-! ### Related results -/

/-- Both results are given or both are refused, and they are related. -/
inductive Relates {ε ε' α α' : Type} (E : ε → ε' → Prop) (V : α → α' → Prop) :
    Except ε α → Except ε' α' → Prop
  | ok {a : α} {a' : α'} (h : V a a') : Relates E V (.ok a) (.ok a')
  | error {e : ε} {e' : ε'} (h : E e e') : Relates E V (.error e) (.error e')

namespace Relates

variable {ε ε' α α' β β' : Type} {E : ε → ε' → Prop} {V : α → α' → Prop} {W : β → β' → Prop}
  {x : Except ε α} {x' : Except ε' α'}

theorem bind {f : α → Except ε β} {f' : α' → Except ε' β'} (h : Relates E V x x')
    (hf : ∀ a a', V a a' → Relates E W (f a) (f' a')) : Relates E W (x >>= f) (x' >>= f') := by
  cases h with
  | ok h => exact hf _ _ h
  | error h => exact .error h

theorem map {f : α → β} {f' : α' → β'} (h : Relates E V x x')
    (hf : ∀ a a', V a a' → W (f a) (f' a')) : Relates E W (x.map f) (x'.map f') := by
  cases h with
  | ok h => exact .ok (hf _ _ h)
  | error h => exact .error h

theorem mono {E' : ε → ε' → Prop} {V' : α → α' → Prop} (h : Relates E V x x')
    (hE : ∀ e e', E e e' → E' e e') (hV : ∀ a a', V a a' → V' a a') : Relates E' V' x x' := by
  cases h with
  | ok h => exact .ok (hV _ _ h)
  | error h => exact .error (hE _ _ h)

theorem exists_of_ok {a : α} (h : Relates E V (.ok a) x') : ∃ a', x' = .ok a' ∧ V a a' := by
  cases h with
  | ok h => exact ⟨_, rfl, h⟩

end Relates

/-! ### Relocations -/

/-- Where lines and positions go. -/
structure Relocation where
  line : SourceLine → SourceLine
  position : Position → Position

namespace Relocation

variable (r : Relocation)

def node : Node → Node := Node.mapLines r.line

def token (t : Token) : Token := ⟨t.kind, r.position t.position⟩

def fault (e : Fault) : Fault := ⟨e.kind, r.position e.position⟩

def lexeme : Lexeme → Lexeme
  | .token t next => .token (r.token t) next
  | .fault e => .fault (r.fault e)

def stop (s : Stop) : Stop := ⟨s.kind?, r.position s.position⟩

def item : Item → Item
  | .operand node position => .operand (r.node node) (r.position position)
  | .operator o position => .operator o (r.position position)

def bracket : Bracket → Bracket
  | .parenthesis position => .parenthesis (r.position position)
  | .arguments name position before => .arguments name (r.position position) (before.map r.node)
  | .index name position before => .index name (r.position position) (before.map r.node)

/-- A bracket with the run that it interrupted. -/
def layer (entry : Bracket × List Item) : Bracket × List Item :=
  (r.bracket entry.1, entry.2.map r.item)

def reader (reader : Reader) : Reader where
  run := reader.run.map r.item
  opened := reader.opened.map r.layer
  opening := reader.opening

def step : Reader.Step → Reader.Step
  | .more reader => .more (r.reader reader)
  | .done node stop => .done (r.node node) (r.stop stop)

def heading : Heading → Heading
  | .condition test => .condition (r.node test)
  | .alternative test block => .alternative (r.node test) (block.map r.node)
  | .whileLoop test => .whileLoop (r.node test)
  | .range name first last => .range name (r.node first) (r.node last)
  | .routine name parameters isProcedure => .routine name parameters isProcedure

def form : Form → Form
  | .simple node => .simple (r.node node)
  | .heading heading => .heading (r.heading heading)

/-- A result of reading, which may be a fault. -/
def result {α : Type} (f : α → α) : Except Fault α → Except Fault α
  | .ok a => .ok (f a)
  | .error e => .error (r.fault e)

/-- A fault at the place where the given one has gone, of the same variant. -/
def Moves (e e' : Fault) : Prop :=
  e'.position = r.position e.position ∧ e'.kind.ctorIdx = e.kind.ctorIdx

/-- A stop at the place where the given one has gone.  The end of the program may have become the
end of a line. -/
structure StopMoves (s s' : Stop) : Prop where
  position : s'.position = r.position s.position
  kind : s'.kind? = s.kind? ∨ s.kind? = none ∧ s'.kind? = some .endOfLine

/-- The same for the ending of a line. -/
inductive EndingMoves : Ending → Ending → Prop
  | line (position : Position) : EndingMoves (.line position) (.line (r.position position))
  | input (position : Position) : EndingMoves (.input position) (.input (r.position position))
  | continued (position : Position) :
    EndingMoves (.input position) (.line (r.position position))
  | stuck (e : Fault) : EndingMoves (.stuck e) (.stuck (r.fault e))

variable {r}

theorem moves_fault (e : Fault) : r.Moves e (r.fault e) := ⟨rfl, rfl⟩

theorem relates_result {α : Type} (f : α → α) (x : Except Fault α) :
    Relates r.Moves (fun a a' => a' = f a) x (r.result f x) := by
  cases x with
  | ok a => exact .ok rfl
  | error e => exact .error (moves_fault e)

/-- Functions on results that go with the relocation of their arguments. -/
theorem result_map {α β : Type} {f : α → α} {g : β → β} {h h' : α → β} (x : Except Fault α)
    (hcomm : ∀ a, h' (f a) = g (h a)) : (r.result f x).map h' = r.result g (x.map h) := by
  cases x with
  | ok a => exact congrArg Except.ok (hcomm a)
  | error e => rfl

/-! ### Runs -/

/-- An operator with its right operand. -/
def pair (r : Relocation) (entry : Operator × Node) : Operator × Node := (entry.1, r.node entry.2)

theorem pairs_map (run : List Item) :
    Item.pairs (run.map r.item) = r.result (List.map r.pair) (Item.pairs run) := by
  fun_induction Item.pairs run with
  | case1 => rfl
  | case2 => rfl
  | case3 o position node position' rest ih =>
    show (Item.pairs (rest.map r.item)).map ((o, r.node node) :: ·) = _
    rw [ih]
    exact result_map _ fun _ => rfl
  | case4 o position rest h =>
    cases rest with
    | nil => rfl
    | cons item rest =>
      cases item with
      | operand node position' => exact absurd rfl (h node position' rest)
      | operator o' position' => rfl

theorem split_map (stop : Position) (run : List Item) :
    Item.split (r.position stop) (run.map r.item)
      = r.result (fun first => (r.node first.1, first.2.map r.pair)) (Item.split stop run) := by
  cases run with
  | nil => rfl
  | cons item rest =>
    cases item with
    | operand node position =>
      show (Item.pairs (rest.map r.item)).map (r.node node, ·) = _
      rw [pairs_map]
      exact result_map _ fun _ => rfl
    | operator o position =>
      show (if o.isSign then (Item.pairs ((Item.operator o position :: rest).map r.item)).map
        (Node.number .zero, ·) else _) = r.result _ (if o.isSign then _ else _)
      split
      · rw [pairs_map]
        exact result_map _ fun _ => rfl
      · rfl

theorem settle_map (line : SourceLine) (rank : Nat) (waiting : Waiting) (right : Node) :
    Waiting.settle (r.line line) rank (waiting.map fun entry => (r.node entry.1, entry.2))
        (r.node right)
      = ((waiting.settle line rank right).1.map fun entry => (r.node entry.1, entry.2),
        r.node (waiting.settle line rank right).2) := by
  induction waiting generalizing right with
  | nil => rfl
  | cons entry waiting ih =>
    obtain ⟨left, o⟩ := entry
    simp only [List.map_cons, Waiting.settle]
    split
    · exact ih (.operation o left right line)
    · rfl

theorem fold_map (line : SourceLine) (waiting : Waiting) (last : Node)
    (rest : List (Operator × Node)) :
    Waiting.fold (r.line line) (waiting.map fun entry => (r.node entry.1, entry.2)) (r.node last)
        (rest.map r.pair)
      = r.node (Waiting.fold line waiting last rest) := by
  induction rest generalizing waiting last with
  | nil => simp only [List.map_nil, Waiting.fold, settle_map]
  | cons entry rest ih =>
    obtain ⟨o, node⟩ := entry
    simp only [List.map_cons, pair, Waiting.fold, settle_map]
    exact ih (((waiting.settle line o.precedence.rank last).2, o)
      :: (waiting.settle line o.precedence.rank last).1) node

/-- The tree of a run. -/
theorem tree_map (line : SourceLine) (stop : Position) (run : List Item) :
    Item.tree (r.line line) (r.position stop) (run.map r.item)
      = r.result r.node (Item.tree line stop run) := by
  rw [Item.tree, Item.tree, split_map]
  exact result_map _ fun first => fold_map line [] first.1 first.2

/-! ### The reader -/

theorem found_stop (s : Stop) : (r.stop s).found = s.found := rfl

theorem reader_tree (line : SourceLine) (reader : Reader) (s : Stop) :
    (r.reader reader).tree (r.line line) (r.stop s) = r.result r.node (reader.tree line s) := by
  unfold Reader.tree
  simp only [Relocation.reader, List.isEmpty_map, ← List.map_reverse, found_stop]
  split
  · rfl
  · exact tree_map line s.position _

theorem reader_finish (line : SourceLine) (reader : Reader) (s : Stop) :
    (r.reader reader).finish (r.line line) (r.stop s)
      = r.result (fun found => (r.node found.1, r.stop found.2)) (reader.finish line s) := by
  unfold Reader.finish
  rw [reader_tree]
  cases reader.tree line s with
  | error e => rfl
  | ok node =>
    obtain ⟨run, opened, opening⟩ := reader
    cases opened with
    | nil => rfl
    | cons entry opened =>
      obtain ⟨bracket, run'⟩ := entry
      cases bracket <;> rfl

@[simp] theorem node_call (name : String) (arguments : List Node) (line : SourceLine) :
    r.node (.call name arguments line) = .call name (arguments.map r.node) (r.line line) := by
  simp [node, Node.mapLines]

@[simp] theorem node_var (name : String) (indices : List Node) :
    r.node (.var name indices) = .var name (indices.map r.node) := by
  simp [node, Node.mapLines]

/-- A token that ends a run. -/
theorem reader_close (line : SourceLine) (reader : Reader) (t : Token) (next : Option Char) :
    (r.reader reader).close (r.line line) (r.token t) next
      = r.result r.step (reader.close line t next) := by
  have hfinish : ((r.reader reader).finish (r.line line) (Stop.ofToken (r.token t))).map
      (fun found => Reader.Step.done found.1 found.2)
      = r.result r.step ((reader.finish line (Stop.ofToken t)).map
        fun found => .done found.1 found.2) := by
    refine Eq.trans (congrArg _ (reader_finish line reader (Stop.ofToken t))) ?_
    exact result_map _ fun _ => rfl
  have htree : ∀ {h h' : Node → Reader.Step}, (∀ node, h' (r.node node) = r.step (h node)) →
      ((r.reader reader).tree (r.line line) (Stop.ofToken (r.token t))).map h'
        = r.result r.step ((reader.tree line (Stop.ofToken t)).map h) := by
    intro h h' hcomm
    refine Eq.trans (congrArg _ (reader_tree line reader (Stop.ofToken t))) ?_
    exact result_map _ hcomm
  obtain ⟨kind, position⟩ := t
  obtain ⟨run, opened, opening⟩ := reader
  rcases opened with _ | ⟨⟨bracket, run'⟩, opened⟩
  · cases kind with
    | punctuator p => cases p <;> exact hfinish
    | _ => exact hfinish
  · cases kind with
    | punctuator p =>
      cases p with
      | closeParenthesis =>
        cases bracket with
        | parenthesis position' => exact htree fun node => rfl
        | arguments name position' before =>
          have hcall : ∀ node : Node, Reader.Step.more
              { run := .operand
                  (.call name (r.node node :: before.map r.node).reverse (r.line line))
                  (r.position position') :: run'.map r.item
                opened := opened.map r.layer }
              = r.step (.more
                { run := .operand (.call name (node :: before).reverse line) position' :: run'
                  opened := opened }) := fun node => by
            simp [step, Relocation.reader, item]
          cases before with
          | nil =>
            cases run with
            | nil =>
              simp [Reader.close, Relocation.reader, layer, bracket, token, result, step, item]
            | cons => exact htree hcall
          | cons => exact htree hcall
        | index => exact hfinish
      | comma =>
        cases bracket with
        | arguments => exact htree fun node => rfl
        | _ => exact hfinish
      | closeBracket =>
        cases bracket with
        | index name position' before =>
          refine htree fun node => ?_
          split
          · rfl
          · simp [step, Relocation.reader, item]
        | _ => exact hfinish
      | _ => exact hfinish
    | _ => exact hfinish

/-- **One token.** -/
theorem reader_step (line : SourceLine) (isStatement : Bool) (reader : Reader) (t : Token)
    (next : Option Char) :
    (r.reader reader).step (r.line line) isStatement (r.token t) next
      = r.result r.step (reader.step line isStatement t next) := by
  have hclose := reader_close (r := r) line reader t next
  obtain ⟨kind, position⟩ := t
  obtain ⟨run, opened, opening⟩ := reader
  cases opening with
  | true => rfl
  | false =>
    cases kind with
    | number | boolean | text | operator => rfl
    | identifier name =>
      simp only [Reader.step, Relocation.reader, Bool.false_eq_true, if_false, token]
      split
      · rfl
      · split
        · rfl
        · simp [result, step, Relocation.reader, Reader.push, item]
    | punctuator p =>
      cases p with
      | assignment =>
        cases isStatement with
        | false => rfl
        | true =>
          rcases opened with _ | ⟨entry, opened⟩
          · rcases run with _ | ⟨entry, _ | ⟨entry', run⟩⟩
            · rfl
            · cases entry with
              | operand node position' =>
                cases node with
                | var name indices =>
                  simp [Reader.step, Relocation.reader, item, token, result, step, stop,
                    Stop.ofToken]
                | _ => rfl
              | operator => rfl
            · cases entry with
              | operand node position' => cases node <;> rfl
              | operator => rfl
          · rfl
      | openParenthesis | openBracket => rfl
      | _ => exact hclose
    | range | endOfLine => exact hclose
    | keyword keyword =>
      simp only [Reader.step, Relocation.reader, Bool.false_eq_true, if_false, token]
      split
      · exact hclose
      · rfl

theorem reader_looksAhead (reader : Reader) :
    (r.reader reader).looksAhead = reader.looksAhead := by
  obtain ⟨run, opened, opening⟩ := reader
  cases opening with
  | true => rfl
  | false =>
    rcases opened with _ | ⟨⟨bracket, run'⟩, opened⟩
    · rfl
    · cases bracket with
      | arguments name position before => cases before <;> cases run <;> rfl
      | _ => rfl

/-! ### Stops -/

/-- An expression ends alike at stops that are told apart by the end of the program at most. -/
theorem StopMoves.reader_finish {s s' : Stop} (h : r.StopMoves s s') (line : SourceLine)
    (reader : Reader) :
    Relates r.Moves (fun found found' => found'.1 = r.node found.1 ∧ r.StopMoves found.2 found'.2)
      (reader.finish line s) ((r.reader reader).finish (r.line line) s') := by
  have htree : Relates r.Moves (fun node node' => node' = r.node node) (reader.tree line s)
      ((r.reader reader).tree (r.line line) s') := by
    unfold Reader.tree
    simp only [Relocation.reader, List.isEmpty_map, ← List.map_reverse]
    split
    · exact .error ⟨h.position, rfl⟩
    · rw [h.position, tree_map]
      exact relates_result _ _
  refine htree.bind fun node node' hnode => ?_
  obtain ⟨run, opened, opening⟩ := reader
  cases opened with
  | nil => exact .ok ⟨hnode, h⟩
  | cons entry opened =>
    obtain ⟨bracket, run'⟩ := entry
    exact .error ⟨h.position, rfl⟩

/-- **What comes next on a line.** -/
theorem next_relates {ending ending' : Ending} (h : r.EndingMoves ending ending')
    (items : List Lexeme) :
    Relates r.Moves r.StopMoves (Stop.next ending items)
      (Stop.next ending' (items.map r.lexeme)) := by
  cases items with
  | nil =>
    cases h with
    | line position => exact .ok ⟨rfl, .inl rfl⟩
    | input position => exact .ok ⟨rfl, .inl rfl⟩
    | continued position => exact .ok ⟨rfl, .inr ⟨rfl, rfl⟩⟩
    | stuck e => exact .error (moves_fault e)
  | cons lexeme items =>
    cases lexeme with
    | token t next => exact .ok ⟨rfl, .inl rfl⟩
    | fault e => exact .error (moves_fault e)

theorem StopMoves.is_eq {s s' : Stop} (h : r.StopMoves s s') {kind : TokenKind}
    (hkind : kind ≠ .endOfLine) : s'.is kind = s.is kind := by
  unfold Stop.is
  rcases h.kind with h | ⟨h, h'⟩
  · rw [h]
  · rw [h, h']
    simpa using fun heq => hkind heq.symm

theorem StopMoves.isRange_eq {s s' : Stop} (h : r.StopMoves s s') : s'.isRange = s.isRange := by
  unfold Stop.isRange
  rcases h.kind with h | ⟨h, h'⟩
  · rw [h]
  · rw [h, h']

/-- A line that is over is over. -/
theorem StopMoves.endLine {s s' : Stop} (h : r.StopMoves s s') :
    Relates r.Moves (fun _ _ => True) s.endLine s'.endLine := by
  obtain ⟨kind?, position⟩ := s
  obtain ⟨kind?', position'⟩ := s'
  obtain ⟨hposition, hkind⟩ := h
  rcases hkind with hkind | ⟨rfl, rfl⟩
  · obtain rfl : kind?' = kind? := hkind
    rcases kind?' with _ | kind
    · exact .ok trivial
    · cases kind with
      | endOfLine => exact .ok trivial
      | _ => exact .error ⟨hposition, rfl⟩
  · exact .ok trivial

/-- **Lexemes up to the stop.** -/
theorem read_relates {ending ending' : Ending} (h : r.EndingMoves ending ending')
    (line : SourceLine) (isStatement : Bool) (reader : Reader) (items : List Lexeme) :
    let found := reader.read line isStatement ending items
    let found' := (r.reader reader).read (r.line line) isStatement ending' (items.map r.lexeme)
    Relates r.Moves (fun found found' => found'.1 = r.node found.1 ∧ r.StopMoves found.2 found'.2)
      found.1 found'.1 ∧ found'.2 = found.2.map r.lexeme := by
  induction items generalizing reader with
  | nil =>
    exact ⟨(next_relates h []).bind fun s s' hstop => hstop.reader_finish line reader, rfl⟩
  | cons lexeme items ih =>
    cases lexeme with
    | fault e =>
      refine ⟨.error (moves_fault e), ?_⟩
      simp only [List.map_cons, lexeme, Reader.read, reader_looksAhead]
      split <;> rfl
    | token t next =>
      simp only [List.map_cons, lexeme, Reader.read, reader_step]
      cases reader.step line isStatement t next with
      | error e => exact ⟨.error (moves_fault e), rfl⟩
      | ok step =>
        cases step with
        | more reader => exact ih reader
        | done node s => exact ⟨.ok ⟨rfl, rfl, .inl rfl⟩, rfl⟩

/-- **An expression.** -/
theorem readExpression_relates {ending ending' : Ending} (h : r.EndingMoves ending ending')
    (line : SourceLine) (items : List Lexeme) :
    let found := readExpression line ending items
    let found' := readExpression (r.line line) ending' (items.map r.lexeme)
    Relates r.Moves (fun found found' => found'.1 = r.node found.1 ∧ r.StopMoves found.2 found'.2)
      found.1 found'.1 ∧ found'.2 = found.2.map r.lexeme :=
  read_relates h line false {} items

/-! ### Forms -/

section Forms

variable {ending ending' : Ending} (h : r.EndingMoves ending ending') (line : SourceLine)
  (items : List Lexeme)

include h

theorem finishLine_relates :
    Relates r.Moves (fun _ _ => True) (Form.finishLine ending items)
      (Form.finishLine ending' (items.map r.lexeme)) :=
  (next_relates h items).bind fun _ _ hstop => hstop.endLine

theorem expressionToEnd_relates :
    Relates r.Moves (fun node node' => node' = r.node node)
      (Form.expressionToEnd line ending items)
      (Form.expressionToEnd (r.line line) ending' (items.map r.lexeme)) := by
  refine (readExpression_relates h line items).1.bind fun found found' hfound => ?_
  exact hfound.2.endLine.bind fun _ _ _ => .ok hfound.1

theorem headingExpression_relates {closing : Keyword} :
    Relates r.Moves (fun node node' => node' = r.node node)
      (Form.headingExpression closing line ending items)
      (Form.headingExpression closing (r.line line) ending' (items.map r.lexeme)) := by
  obtain ⟨hfound, hrest⟩ := readExpression_relates h line items
  refine hfound.bind fun found found' hfound => ?_
  have hkeyword : TokenKind.keyword closing ≠ .endOfLine := nofun
  have hfinish := finishLine_relates h (readExpression line ending items).2
  rw [← hrest] at hfinish
  simp only [hfound.2.is_eq hkeyword]
  split
  · exact hfinish.bind fun _ _ _ => .ok hfound.1
  · exact .error ⟨hfound.2.position, rfl⟩

theorem takeName_relates (place : NamePlace) :
    Relates r.Moves (fun taken taken' => taken' = (taken.1, taken.2.map r.lexeme))
      (Form.takeName place ending items)
      (Form.takeName place ending' (items.map r.lexeme)) := by
  refine (next_relates h items).bind fun s s' hstop => ?_
  obtain ⟨kind?, position⟩ := s
  obtain ⟨kind?', position'⟩ := s'
  obtain ⟨hposition, hkind⟩ := hstop
  rcases hkind with hkind | ⟨rfl, rfl⟩
  · obtain rfl : kind?' = kind? := hkind
    rcases kind?' with _ | kind
    · exact .error ⟨hposition, rfl⟩
    · cases kind with
      | identifier name =>
        refine .ok ?_
        rw [List.map_tail]
      | _ => exact .error ⟨hposition, rfl⟩
  · exact .error ⟨hposition, rfl⟩

theorem takePunctuator_relates (punctuator : Punctuator) (wanted : Wanted) :
    Relates r.Moves (fun rest rest' => rest' = rest.map r.lexeme)
      (Form.takePunctuator punctuator wanted ending items)
      (Form.takePunctuator punctuator wanted ending' (items.map r.lexeme)) := by
  refine (next_relates h items).bind fun s s' hstop => ?_
  have hpunctuator : TokenKind.punctuator punctuator ≠ .endOfLine := nofun
  simp only [hstop.is_eq hpunctuator]
  split
  · refine .ok ?_
    rw [List.map_tail]
  · exact .error ⟨hstop.position, rfl⟩

omit h in
theorem dropComma_map :
    Form.dropComma (items.map r.lexeme) = (Form.dropComma items).map r.lexeme := by
  rcases items with _ | ⟨lexeme, items⟩
  · rfl
  · cases lexeme with
    | fault e => rfl
    | token t next =>
      obtain ⟨kind, position⟩ := t
      cases kind with
      | punctuator p => cases p <;> rfl
      | _ => rfl

theorem takeRange_relates {s s' : Stop} (hstop : r.StopMoves s s') :
    Relates r.Moves (fun rest rest' => rest' = rest.map r.lexeme)
      (Form.takeRange ending s items) (Form.takeRange ending' s' (items.map r.lexeme)) := by
  have hcomma : TokenKind.punctuator .comma ≠ .endOfLine := nofun
  unfold Form.takeRange
  simp only [hstop.isRange_eq, hstop.is_eq hcomma]
  split
  · exact .ok (dropComma_map items)
  · split
    · refine (next_relates h items).bind fun s s' hstop => ?_
      simp only [hstop.isRange_eq]
      split
      · refine .ok ?_
        rw [← List.map_tail, dropComma_map]
      · exact .error ⟨hstop.position, rfl⟩
    · exact .error ⟨hstop.position, rfl⟩

theorem rangeHeading_relates :
    Relates r.Moves (fun heading heading' => heading' = r.heading heading)
      (Form.rangeHeading line ending items)
      (Form.rangeHeading (r.line line) ending' (items.map r.lexeme)) := by
  refine (takeName_relates h items .dla).bind fun taken taken' htaken => ?_
  subst htaken
  refine (takePunctuator_relates h taken.2 .assignment .assignment).bind fun rest rest' hrest => ?_
  subst hrest
  obtain ⟨hfirst, hleft⟩ := readExpression_relates h line rest
  refine hfirst.bind fun first first' hfirst => ?_
  have hrange := takeRange_relates h (readExpression line ending rest).2 hfirst.2
  rw [← hleft] at hrange
  refine hrange.bind fun rest rest' hrest => ?_
  subst hrest
  refine (headingExpression_relates h line rest).bind fun last last' hlast => .ok ?_
  rw [hlast, hfirst.1]
  rfl

theorem takeParameters_relates :
    Relates r.Moves (fun taken taken' => taken' = (taken.1, taken.2.map r.lexeme))
      (Form.takeParameters ending items)
      (Form.takeParameters ending' (items.map r.lexeme)) := by
  fun_induction Form.takeParameters ending items with
  | case1 name position next position' next' rest ih =>
    exact ih.map fun taken taken' htaken => by
      subst htaken
      rfl
  | case2 name position next position' next' rest => exact .ok rfl
  | case3 name position next rest hcomma hclose =>
    have hfault : Relates r.Moves
        (fun (taken taken' : List String × List Lexeme) =>
          taken' = (taken.1, taken.2.map r.lexeme))
        ((Stop.next ending rest).bind fun stop => .error
          ⟨.expected .commaOrCloseParenthesis stop.found, stop.position⟩)
        ((Stop.next ending' (rest.map r.lexeme)).bind fun stop => .error
          ⟨.expected .commaOrCloseParenthesis stop.found, stop.position⟩) :=
      (next_relates h rest).bind fun _ _ hstop => .error ⟨hstop.position, rfl⟩
    rcases rest with _ | ⟨lexeme, rest⟩
    · exact hfault
    · cases lexeme with
      | fault e => exact hfault
      | token t next' =>
        obtain ⟨kind, position'⟩ := t
        cases kind with
        | punctuator p =>
          cases p with
          | comma => exact absurd rfl (hcomma position' next' rest)
          | closeParenthesis => exact absurd rfl (hclose position' next' rest)
          | _ => exact hfault
        | _ => exact hfault
  | case4 items _ _ hname =>
    have hfault : Relates r.Moves
        (fun (taken taken' : List String × List Lexeme) =>
          taken' = (taken.1, taken.2.map r.lexeme))
        ((Stop.next ending items).bind fun stop => .error
          ⟨.expectedName .parameter stop.found, stop.position⟩)
        ((Stop.next ending' (items.map r.lexeme)).bind fun stop => .error
          ⟨.expectedName .parameter stop.found, stop.position⟩) :=
      (next_relates h items).bind fun _ _ hstop => .error ⟨hstop.position, rfl⟩
    rcases items with _ | ⟨lexeme, items⟩
    · exact hfault
    · cases lexeme with
      | fault e => exact hfault
      | token t next =>
        obtain ⟨kind, position⟩ := t
        cases kind with
        | identifier name => exact absurd rfl (hname name position next items)
        | _ => exact hfault

theorem routineHeading_relates (isProcedure : Bool) :
    Relates r.Moves (fun heading heading' => heading' = r.heading heading)
      (Form.routineHeading isProcedure ending items)
      (Form.routineHeading isProcedure ending' (items.map r.lexeme)) := by
  refine (takeName_relates h items _).bind fun taken taken' htaken => ?_
  subst htaken
  refine (takePunctuator_relates h taken.2 .openParenthesis .openParenthesis).bind
    fun rest rest' hrest => ?_
  subst hrest
  have hends : ∀ (names : List String) (rest : List Lexeme),
      Relates r.Moves (fun heading heading' => heading' = r.heading heading)
        (do
          Form.finishLine ending rest
          return Heading.routine taken.1 names isProcedure)
        (do
          Form.finishLine ending' (rest.map r.lexeme)
          return Heading.routine taken.1 names isProcedure) := fun names rest =>
    (finishLine_relates h rest).bind fun _ _ _ => .ok rfl
  have hparameters : Relates r.Moves (fun heading heading' => heading' = r.heading heading)
      (do
        let parameters ← Form.takeParameters ending rest
        Form.finishLine ending parameters.2
        return Heading.routine taken.1 parameters.1 isProcedure)
      (do
        let parameters ← Form.takeParameters ending' (rest.map r.lexeme)
        Form.finishLine ending' parameters.2
        return Heading.routine taken.1 parameters.1 isProcedure) := by
    refine (takeParameters_relates h rest).bind fun taken taken' htaken => ?_
    subst htaken
    exact hends taken.1 taken.2
  rcases rest with _ | ⟨lexeme, rest⟩
  · exact hparameters
  · cases lexeme with
    | fault e => exact hparameters
    | token t next =>
      obtain ⟨kind, position⟩ := t
      cases kind with
      | punctuator p =>
        cases p with
        | closeParenthesis => exact hends [] rest
        | _ => exact hparameters
      | _ => exact hparameters

theorem ofKeyword_relates (inRoutine : Bool) (position : Position) (keyword : Keyword) :
    Relates r.Moves (fun form form' => form' = r.form form)
      (Form.ofKeyword line inRoutine position ending items keyword)
      (Form.ofKeyword (r.line line) inRoutine (r.position position) ending' (items.map r.lexeme)
        keyword) := by
  have hexpression := expressionToEnd_relates h line items
  cases keyword with
  | pisz | czytaj =>
    refine hexpression.bind fun node node' hnode => .ok ?_
    rw [hnode]
    rfl
  | koniec => exact (finishLine_relates h items).bind fun _ _ _ => .ok rfl
  | jezeli | dopoki =>
    refine (headingExpression_relates h line items).bind fun node node' hnode => .ok ?_
    rw [hnode]
    rfl
  | dla =>
    refine (rangeHeading_relates h line items).bind fun heading heading' hheading => .ok ?_
    rw [hheading]
    rfl
  | funkcja | procedura =>
    refine (routineHeading_relates h items _).bind fun heading heading' hheading => .ok ?_
    rw [hheading]
    rfl
  | zwroc =>
    simp only [Form.ofKeyword]
    split
    · exact .error ⟨rfl, rfl⟩
    · refine (next_relates h items).bind fun s s' hstop => ?_
      have hvalue : Relates r.Moves (fun form form' => form' = r.form form)
          (do return Form.simple (.giveBack (some (← Form.expressionToEnd line ending items)) line))
          (do return Form.simple (.giveBack (some
            (← Form.expressionToEnd (r.line line) ending' (items.map r.lexeme))) (r.line line))) :=
        hexpression.bind fun node node' hnode => .ok (by rw [hnode]; rfl)
      rcases hstop.kind with hkind | ⟨hkind, hkind'⟩
      · rw [hkind]
        rcases s.kind? with _ | kind
        · exact .ok rfl
        · cases kind with
          | endOfLine => exact .ok rfl
          | _ => exact hvalue
      · rw [hkind, hkind']
        exact .ok rfl
  | _ => exact .error ⟨rfl, rfl⟩

theorem ofName_relates :
    Relates r.Moves (fun form form' => form' = r.form form)
      (Form.ofName line ending items)
      (Form.ofName (r.line line) ending' (items.map r.lexeme)) := by
  obtain ⟨hfound, hrest⟩ := read_relates h line true {} items
  refine hfound.bind fun found found' hfound => ?_
  have hassignment : TokenKind.punctuator .assignment ≠ .endOfLine := nofun
  have hexpression := expressionToEnd_relates h line (Reader.read line true ending {} items).2
  rw [← hrest] at hexpression
  obtain ⟨node, s⟩ := found
  obtain ⟨node', s'⟩ := found'
  obtain ⟨hnode, hstop⟩ := hfound
  obtain rfl : node' = r.node node := hnode
  have hsimple : Relates r.Moves (fun form form' => form' = r.form form)
      (do
        s.endLine
        return Form.simple node)
      (do
        s'.endLine
        return Form.simple (r.node node)) := hstop.endLine.bind fun _ _ _ => .ok rfl
  simp only [hstop.is_eq hassignment]
  cases s.is (.punctuator .assignment) with
  | false => exact hsimple
  | true =>
    cases node with
    | var name indices =>
      rw [node_var]
      refine hexpression.bind fun value value' hvalue => .ok ?_
      rw [hvalue]
      simp [form, node, Node.mapLines]
    | _ => exact hsimple

end Forms

/-- **A relocated line is read as the relocated form.** -/
theorem readForm_relates {lexemes lexemes' : Lexemes}
    (hitems : lexemes'.items = lexemes.items.map r.lexeme)
    (hending : r.EndingMoves lexemes.ending lexemes'.ending) (line : SourceLine)
    (inRoutine : Bool) :
    Relates r.Moves (fun form form' => form' = r.form form) (readForm line inRoutine lexemes)
      (readForm (r.line line) inRoutine lexemes') := by
  obtain ⟨items, ending⟩ := lexemes
  obtain ⟨items', ending'⟩ := lexemes'
  obtain rfl : items' = items.map r.lexeme := hitems
  have hexpression : Relates r.Moves (fun form form' => form' = r.form form)
      (do return Form.simple (← Form.expressionToEnd line ending items))
      (do return Form.simple (← Form.expressionToEnd (r.line line) ending' (items.map r.lexeme))) :=
    (expressionToEnd_relates hending line items).bind fun node node' hnode =>
      .ok (by rw [hnode]; rfl)
  rcases items with _ | ⟨lexeme, rest⟩
  · exact hexpression
  · cases lexeme with
    | fault e => exact hexpression
    | token t next =>
      obtain ⟨kind, position⟩ := t
      cases kind with
      | keyword keyword => exact ofKeyword_relates hending line rest inRoutine position keyword
      | identifier name =>
        exact ofName_relates hending line (.token ⟨.identifier name, position⟩ next :: rest)
      | _ => exact hexpression

end Relocation

/-! ### Lexemes -/

/-- **The lexemes of a line that stands elsewhere** are relocated.  A line may cease to be the last
one. -/
theorem Token.lexemesFrom_relocates {r : Relocation} (symbol : List Char) {number number' : Nat}
    {isLast isLast' : Bool} (hlast : isLast' = true → isLast = true) (column column' : Nat)
    (cs : List Char)
    (hposition : ∀ k ≤ cs.length,
      r.position ⟨number, column + k⟩ = ⟨number', column' + k⟩) :
    let lexemes := lexemesFrom symbol number isLast column cs
    let lexemes' := lexemesFrom symbol number' isLast' column' cs
    lexemes'.items = lexemes.items.map r.lexeme
      ∧ r.EndingMoves lexemes.ending lexemes'.ending := by
  induction hlength : cs.length using Nat.strong_induction_on generalizing column column' cs with
  | _ length ih =>
    subst hlength
    cases hdrop : cs.dropWhile Text.isBlank with
    | nil =>
      rw [lexemesFrom_of_dropWhile_nil hdrop, lexemesFrom_of_dropWhile_nil hdrop,
        ← hposition _ (Nat.le_refl _)]
      refine ⟨rfl, ?_⟩
      cases isLast' with
      | true =>
        rw [hlast rfl]
        exact .input _
      | false =>
        cases isLast with
        | true => exact .continued _
        | false => exact .line _
    | cons c rest =>
      have hstart := hposition (cs.length - (rest.length + 1)) (Nat.sub_le _ _)
      rw [lexemesFrom_of_dropWhile_cons hdrop, lexemesFrom_of_dropWhile_cons hdrop, ← hstart]
      split
      · rename_i hshorter
        have hrest : (c :: rest).length ≤ cs.length := hdrop ▸ length_dropWhile_le _ cs
        generalize readToken symbol (c :: rest) = read at hshorter
        obtain ⟨outcome, after⟩ := read
        have hafter : after.length < cs.length := Nat.lt_of_lt_of_le hshorter hrest
        obtain ⟨hitems, hending⟩ := ih after.length hafter (column + (cs.length - after.length))
          (column' + (cs.length - after.length)) after (fun k hk => by
            rw [Nat.add_assoc, Nat.add_assoc]
            exact hposition _ (by omega)) rfl
        cases outcome with
        | ok kind => exact ⟨congrArg _ hitems, hending⟩
        | error kind => exact ⟨congrArg _ hitems, hending⟩
      · exact ⟨rfl, .stuck _⟩

end Tablica
