import Tablica.Proofs.Syntax.Climbing
import Tablica.Proofs.Token.Spelling
import Tablica.Syntax.Expression

/-!
# Expressions survive rendering and reading

An expression is **rendered** to one line with no more parentheses than needed: around a left
operand that binds more weakly than its parent, and around a right operand that does not bind more
strongly.  Reading the rendered line gives the expression back.

The reader goes over the characters from left to right.  Over those of an operand it moves without
looking back, and what it then has is one more item on its current run; over those of a tree without
parentheses it puts a whole run there, which the next bracket or the end of the line folds to the
tree.  So what is shown of each rendering is what it adds to the run in front of any text that ends
an operand, and the brackets are where one rendering begins in the middle of another.

* `Node.spell`, `Node.render` — rendering; `Node.IsRenderable` — the expressions;
* `Reader.scan` — the reader on the characters that are left of a line, with `Reader.scan_space`,
  `Reader.scan_token` and `Reader.scan_nil`;
* `Spells`, `SpellsOperand` — what the reader makes of the characters of a tree, and the rules for
  operations, parentheses, indices and arguments;
* `Node.IsRenderable.spells` — every expression is read as it is spelled;
* `Node.IsRenderable.isOneLine` — and it is spelled on one line;
* `rendered_expressions_are_read_back` — the round trip.
-/

namespace Tablica

open Token

/-! ### Rendering -/

/-- Characters in parentheses, where these are needed. -/
def parenthesized (needed : Bool) (cs : List Char) : List Char :=
  if needed then '(' :: (cs ++ [')']) else cs

namespace Node

mutual

/-- The characters of an expression. -/
def spell : Node → List Char
  | number n => n.shown.toList
  | boolean b => (TokenKind.spellBoolean b).toList
  | text s => quoted s.toList
  | var name indices => name.toList ++ spellIndices indices
  | call name arguments _ => name.toList ++ '(' :: (spellArguments arguments ++ [')'])
  | operation o left right _ =>
    parenthesized (left.strength < o.precedence.rank) (spell left)
      ++ ' ' :: (o.symbol.toList
      ++ ' ' :: parenthesized (right.strength ≤ o.precedence.rank) (spell right))
  | _ => []

/-- Indices, each in brackets of its own. -/
def spellIndices : List Node → List Char
  | [] => []
  | index :: rest => '[' :: (spell index ++ ']' :: spellIndices rest)

/-- Arguments with commas between them. -/
def spellArguments : List Node → List Char
  | [] => []
  | [argument] => spell argument
  | argument :: next :: rest => spell argument ++ ',' :: spellArguments (next :: rest)

end

/-- An expression as one line of text. -/
def render (node : Node) : String :=
  String.ofList node.spell

/-- The expressions that can be written down: numbers have no sign, a text lacks line feeds and one
of the quotation marks, and names are names.  Calls and operations stand on the given line. -/
inductive IsRenderable (line : SourceLine) : Node → Prop
  | number {n : Number} (h : 0 ≤ n.val) : IsRenderable line (.number n)
  | boolean {b : Bool} : IsRenderable line (.boolean b)
  | text {s : String} (hline : '\n' ∉ s.toList) (hquote : '"' ∉ s.toList ∨ '\'' ∉ s.toList) :
      IsRenderable line (.text s)
  | var {name : String} {indices : List Node} (hname : IsName name)
      (hindices : ∀ index ∈ indices, IsRenderable line index) :
      IsRenderable line (.var name indices)
  | call {name : String} {arguments : List Node} (hname : IsName name)
      (harguments : ∀ argument ∈ arguments, IsRenderable line argument) :
      IsRenderable line (.call name arguments line)
  | operation {o : Operator} {left right : Node} (hleft : IsRenderable line left)
      (hright : IsRenderable line right) : IsRenderable line (.operation o left right line)

end Node

/-! ### The reader on characters -/

variable {line : SourceLine} {column rank : Nat} {tail cs : List Char} {node : Node}
  {run : List Item} {opened : List (Bracket × List Item)}

/-- What the reader makes of the characters that are left of the only line of a text, from the given
column on. -/
def Reader.scan (line : SourceLine) (reader : Reader) (column : Nat) (cs : List Char) :
    Except Fault (Node × Stop) × List Lexeme :=
  let lexemes := lexemesFrom defaultRange 1 true column cs
  reader.read line false lexemes.ending lexemes.items

theorem Reader.scan_space (reader : Reader) :
    reader.scan line column (' ' :: cs) = reader.scan line (column + 1) cs := by
  rw [scan, lexemesFrom_space, ← scan]

/-- One token, and what it leads to. -/
theorem Reader.scan_token {reader reader' : Reader} {token after : List Char} {kind : TokenKind}
    (hread : readToken defaultRange (token ++ after) = (.ok kind, after))
    (hkind : kind ≠ .endOfLine)
    (hstep : reader.step line false ⟨kind, ⟨1, column⟩⟩ after.head? = .ok (.more reader')) :
    reader.scan line column (token ++ after) = reader'.scan line (column + token.length) after := by
  simp only [scan, lexemesFrom_token hread hkind, read, hstep]

/-- A bracket or a comma, and what it leads to. -/
theorem Reader.scan_punctuator {reader reader' : Reader} {c : Char} {p : Punctuator}
    (hc : punctuator? c = some p)
    (hstep : reader.step line false ⟨.punctuator p, ⟨1, column⟩⟩ cs.head? = .ok (.more reader')) :
    reader.scan line column (c :: cs) = reader'.scan line (column + 1) cs := by
  have hread : readToken defaultRange ([c] ++ cs) = (.ok (.punctuator p), cs) :=
    readToken_punctuator hc
  exact scan_token hread nofun hstep

/-- The end of the text. -/
theorem Reader.scan_nil (reader : Reader) :
    reader.scan line column [] = (reader.finish line ⟨none, ⟨1, column⟩⟩, []) := by
  rw [scan, lexemesFrom]
  rfl

/-- The tree of a run that unfolds it. -/
theorem Reader.tree_of_unfolds {items : List Item} {first : Node} {rest : List (Operator × Node)}
    (hitems : Item.Alternates items first rest) (hnode : Unfolds line rank node first rest)
    (stop : Stop) : Reader.tree line ⟨items.reverse, opened, false⟩ stop = .ok node := by
  have hne : items.reverse.isEmpty = false := by
    rw [List.isEmpty_reverse]
    exact List.isEmpty_eq_false_iff.mpr hitems.ne_nil
  rw [tree, hne, List.reverse_reverse]
  exact Item.tree_of_unfolds hitems hnode stop.position

/-! ### What a rendering adds to the run -/

/-- The characters that may stand after an operand in a rendered expression. -/
def EndsOperand (tail : List Char) : Prop :=
  ∀ c ∈ tail.head?, c ∈ [' ', ')', ']', ',']

namespace EndsOperand

theorem nil : EndsOperand [] := fun _ h => nomatch h

theorem cons {c : Char} (h : c ∈ [' ', ')', ']', ',']) : EndsOperand (c :: cs) := by
  intro d hd
  rwa [← Option.some.inj hd]

theorem endsWord (h : EndsOperand tail) : ∀ c ∈ tail.head?, Token.endsWord c := by
  have hall : ∀ c ∈ [' ', ')', ']', ','], Token.endsWord c :=
    List.all_iff_forall_prop.mp (by decide)
  exact fun c hc => hall c (h c hc)

theorem isDigit (h : EndsOperand tail) : ∀ c ∈ tail.head?, c.isDigit = false := by
  have hall : ∀ c ∈ [' ', ')', ']', ','], c.isDigit = false :=
    List.all_iff_forall_prop.mp (by decide)
  exact fun c hc => hall c (h c hc)

theorem head?_ne (h : EndsOperand tail) {c : Char} (hc : c ∉ [' ', ')', ']', ',']) :
    tail.head? ≠ some c :=
  fun heq => hc (h c heq)

end EndsOperand

/-- Characters **spell** a tree if the reader, going over them, puts a run in front of its current
one that unfolds the tree, with no operator that binds more weakly than the given rank. -/
def Spells (line : SourceLine) (cs : List Char) (rank : Nat) (node : Node) : Prop :=
  ∀ (run : List Item) (opened : List (Bracket × List Item)) (column : Nat) (tail : List Char),
    EndsOperand tail → ∃ items first rest, Item.Alternates items first rest
      ∧ Unfolds line rank node first rest
      ∧ Reader.scan line ⟨run, opened, false⟩ column (cs ++ tail)
        = Reader.scan line ⟨items.reverse ++ run, opened, false⟩ (column + cs.length) tail

/-- Characters **spell** a single operand if they add just that to the run. -/
def SpellsOperand (line : SourceLine) (cs : List Char) (node : Node) : Prop :=
  ∀ (run : List Item) (opened : List (Bracket × List Item)) (column : Nat) (tail : List Char),
    EndsOperand tail → ∃ position,
      Reader.scan line ⟨run, opened, false⟩ column (cs ++ tail)
        = Reader.scan line ⟨.operand node position :: run, opened, false⟩ (column + cs.length) tail

/-- What is one operand unfolds to itself. -/
theorem SpellsOperand.spells (h : SpellsOperand line cs node) : Spells line cs rank node := by
  intro run opened column tail htail
  obtain ⟨position, hscan⟩ := h run opened column tail htail
  exact ⟨[.operand node position], node, [], .operand, .operand, hscan⟩

/-- A token that stands for an operand whatever follows it. -/
theorem SpellsOperand.literal {kind : TokenKind}
    (hread : ∀ tail, EndsOperand tail → readToken defaultRange (cs ++ tail) = (.ok kind, tail))
    (hkind : kind ≠ .endOfLine)
    (hstep : ∀ run opened position next,
      Reader.step line false ⟨run, opened, false⟩ ⟨kind, position⟩ next
        = .ok (.more ⟨.operand node position :: run, opened, false⟩)) :
    SpellsOperand line cs node :=
  fun run opened column tail htail =>
    ⟨⟨1, column⟩,
      Reader.scan_token (hread tail htail) hkind (hstep run opened ⟨1, column⟩ tail.head?)⟩

namespace Spells

theorem mono (h : Spells line cs rank node) {rank' : Nat} (hle : rank' ≤ rank) :
    Spells line cs rank' node := by
  intro run opened column tail htail
  obtain ⟨items, first, rest, hitems, hnode, hscan⟩ := h run opened column tail htail
  exact ⟨items, first, rest, hitems, hnode.mono hle, hscan⟩

/-- **Two operands with an operator between them** spell the operation, if none of their own
operators takes an operand away from it. -/
theorem operation {o : Operator} {left right : Node} {cs' : List Char}
    (hleft : Spells line cs o.precedence.rank left)
    (hright : Spells line cs' (o.precedence.rank + 1) right) :
    Spells line (cs ++ ' ' :: (o.symbol.toList ++ ' ' :: cs')) o.precedence.rank
      (.operation o left right line) := by
  intro run opened column tail htail
  have hspace : EndsOperand (' ' :: (o.symbol.toList ++ ' ' :: (cs' ++ tail))) := .cons (by decide)
  obtain ⟨items, first, rest, hitems, hunfolds, hscan⟩ := hleft run opened column _ hspace
  obtain ⟨items', second, rest', hitems', hunfolds', hscan'⟩ :=
    hright (.operator o ⟨1, column + cs.length + 1⟩ :: (items.reverse ++ run)) opened
      (column + cs.length + 1 + o.symbol.toList.length + 1) tail htail
  have hoperator : Reader.scan line ⟨items.reverse ++ run, opened, false⟩ (column + cs.length + 1)
        (o.symbol.toList ++ ' ' :: (cs' ++ tail))
      = Reader.scan line
          ⟨.operator o ⟨1, column + cs.length + 1⟩ :: (items.reverse ++ run), opened, false⟩
          (column + cs.length + 1 + o.symbol.toList.length) (' ' :: (cs' ++ tail)) :=
    Reader.scan_token (readToken_operator o fun _ hc => (Option.some.inj hc).symm) nofun rfl
  have hrun : (items ++ .operator o ⟨1, column + cs.length + 1⟩ :: items').reverse ++ run
      = items'.reverse ++ .operator o ⟨1, column + cs.length + 1⟩ :: (items.reverse ++ run) := by
    simp only [List.reverse_append, List.reverse_cons, List.append_assoc, List.cons_append,
      List.nil_append]
  have hcolumn : column + (cs ++ ' ' :: (o.symbol.toList ++ ' ' :: cs')).length
      = column + cs.length + 1 + o.symbol.toList.length + 1 + cs'.length := by
    simp only [List.length_append, List.length_cons]
    omega
  refine ⟨_, first, _, hitems.append o ⟨1, column + cs.length + 1⟩ hitems',
    .operation (Nat.le_refl _) hunfolds hunfolds', ?_⟩
  calc Reader.scan line ⟨run, opened, false⟩ column
        ((cs ++ ' ' :: (o.symbol.toList ++ ' ' :: cs')) ++ tail)
      = Reader.scan line ⟨run, opened, false⟩ column
          (cs ++ (' ' :: (o.symbol.toList ++ ' ' :: (cs' ++ tail)))) := by
        simp only [List.append_assoc, List.cons_append]
    _ = Reader.scan line ⟨items.reverse ++ run, opened, false⟩ (column + cs.length + 1)
          (o.symbol.toList ++ ' ' :: (cs' ++ tail)) := by rw [hscan, Reader.scan_space]
    _ = Reader.scan line
          ⟨.operator o ⟨1, column + cs.length + 1⟩ :: (items.reverse ++ run), opened, false⟩
          (column + cs.length + 1 + o.symbol.toList.length + 1) (cs' ++ tail) := by
        rw [hoperator, Reader.scan_space]
    _ = _ := by rw [hscan', hrun, hcolumn]

/-- What spells a tree may be closed by a bracket or a comma, which then finds the tree. -/
theorem scan_close (h : Spells line cs rank node) {c : Char} {p : Punctuator} {reader' : Reader}
    (hc : punctuator? c = some p) (hends : c ∈ [' ', ')', ']', ','])
    (hstep : ∀ run, run ≠ [] → (∀ stop, Reader.tree line ⟨run, opened, false⟩ stop = .ok node) →
      ∀ position, Reader.step line false ⟨run, opened, false⟩ ⟨.punctuator p, position⟩ tail.head?
        = .ok (.more reader')) :
    Reader.scan line ⟨[], opened, false⟩ column (cs ++ c :: tail)
      = reader'.scan line (column + cs.length + 1) tail := by
  obtain ⟨items, first, rest, hitems, hunfolds, hscan⟩ :=
    h [] opened column (c :: tail) (.cons hends)
  rw [List.append_nil] at hscan
  have hne : items.reverse ≠ [] := mt List.reverse_eq_nil_iff.mp hitems.ne_nil
  rw [hscan, Reader.scan_punctuator hc
    (hstep _ hne (Reader.tree_of_unfolds hitems hunfolds) _)]

theorem inParentheses (h : Spells line cs rank node) :
    SpellsOperand line ('(' :: (cs ++ [')'])) node := by
  intro run opened column tail _
  refine ⟨⟨1, column⟩, ?_⟩
  have hopen : Reader.scan line ⟨run, opened, false⟩ column ('(' :: (cs ++ ')' :: tail))
      = Reader.scan line ⟨[], (.parenthesis ⟨1, column⟩, run) :: opened, false⟩ (column + 1)
          (cs ++ ')' :: tail) := Reader.scan_punctuator rfl rfl
  have hclose : Reader.scan line ⟨[], (.parenthesis ⟨1, column⟩, run) :: opened, false⟩ (column + 1)
        (cs ++ ')' :: tail)
      = Reader.scan line ⟨.operand node ⟨1, column⟩ :: run, opened, false⟩
          (column + 1 + cs.length + 1) tail := by
    refine h.scan_close rfl (by decide) fun run' _ htree position => ?_
    simp only [Reader.step, Reader.close, htree]
    rfl
  have hcolumn : column + ('(' :: (cs ++ [')'])).length = column + 1 + cs.length + 1 := by
    simp only [List.length_append, List.length_cons, List.length_nil]
    omega
  rw [hcolumn, List.cons_append, List.append_assoc, List.singleton_append, hopen,
    hclose]

/-- What stands in parentheses spells an operand, whatever is in them, and without them a tree keeps
its strength. -/
theorem parenthesized {strength : Nat} {needed : Bool} (h : Spells line cs strength node)
    (hneeded : needed = false → rank ≤ strength) :
    Spells line (parenthesized needed cs) rank node := by
  cases needed with
  | false => exact h.mono (hneeded rfl)
  | true => exact h.inParentheses.spells

end Spells

/-! ### Indices and arguments -/

variable {name : String} {position : Position} {indices arguments : List Node}

/-- One index.  After it the array is complete, unless another bracket follows at once. -/
theorem scan_index {index : Node} {before : List Node} (h : Spells line cs rank index) :
    Reader.scan line ⟨[], (.index name position before, run) :: opened, true⟩ column
        ('[' :: (cs ++ ']' :: tail))
      = Reader.scan line
          (if tail.head? = some '[' then
            ⟨[], (.index name position (index :: before), run) :: opened, true⟩
          else ⟨.operand (.var name (index :: before).reverse) position :: run, opened, false⟩)
          (column + 1 + cs.length + 1) tail := by
  have hopen : Reader.scan line ⟨[], (.index name position before, run) :: opened, true⟩ column
        ('[' :: (cs ++ ']' :: tail))
      = Reader.scan line ⟨[], (.index name position before, run) :: opened, false⟩ (column + 1)
          (cs ++ ']' :: tail) := Reader.scan_punctuator rfl rfl
  rw [hopen]
  refine h.scan_close rfl (by decide) fun run' _ htree stop => ?_
  simp only [Reader.step, Reader.close, htree]
  by_cases hnext : tail.head? = some '['
  · simp only [hnext, if_true]
    rfl
  · simp only [hnext, if_false]
    rfl

theorem scan_indices {index : Node} {rest before : List Node}
    (h : ∀ node ∈ index :: rest, Spells line node.spell node.strength node)
    (htail : EndsOperand tail) :
    Reader.scan line ⟨[], (.index name position before, run) :: opened, true⟩ column
        (Node.spellIndices (index :: rest) ++ tail)
      = Reader.scan line
          ⟨.operand (.var name (before.reverse ++ index :: rest)) position :: run, opened, false⟩
          (column + (Node.spellIndices (index :: rest)).length) tail := by
  induction rest generalizing index before column with
  | nil =>
    have hindex := h index List.mem_cons_self
    have hnext : tail.head? ≠ some '[' := htail.head?_ne (by decide)
    rw [Node.spellIndices, Node.spellIndices, List.cons_append, List.append_assoc,
      List.singleton_append, scan_index hindex, if_neg hnext, List.reverse_cons]
    congr 1
    simp only [List.length_cons, List.length_append, List.length_nil]
    omega
  | cons next rest ih =>
    have hindex := h index List.mem_cons_self
    have hnext : (Node.spellIndices (next :: rest) ++ tail).head? = some '[' := rfl
    have hrest : ∀ node ∈ next :: rest, Spells line node.spell node.strength node :=
      fun node hmem => h node (List.mem_cons_of_mem _ hmem)
    rw [Node.spellIndices, List.cons_append, List.append_assoc, List.cons_append,
      scan_index hindex, if_pos hnext, ih hrest, List.reverse_cons,
      List.append_assoc, List.singleton_append]
    congr 1
    simp only [List.length_cons, List.length_append]
    omega

theorem scan_arguments {argument : Node} {rest before : List Node}
    (h : ∀ node ∈ argument :: rest, Spells line node.spell node.strength node) :
    Reader.scan line ⟨[], (.arguments name position before, run) :: opened, false⟩ column
        (Node.spellArguments (argument :: rest) ++ ')' :: tail)
      = Reader.scan line
          ⟨.operand (.call name (before.reverse ++ argument :: rest) line) position :: run, opened,
            false⟩
          (column + (Node.spellArguments (argument :: rest)).length + 1) tail := by
  induction rest generalizing argument before column with
  | nil =>
    have hargument := h argument List.mem_cons_self
    rw [Node.spellArguments, ← List.reverse_cons]
    refine hargument.scan_close rfl (by decide) fun run' hne htree stop => ?_
    obtain ⟨item, run', rfl⟩ := List.exists_cons_of_ne_nil hne
    simp only [Reader.step, Reader.close, htree]
    rfl
  | cons next rest ih =>
    have hargument := h argument List.mem_cons_self
    have hrest : ∀ node ∈ next :: rest, Spells line node.spell node.strength node :=
      fun node hmem => h node (List.mem_cons_of_mem _ hmem)
    have hcomma : Reader.scan line ⟨[], (.arguments name position before, run) :: opened, false⟩
          column (argument.spell ++ ',' :: (Node.spellArguments (next :: rest) ++ ')' :: tail))
        = Reader.scan line
            ⟨[], (.arguments name position (argument :: before), run) :: opened, false⟩
            (column + argument.spell.length + 1)
            (Node.spellArguments (next :: rest) ++ ')' :: tail) := by
      refine hargument.scan_close rfl (by decide) fun run' hne htree stop => ?_
      simp only [Reader.step, Reader.close, htree]
      rfl
    rw [Node.spellArguments, List.append_assoc, List.cons_append, hcomma,
      ih hrest, List.reverse_cons, List.append_assoc,
      List.singleton_append]
    congr 1
    simp only [List.length_cons, List.length_append]
    omega

/-- What a name opens stands behind it. -/
theorem scan_name {reader' : Reader} {c : Char} (hname : IsName name)
    (hends : Token.endsWord c)
    (hstep : Reader.step line false ⟨run, opened, false⟩ ⟨.identifier name, ⟨1, column⟩⟩ (some c)
      = .ok (.more reader')) :
    Reader.scan line ⟨run, opened, false⟩ column (name.toList ++ c :: tail)
      = reader'.scan line (column + name.toList.length) (c :: tail) := by
  have htail : ∀ d ∈ (c :: tail).head?, Token.endsWord d := by
    intro d hd
    rwa [← Option.some.inj hd]
  exact Reader.scan_token (readToken_name hname htail) nofun hstep

theorem SpellsOperand.var (hname : IsName name)
    (h : ∀ node ∈ indices, Spells line node.spell node.strength node) :
    SpellsOperand line (name.toList ++ Node.spellIndices indices) (.var name indices) := by
  intro run opened column tail htail
  refine ⟨⟨1, column⟩, ?_⟩
  cases indices with
  | nil =>
    have hstep : Reader.step line false ⟨run, opened, false⟩ ⟨.identifier name, ⟨1, column⟩⟩
        tail.head? = .ok (.more ⟨.operand (.var name []) ⟨1, column⟩ :: run, opened, false⟩) := by
      have hcall : tail.head? ≠ some '(' := htail.head?_ne (by decide)
      have hindex : tail.head? ≠ some '[' := htail.head?_ne (by decide)
      simp only [Reader.step, hcall, hindex, if_false]
      rfl
    rw [Node.spellIndices, List.append_nil]
    exact Reader.scan_token (readToken_name hname htail.endsWord) nofun hstep
  | cons index rest =>
    have hopen : Reader.scan line ⟨run, opened, false⟩ column
          (name.toList ++ (Node.spellIndices (index :: rest) ++ tail))
        = Reader.scan line ⟨[], (.index name ⟨1, column⟩ [], run) :: opened, true⟩
            (column + name.toList.length) (Node.spellIndices (index :: rest) ++ tail) :=
      scan_name hname (by decide) rfl
    rw [List.append_assoc, hopen, scan_indices h htail, List.length_append, Nat.add_assoc]
    rfl

theorem SpellsOperand.call (hname : IsName name)
    (h : ∀ node ∈ arguments, Spells line node.spell node.strength node) :
    SpellsOperand line (name.toList ++ '(' :: (Node.spellArguments arguments ++ [')']))
      (.call name arguments line) := by
  intro run opened column tail _
  refine ⟨⟨1, column⟩, ?_⟩
  have hopen : Reader.scan line ⟨run, opened, false⟩ column
        (name.toList ++ '(' :: (Node.spellArguments arguments ++ ')' :: tail))
      = Reader.scan line ⟨[], (.arguments name ⟨1, column⟩ [], run) :: opened, true⟩
          (column + name.toList.length) ('(' :: (Node.spellArguments arguments ++ ')' :: tail)) :=
    scan_name hname (by decide) rfl
  have hbracket : Reader.scan line ⟨[], (.arguments name ⟨1, column⟩ [], run) :: opened, true⟩
        (column + name.toList.length) ('(' :: (Node.spellArguments arguments ++ ')' :: tail))
      = Reader.scan line ⟨[], (.arguments name ⟨1, column⟩ [], run) :: opened, false⟩
          (column + name.toList.length + 1) (Node.spellArguments arguments ++ ')' :: tail) :=
    Reader.scan_punctuator rfl rfl
  have hclose : Reader.scan line ⟨[], (.arguments name ⟨1, column⟩ [], run) :: opened, false⟩
        (column + name.toList.length + 1) (Node.spellArguments arguments ++ ')' :: tail)
      = Reader.scan line
          ⟨.operand (.call name arguments line) ⟨1, column⟩ :: run, opened, false⟩
          (column + name.toList.length + 1 + (Node.spellArguments arguments).length + 1) tail := by
    cases arguments with
    | nil => exact Reader.scan_punctuator rfl rfl
    | cons argument rest => exact scan_arguments h
  have hcolumn :
      column + (name.toList ++ '(' :: (Node.spellArguments arguments ++ [')'])).length
        = column + name.toList.length + 1 + (Node.spellArguments arguments).length + 1 := by
    simp only [List.length_append, List.length_cons, List.length_nil]
    omega
  rw [hcolumn, List.append_assoc, List.cons_append, List.append_assoc, List.singleton_append, hopen,
    hbracket, hclose]

/-! ### One line -/

/-- Characters that are a line of a text: no line feed stands among them and no carriage return at
their end. -/
structure IsOneLine (cs : List Char) : Prop where
  noFeed : '\n' ∉ cs
  noReturn : cs.getLast? ≠ some '\r'

namespace IsOneLine

variable {cs' : List Char}

theorem of_forall (h : ∀ c ∈ cs, c ≠ '\n' ∧ c ≠ '\r') : IsOneLine cs where
  noFeed hmem := (h _ hmem).1 rfl
  noReturn hlast := (h _ (List.mem_of_getLast? hlast)).2 rfl

theorem singleton {c : Char} (hc : c ≠ '\n' ∧ c ≠ '\r') : IsOneLine [c] :=
  of_forall (List.forall_mem_singleton.mpr hc)

theorem append (h : IsOneLine cs) (h' : IsOneLine cs') : IsOneLine (cs ++ cs') where
  noFeed hmem := (List.mem_append.mp hmem).elim h.noFeed h'.noFeed
  noReturn hlast := by
    rw [List.getLast?_append] at hlast
    cases hcs' : cs'.getLast? with
    | none => exact h.noReturn (by rwa [hcs'] at hlast)
    | some c => exact h'.noReturn (by rwa [hcs'] at hlast ⊢)

theorem cons {c : Char} (hc : c ≠ '\n' ∧ c ≠ '\r') (h : IsOneLine cs) : IsOneLine (c :: cs) :=
  (singleton hc).append h

theorem parenthesized {needed : Bool} (h : IsOneLine cs) : IsOneLine (parenthesized needed cs) := by
  cases needed with
  | false => exact h
  | true => exact .cons (by decide) (h.append (singleton (by decide)))

theorem splitAtLineFeeds (h : '\n' ∉ cs) : Source.splitAtLineFeeds cs = [cs] := by
  induction cs with
  | nil => rfl
  | cons c cs ih =>
    obtain ⟨hc, hcs⟩ := not_or.mp (mt List.mem_cons.mpr h)
    rw [Source.splitAtLineFeeds, if_neg (Ne.symm hc), ih hcs]

/-- A text of one line is its only line. -/
theorem lines {text : String} (h : IsOneLine text.toList) : Source.lines text = [text.toList] := by
  rw [Source.lines, splitAtLineFeeds h.noFeed, List.map_singleton, Source.dropReturn,
    if_neg h.noReturn]

theorem ofText {text : String} (h : IsOneLine text.toList) :
    Row.ofText text = [⟨⟨1, text⟩, true⟩] := by
  rw [Row.ofText, h.lines, Row.ofLines, Row.ofLines, String.ofList_toList]
  rfl

end IsOneLine

/-- The quotation mark stands at the end, so a carriage return may well stand in the text. -/
theorem isOneLine_quoted (h : '\n' ∉ cs) : IsOneLine (quoted cs) := by
  have hmarked : ∀ mark, mark = '"' ∨ mark = '\'' → IsOneLine (mark :: (cs ++ [mark])) := by
    intro mark hmark
    have hne : mark ≠ '\n' ∧ mark ≠ '\r' := by
      rcases hmark with rfl | rfl <;> decide
    constructor
    · rw [List.mem_cons, List.mem_append, List.mem_singleton]
      rintro (heq | hmem | heq)
      · exact hne.1 heq.symm
      · exact h hmem
      · exact hne.1 heq.symm
    · rw [← List.cons_append, List.getLast?_concat]
      exact fun heq => hne.2 (Option.some.inj heq)
  rw [quoted]
  split
  · exact hmarked '\'' (.inr rfl)
  · exact hmarked '"' (.inl rfl)

theorem isOneLine_spellIndices (h : ∀ node ∈ indices, IsOneLine node.spell) :
    IsOneLine (Node.spellIndices indices) := by
  induction indices with
  | nil => exact .of_forall nofun
  | cons index rest ih =>
    obtain ⟨hindex, hrest⟩ := List.forall_mem_cons.mp h
    exact .cons (by decide) (hindex.append (.cons (by decide) (ih hrest)))

theorem isOneLine_spellArguments (h : ∀ node ∈ arguments, IsOneLine node.spell) :
    IsOneLine (Node.spellArguments arguments) := by
  induction arguments with
  | nil => exact .of_forall nofun
  | cons argument rest ih =>
    obtain ⟨hargument, hrest⟩ := List.forall_mem_cons.mp h
    cases rest with
    | nil => exact hargument
    | cons next rest => exact hargument.append (.cons (by decide) (ih hrest))

theorem isOneLine_name (h : IsName name) : IsOneLine name.toList :=
  .of_forall h.noBreak

/-! ### The round trip -/

namespace Node.IsRenderable

/-- **Every expression is read as it is spelled.** -/
theorem spells (h : node.IsRenderable line) : Spells line node.spell node.strength node := by
  induction h with
  | number hn =>
    exact (SpellsOperand.literal (fun _ htail => readToken_number hn htail.isDigit) nofun
      fun _ _ _ _ => rfl).spells
  | boolean =>
    exact (SpellsOperand.literal (fun _ htail => readToken_boolean _ htail.endsWord) nofun
      fun _ _ _ _ => rfl).spells
  | text _ hquote =>
    exact (SpellsOperand.literal (fun _ _ => readToken_quoted hquote) nofun
      fun _ _ _ _ => rfl).spells
  | var hname _ ih => exact (SpellsOperand.var hname ih).spells
  | call hname _ ih => exact (SpellsOperand.call hname ih).spells
  | operation _ _ ihleft ihright =>
    refine Spells.operation (ihleft.parenthesized ?_) (ihright.parenthesized ?_)
    · exact fun hneeded => Nat.not_lt.mp (of_decide_eq_false hneeded)
    · exact fun hneeded => Nat.not_le.mp (of_decide_eq_false hneeded)

/-- Every expression is rendered to a single line. -/
theorem isOneLine (h : node.IsRenderable line) : IsOneLine node.spell := by
  induction h with
  | @number n hn =>
    obtain ⟨k, hk⟩ := Int.eq_ofNat_of_zero_le hn
    rw [Node.spell, toList_shown hk]
    refine .of_forall fun c hc => ?_
    have hdigit : c.isDigit = true := Nat.isDigit_of_mem_toDigits (by decide) (by decide) hc
    constructor
    · rintro rfl
      cases hdigit
    · rintro rfl
      cases hdigit
  | @boolean b =>
    refine .of_forall (List.all_iff_forall_prop.mp ?_)
    cases b <;> decide +kernel
  | text hline _ => exact isOneLine_quoted hline
  | var hname _ ih => exact (isOneLine_name hname).append (isOneLine_spellIndices ih)
  | call hname _ ih =>
    exact (isOneLine_name hname).append
      (.cons (by decide) ((isOneLine_spellArguments ih).append (.singleton (by decide))))
  | @operation o _ _ _ _ ihleft ihright =>
    have hsymbol : ∀ c ∈ o.symbol.toList, c ≠ '\n' ∧ c ≠ '\r' := by
      refine List.all_iff_forall_prop.mp ?_
      cases o <;> decide
    exact ihleft.parenthesized.append (.cons (by decide)
      ((IsOneLine.of_forall hsymbol).append (.cons (by decide) ihright.parenthesized)))

end Node.IsRenderable

/-- **Expressions survive rendering and reading.**  The text to which an expression is rendered has
one line, and reading an expression there gives that same tree, with the end of the text as what it
ended at and nothing left of the line. -/
theorem rendered_expressions_are_read_back (h : node.IsRenderable line) :
    ∃ row, Row.ofText node.render = [row]
      ∧ readExpression line (row.lexemes defaultRange 0).ending (row.lexemes defaultRange 0).items
        = (.ok (node, ⟨none, ⟨1, node.render.length + 1⟩⟩), []) := by
  have hline : IsOneLine node.render.toList := by
    rw [Node.render, String.toList_ofList]
    exact h.isOneLine
  refine ⟨_, hline.ofText, ?_⟩
  obtain ⟨items, first, rest, hitems, hunfolds, hscan⟩ := h.spells [] [] 1 [] .nil
  have hfinish : Reader.finish line ⟨items.reverse, [], false⟩ ⟨none, ⟨1, 1 + node.spell.length⟩⟩
      = .ok (node, ⟨none, ⟨1, 1 + node.spell.length⟩⟩) := by
    rw [Reader.finish, Reader.tree_of_unfolds hitems hunfolds]
    rfl
  calc readExpression line _ _
      = Reader.scan line ⟨[], [], false⟩ 1 node.spell := by
        simp only [readExpression, Reader.scan, Row.lexemes, Row.chars, Node.render,
          String.toList_ofList, List.drop_zero]
    _ = Reader.scan line ⟨items.reverse, [], false⟩ (1 + node.spell.length) [] := by
        rw [List.append_nil, List.append_nil] at hscan
        exact hscan
    _ = _ := by
        rw [Reader.scan_nil, hfinish, Node.render, String.length_ofList, Nat.add_comm]

/-- A product with an index and a text among the arguments on its left.  The sum on its right, which
binds more weakly, is put in parentheses. -/
theorem rendered_expressions_are_read_back_from_brackets :
    ∃ row, Row.ofText "f(T[1],\"a\") * (x + 2)" = [row]
      ∧ readExpression ⟨1, ""⟩ (row.lexemes defaultRange 0).ending
          (row.lexemes defaultRange 0).items
        = (.ok (.operation .multiply
              (.call "f" [.var "T" [.number .one], .text "a"] ⟨1, ""⟩)
              (.operation .add (.var "x" []) (.number ⟨2, by decide, by decide⟩) ⟨1, ""⟩) ⟨1, ""⟩,
            ⟨none, ⟨1, 22⟩⟩), []) := by
  have hname : ∀ name ∈ ["f", "T", "x"], IsName name := by decide +kernel
  have hcall :
      (Node.call "f" [.var "T" [.number .one], .text "a"] ⟨1, ""⟩).IsRenderable ⟨1, ""⟩ := by
    refine .call (hname "f" (by decide))
      (List.forall_mem_cons.mpr ⟨?_, List.forall_mem_singleton.mpr ?_⟩)
    · exact .var (hname "T" (by decide)) (List.forall_mem_singleton.mpr (.number (by decide)))
    · exact .text (by decide) (.inl (by decide))
  have hsum : (Node.operation .add (.var "x" []) (.number ⟨2, by decide, by decide⟩)
      ⟨1, ""⟩).IsRenderable ⟨1, ""⟩ :=
    .operation (.var (hname "x" (by decide)) nofun) (.number (by decide))
  have hread := rendered_expressions_are_read_back
    (Node.IsRenderable.operation (o := .multiply) hcall hsum)
  have hrender : (Node.operation .multiply
      (.call "f" [.var "T" [.number .one], .text "a"] ⟨1, ""⟩)
      (.operation .add (.var "x" []) (.number ⟨2, by decide, by decide⟩) ⟨1, ""⟩) ⟨1, ""⟩).render
        = "f(T[1],\"a\") * (x + 2)" := by decide +kernel
  rw [hrender] at hread
  exact hread

end Tablica
