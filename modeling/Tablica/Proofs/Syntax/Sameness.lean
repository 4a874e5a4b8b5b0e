import Tablica.Proofs.Syntax.BlankLines

/-!
# Programs that are the same apart from marks

Two programs are compared that come from different texts.  Each of them has a function that takes
its lines to lines of comparison; the trees are the same if they are so on these lines.  So the
comparison can be turned round.

A mark may stand before any statement of a block, so it is the blocks that are compared without
their marks.  Expressions have no blocks and are the same as they stand.

* `Node.SameOn`, `Node.SameListOn` — expressions, and lists of them;
* `Node.SameStatement`, `Node.SameBlock` — statements and blocks;
* `Node.SameOn.var`, `Node.SameStatement.loop`, … — a tree that is the same as another one is made
  in the same way, from parts that are the same;
* `Node.SameBlock.cons` — a block that is the same as a statement and a rest.
-/

namespace Tablica

section Same

variable (f g : SourceLine → SourceLine)

/-- Trees that are the same apart from their lines. -/
def Node.SameOn (node node' : Node) : Prop :=
  node.mapLines f = node'.mapLines g

/-- Lists of trees that are. -/
def Node.SameListOn (nodes nodes' : List Node) : Prop :=
  nodes.map (mapLines f) = nodes'.map (mapLines g)

/-- Statements that are the same apart from their lines and the marks in their blocks. -/
def Node.SameStatement (node node' : Node) : Prop :=
  (node.mapLines f).bare = (node'.mapLines g).bare

/-- Blocks that are the same apart from lines and marks. -/
def Node.SameBlock (block block' : List Node) : Prop :=
  bareBlock (block.map (mapLines f)) = bareBlock (block'.map (mapLines g))

end Same

variable {f g : SourceLine → SourceLine}

namespace Node

/-- Whether the tree is made as an expression is. -/
def isPlain : Node → Bool
  | .number _ | .text _ | .boolean _ | .var _ _ | .operation _ _ _ _ | .call _ _ _ => true
  | _ => false

/-! A tree that is the same as another one is made in the same way. -/

section SameOn

variable {node' : Node}

theorem SameOn.number {n : Number} (h : SameOn f g (number n) node') : node' = .number n := by
  cases node' <;> simp_all [SameOn, mapLines]

theorem SameOn.text {s : String} (h : SameOn f g (text s) node') : node' = .text s := by
  cases node' <;> simp_all [SameOn, mapLines]

theorem SameOn.boolean {b : Bool} (h : SameOn f g (boolean b) node') : node' = .boolean b := by
  cases node' <;> simp_all [SameOn, mapLines]

theorem SameOn.var {name : String} {indices : List Node}
    (h : SameOn f g (var name indices) node') :
    ∃ indices', node' = .var name indices' ∧ SameListOn f g indices indices' := by
  cases node' <;> simp_all [SameOn, SameListOn, mapLines]

theorem SameOn.operation {operator : Operator} {left right : Node} {line : SourceLine}
    (h : SameOn f g (operation operator left right line) node') :
    ∃ left' right' line', node' = .operation operator left' right' line'
      ∧ SameOn f g left left' ∧ SameOn f g right right' ∧ f line = g line' := by
  cases node' <;> simp_all [SameOn, mapLines]

theorem SameOn.call {name : String} {arguments : List Node} {line : SourceLine}
    (h : SameOn f g (call name arguments line) node') :
    ∃ arguments' line', node' = .call name arguments' line'
      ∧ SameListOn f g arguments arguments' ∧ f line = g line' := by
  cases node' <;> simp_all [SameOn, SameListOn, mapLines]

theorem SameOn.isVariable_eq {node : Node} (h : SameOn f g node node') :
    node'.isVariable = node.isVariable := by
  have hkind : ∀ {node : Node} (f : SourceLine → SourceLine),
      (node.mapLines f).isVariable = node.isVariable := by
    intro node f
    cases node <;> simp [mapLines, isVariable]
  rw [← hkind g, ← show _ = _ from h, hkind]

theorem SameOn.kind_eq {node : Node} (h : SameOn f g node node') :
    node'.name = node.name ∧ node'.isPlain = node.isPlain := by
  have hkind : ∀ {node : Node} (f : SourceLine → SourceLine),
      (node.mapLines f).name = node.name ∧ (node.mapLines f).isPlain = node.isPlain := by
    intro node f
    cases node <;> simp [mapLines, name, isPlain]
  rw [← (hkind g).1, ← (hkind g).2, ← show _ = _ from h, (hkind f).1, (hkind f).2]
  exact ⟨rfl, rfl⟩

end SameOn

theorem SameListOn.length_eq {nodes nodes' : List Node} (h : SameListOn f g nodes nodes') :
    nodes'.length = nodes.length := by
  have hlength := congrArg List.length h
  rw [List.length_map, List.length_map] at hlength
  exact hlength.symm

theorem SameListOn.nil {nodes' : List Node} (h : SameListOn f g [] nodes') : nodes' = [] :=
  List.eq_nil_of_length_eq_zero h.length_eq

theorem SameListOn.cons {node : Node} {nodes nodes' : List Node}
    (h : SameListOn f g (node :: nodes) nodes') :
    ∃ node' rest', nodes' = node' :: rest'
      ∧ SameOn f g node node' ∧ SameListOn f g nodes rest' := by
  cases nodes' with
  | nil => cases h
  | cons node' rest' =>
    obtain ⟨hnode, hrest⟩ := List.cons.inj h
    exact ⟨node', rest', rfl, hnode, hrest⟩

section SameStatement

variable {node' : Node}

theorem SameStatement.assignment {name : String} {indices : List Node} {value : Node}
    {isIterator : Bool} {line : SourceLine}
    (h : SameStatement f g (assignment name indices value isIterator line) node') :
    ∃ indices' value' line', node' = .assignment name indices' value' isIterator line'
      ∧ SameListOn f g indices indices' ∧ SameOn f g value value' ∧ f line = g line' := by
  cases node' <;> simp_all [SameStatement, SameListOn, SameOn, mapLines, bare]

theorem SameStatement.command {c : Command} {argument : Option Node} {line : SourceLine}
    (h : SameStatement f g (command c argument line) node') :
    ∃ argument' line', node' = .command c argument' line'
      ∧ argument.map (mapLines f) = argument'.map (mapLines g) ∧ f line = g line' := by
  cases node' <;> simp_all [SameStatement, mapLines, bare]

theorem SameStatement.condition {test : Node} {thenBlock : List Node}
    {elseBlock : Option (List Node)} {line : SourceLine}
    (h : SameStatement f g (condition test thenBlock elseBlock line) node') :
    ∃ test' thenBlock' elseBlock' line', node' = .condition test' thenBlock' elseBlock' line'
      ∧ SameOn f g test test' ∧ SameBlock f g thenBlock thenBlock'
      ∧ Option.Rel (SameBlock f g) elseBlock elseBlock' := by
  cases node' with
  | condition test' thenBlock' elseBlock' line' =>
    simp only [SameStatement, mapLines, bare, condition.injEq] at h
    obtain ⟨htest, hthen, helse, -⟩ := h
    refine ⟨test', thenBlock', elseBlock', line', rfl, htest, by simpa [SameBlock] using hthen, ?_⟩
    cases elseBlock with
    | none =>
      cases elseBlock' with
      | none => exact .none
      | some block' => simp at helse
    | some block =>
      cases elseBlock' with
      | none => simp at helse
      | some block' => exact .some (by simpa [SameBlock] using helse)
  | _ => simp [SameStatement, mapLines, bare] at h

theorem SameStatement.loop {test : Node} {body : List Node} {iterator : Option String}
    {line : SourceLine} (h : SameStatement f g (loop test body iterator line) node') :
    ∃ test' body' line', node' = .loop test' body' iterator line'
      ∧ SameOn f g test test' ∧ SameBlock f g body body' := by
  cases node' <;> simp_all [SameStatement, SameBlock, SameOn, mapLines, bare]

theorem SameStatement.routine {name : String} {parameters : List String} {body : List Node}
    {isProcedure : Bool} {line : SourceLine}
    (h : SameStatement f g (routine name parameters body isProcedure line) node') :
    ∃ body' line', node' = .routine name parameters body' isProcedure line'
      ∧ SameBlock f g body body' := by
  cases node' <;> simp_all [SameStatement, SameBlock, mapLines, bare]

theorem SameStatement.giveBack {value : Option Node} {line : SourceLine}
    (h : SameStatement f g (giveBack value line) node') :
    ∃ value' line', node' = .giveBack value' line'
      ∧ value.map (mapLines f) = value'.map (mapLines g) ∧ f line = g line' := by
  cases node' <;> simp_all [SameStatement, mapLines, bare]

theorem SameStatement.increment {name : String} {line : SourceLine}
    (h : SameStatement f g (increment name line) node') :
    ∃ line', node' = .increment name line' ∧ f line = g line' := by
  cases node' <;> simp_all [SameStatement, mapLines, bare]

theorem SameStatement.endOfLine (h : SameStatement f g endOfLine node') : node' = .endOfLine := by
  cases node' <;> simp_all [SameStatement, mapLines, bare]

theorem SameStatement.isPlain_eq {node : Node} (h : SameStatement f g node node') :
    node'.isPlain = node.isPlain := by
  have hkind : ∀ {node : Node} (f : SourceLine → SourceLine),
      (node.mapLines f).bare.isPlain = node.isPlain := by
    intro node f
    cases node <;> simp [mapLines, bare, isPlain]
  rw [← hkind g, ← show _ = _ from h, hkind]

theorem SameStatement.sameOn {node : Node} (h : SameStatement f g node node')
    (hplain : node.isPlain = true) : SameOn f g node node' := by
  have hbare : ∀ {node : Node} (f : SourceLine → SourceLine), node.isPlain = true →
      (node.mapLines f).bare = node.mapLines f := by
    intro node f hplain
    cases node <;> first | (simp [mapLines, bare]; done) | cases hplain
  have hplain' : node'.isPlain = true := by rw [h.isPlain_eq, hplain]
  rwa [SameStatement, hbare f hplain, hbare g hplain'] at h

end SameStatement

section SameBlock

variable {node : Node} {rest block' : List Node}

theorem SameBlock.nil (h : SameBlock f g [] block') : block'.all isEndOfLine = true := by
  have hmarks := bareBlock_eq_nil_iff.mp (show bareBlock (block'.map (mapLines g)) = [] from h.symm)
  rw [List.all_map] at hmarks
  rwa [show isEndOfLine ∘ mapLines g = isEndOfLine from funext (isEndOfLine_mapLines g)] at hmarks

theorem SameBlock.mark (h : SameBlock f g (.endOfLine :: rest) block') :
    SameBlock f g rest block' := by
  simpa [SameBlock, mapLines] using h

/-- Before a statement of the one block there may be marks in the other one. -/
theorem SameBlock.cons (hnode : node.isEndOfLine = false)
    (h : SameBlock f g (node :: rest) block') :
    ∃ marks node' rest', block' = marks ++ node' :: rest' ∧ marks.all isEndOfLine = true
      ∧ SameStatement f g node node' ∧ SameBlock f g rest rest' := by
  rw [SameBlock, List.map_cons, bareBlock_cons (by rw [isEndOfLine_mapLines, hnode])] at h
  induction block' with
  | nil => cases h
  | cons node' block' ih =>
    cases hmark : node'.isEndOfLine with
    | true =>
      obtain rfl := eq_endOfLine hmark
      rw [List.map_cons, mapLines, bareBlock_mark] at h
      obtain ⟨marks, first, rest', rfl, hmarks, hsame⟩ := ih h
      refine ⟨.endOfLine :: marks, first, rest', rfl, ?_, hsame⟩
      rw [List.all_cons, hmark, hmarks, Bool.and_true]
    | false =>
      rw [List.map_cons, bareBlock_cons (by rw [isEndOfLine_mapLines, hmark])] at h
      obtain ⟨hfirst, hrest⟩ := List.cons.inj h
      exact ⟨[], node', block', rfl, rfl, hfirst, hrest⟩

end SameBlock

end Node

end Tablica
