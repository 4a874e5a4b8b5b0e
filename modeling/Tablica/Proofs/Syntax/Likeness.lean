import Mathlib.Data.List.Forall2
import Tablica.Proofs.Syntax.Program
import Tablica.Proofs.Syntax.Relocation

/-!
# Two texts that are read alike

Two texts whose rows differ in little are read side by side.  Their nodes are alike: on the lines of
the one stand the lines of the other, and apart from that the blocks are the same in a sense that
depends on how the texts differ.  It has to be a sense that the rules for rows respect, and a
**likeness** says so: it says nothing about single nodes, it lets blocks stand one after another, it
tells a block of marks from any other, and it goes from a block to the nodes of its heading.

    outline ──place row──▸ outline
       │                      │
     alike                  alike
       │                      │
    outline ──place row──▸ outline

Once the depth of a row is known, what the row does is the same on both sides.  Either both rows are
read, or both meet a fault of one variant.

* `Likeness` — a sense in which blocks are the same;
* `Narrated.Alike` — two computations that both end or both meet such a fault;
* `Outline.Alike`, `Heading.Alike` — outlines and headings that are alike;
* `Outline.place` — what a row of a known depth does, and `Outline.Alike.place` — the square.
-/

namespace Tablica

/-- A sense in which two blocks are the same, and one in which two units of indentation are. -/
structure Likeness where
  block : List Node → List Node → Prop
  unit : Option IndentUnit → Option IndentUnit → Prop
  refl (nodes : List Node) : block nodes nodes
  append {nodes₁ nodes₂ nodes₁' nodes₂' : List Node} (h₁ : block nodes₁ nodes₁')
    (h₂ : block nodes₂ nodes₂') : block (nodes₁ ++ nodes₂) (nodes₁' ++ nodes₂')
  marks {nodes nodes' : List Node} (h : block nodes nodes') :
    nodes'.all Node.isEndOfLine = nodes.all Node.isEndOfLine
  heading (heading : Heading) (line : SourceLine) {nodes nodes' : List Node}
    (h : block nodes nodes') : block (heading.nodes line nodes) (heading.nodes line nodes')
  alternative (test : Node) (line : SourceLine) {thenBlock thenBlock' nodes nodes' : List Node}
    (hthen : block thenBlock thenBlock') (h : block nodes nodes') :
    block ((Heading.alternative test thenBlock).nodes line nodes)
      ((Heading.alternative test thenBlock').nodes line nodes')

/-! ### Narrated computations -/

/-- Two faults of one variant. -/
def Fault.SameVariant (e e' : Fault) : Prop :=
  e'.kind.ctorIdx = e.kind.ctorIdx

/-- What a computation ends with, its log apart. -/
def Narrated.result {α : Type} (x : Narrated α) (log : List LogRecord) : Except Fault α :=
  match x log with
  | .ok a _ => .ok a
  | .error fault _ => .error fault

/-- Two computations that end with results that are related, or with faults of one variant. -/
def Narrated.Alike {α α' : Type} (V : α → α' → Prop) (x : Narrated α) (x' : Narrated α') : Prop :=
  ∀ log log', Relates Fault.SameVariant V (x.result log) (x'.result log')

namespace Narrated.Alike

variable {α α' β β' : Type} {V : α → α' → Prop} {W : β → β' → Prop} {x : Narrated α}
  {x' : Narrated α'}

theorem pure {a : α} {a' : α'} (h : V a a') : Alike V (pure a) (pure a') :=
  fun _ _ => .ok h

theorem throw {e e' : Fault} (h : e.SameVariant e') : Alike V (throw e) (throw e') :=
  fun _ _ => .error h

theorem note (record record' : LogRecord) :
    Alike (fun _ _ => True) (Narrated.note record) (Narrated.note record') :=
  fun _ _ => .ok trivial

theorem of_except {y : Except Fault α} {y' : Except Fault α'}
    (h : Relates Fault.SameVariant V y y') :
    Alike V (ofExcept y : Narrated α) (ofExcept y' : Narrated α') := by
  intro log log'
  cases h with
  | ok h => exact .ok h
  | error h => exact .error h

theorem bind {f : α → Narrated β} {f' : α' → Narrated β'} (h : Alike V x x')
    (hf : ∀ a a', V a a' → Alike W (f a) (f' a')) : Alike W (x >>= f) (x' >>= f') := by
  intro log log'
  have hx := h log log'
  simp only [result, Bind.bind, EStateM.bind] at hx ⊢
  cases hrun : x log with
  | ok a next =>
    cases hrun' : x' log' with
    | ok a' next' =>
      rw [hrun, hrun'] at hx
      cases hx with
      | ok ha => exact hf a a' ha next next'
    | error e' next' =>
      rw [hrun, hrun'] at hx
      cases hx
  | error e next =>
    cases hrun' : x' log' with
    | ok a' next' =>
      rw [hrun, hrun'] at hx
      cases hx
    | error e' next' =>
      rw [hrun, hrun'] at hx
      cases hx with
      | error he => exact .error he

theorem exists_of_ok (h : Alike V x x') {a : α} {log log₁ : List LogRecord}
    (hx : x log = .ok a log₁) (log' : List LogRecord) :
    ∃ a' log₁', x' log' = .ok a' log₁' ∧ V a a' := by
  have hrelates := h log log'
  simp only [result, hx] at hrelates
  obtain ⟨a', hresult, ha⟩ := hrelates.exists_of_ok
  cases hrun : x' log' with
  | ok a' log₁' =>
    rw [hrun] at hresult
    cases hresult
    exact ⟨a', log₁', rfl, ha⟩
  | error =>
    rw [hrun] at hresult
    cases hresult

end Narrated.Alike

theorem Narrated.bind_of_ok {α β : Type} {x : Narrated α} {f : α → Narrated β} {a : α}
    {log log' : List LogRecord} (h : x log = .ok a log') : (x >>= f) log = f a log' := by
  simp only [bind, EStateM.bind, h]

/-- What a text is read as is what its rows are read as, apart from the log. -/
theorem Program.parse_eq_ok_iff {symbol : List Char} {text : String} {nodes : List Node} :
    parse symbol text = .ok nodes ↔ ∃ log, readRows symbol (rows text) [] = .ok nodes log := by
  unfold parse read EStateM.run
  cases readRows symbol (rows text) [] with
  | ok nodes' log => simp
  | error fault log => simp

/-- Texts whose rows are read alike. -/
theorem Program.parse_relates {symbol : List Char} {text text' : String}
    {V : List Node → List Node → Prop}
    (h : Narrated.Alike V (readRows symbol (rows text)) (readRows symbol (rows text'))) :
    Relates (fun e e' => e'.kind.ctorIdx = e.kind.ctorIdx) V (parse symbol text)
      (parse symbol text') := by
  have hresult : ∀ text, parse symbol text
      = ((readRows symbol (rows text)).result []).mapError (.ofFault (Source.lines text)) := by
    intro text
    unfold parse read EStateM.run Narrated.result
    cases readRows symbol (rows text) [] <;> rfl
  have hrelates := h [] []
  rw [hresult, hresult]
  generalize (readRows symbol (rows text)).result [] = x at hrelates ⊢
  generalize (readRows symbol (rows text')).result [] = x' at hrelates ⊢
  cases hrelates with
  | ok h => exact .ok h
  | error h => exact .error h

/-! ### Headings, layers and outlines -/

section Alike

variable (likeness : Likeness) (f : SourceLine → SourceLine)

/-- Nodes that are collected, the last one first, and those of the other text. -/
def Node.Collected (nodes nodes' : List Node) : Prop :=
  likeness.block (nodes.reverse.map (Node.mapLines f)) nodes'.reverse

/-- A heading on the lines of the other text.  Only the complete block of an alternative may
differ. -/
inductive Heading.Alike : Heading → Heading → Prop
  | relocated {r : Relocation} (hline : r.line = f) (heading : Heading) :
    Heading.Alike heading (r.heading heading)
  | alternative {test : Node} {thenBlock thenBlock' : List Node}
    (h : likeness.block (thenBlock.map (Node.mapLines f)) thenBlock') :
    Heading.Alike (.alternative test thenBlock) (.alternative (test.mapLines f) thenBlock')

/-- Two open blocks.  Nothing is said of where they have to begin. -/
structure Layer.Alike (layer layer' : Layer) : Prop where
  heading : Heading.Alike likeness f layer.heading layer'.heading
  line : layer'.line = f layer.line
  before : Node.Collected likeness f layer.before layer'.before

/-- Two outlines whose nodes and open blocks are alike. -/
structure Outline.Alike (outline outline' : Outline) : Prop where
  unit : likeness.unit outline.unit outline'.unit
  nodes : Node.Collected likeness f outline.nodes outline'.nodes
  layers : List.Forall₂ (Layer.Alike likeness f) outline.layers outline'.layers

end Alike

variable {likeness : Likeness} {f : SourceLine → SourceLine} {r : Relocation}

theorem Node.isEndOfLine_mapLines (f : SourceLine → SourceLine) (node : Node) :
    (node.mapLines f).isEndOfLine = node.isEndOfLine := by
  cases node <;> simp [Node.mapLines, Node.isEndOfLine]

theorem Node.Collected.append {nodes nodes' more more' : List Node}
    (h : Collected likeness f nodes nodes')
    (hmore : likeness.block (more.map (mapLines f)) more') :
    Collected likeness f (more.reverse ++ nodes) (more'.reverse ++ nodes') := by
  unfold Collected at h ⊢
  rw [List.reverse_append, List.reverse_append, List.reverse_reverse, List.reverse_reverse,
    List.map_append]
  exact likeness.append h hmore

namespace Heading

theorem nodes_relocated (heading : Heading) (line : SourceLine) (block : List Node) :
    (r.heading heading).nodes (r.line line) (block.map r.node)
      = (heading.nodes line block).map r.node := by
  cases heading <;> simp [nodes, Relocation.heading, Relocation.node, Node.mapLines]

variable {heading heading' : Heading}

theorem Alike.isRoutine (h : heading.Alike likeness f heading') :
    heading'.isRoutine = heading.isRoutine := by
  cases h with
  | relocated => cases heading <;> rfl
  | alternative => rfl

/-- The nodes of headings that are alike. -/
theorem Alike.nodes (h : heading.Alike likeness f heading') (line : SourceLine)
    {block block' : List Node} (hblock : likeness.block (block.map (Node.mapLines f)) block') :
    likeness.block ((heading.nodes line block).map (Node.mapLines f))
      (heading'.nodes (f line) block') := by
  cases h with
  | @relocated r hline heading =>
    subst hline
    have hnodes := likeness.heading (r.heading heading) (r.line line) hblock
    rwa [show Node.mapLines r.line = r.node from rfl, nodes_relocated] at hnodes
  | @alternative test _ _ hthen =>
    have hnodes := likeness.alternative (test.mapLines f) (f line) hthen hblock
    simpa [Heading.nodes, Node.mapLines] using hnodes

end Heading

/-! ### Ending blocks -/

namespace Outline

open Narrated (note)

variable {outline outline' : Outline}

theorem Alike.level (h : outline.Alike likeness f outline') : outline'.level = outline.level :=
  h.layers.length_eq.symm

theorem Alike.inRoutine (h : outline.Alike likeness f outline') :
    outline'.inRoutine = outline.inRoutine := by
  have hlayers := h.layers
  unfold Outline.inRoutine
  generalize outline.layers = layers at hlayers
  generalize outline'.layers = layers' at hlayers
  induction hlayers with
  | nil => rfl
  | cons hlayer _ ih => rw [List.any_cons, List.any_cons, hlayer.heading.isRoutine, ih]

theorem checkBlock_alike (layer layer' : Layer) (level level' : Nat) {nodes nodes' : List Node}
    (h : Node.Collected likeness f nodes nodes') :
    Narrated.Alike (fun _ _ => True) (checkBlock layer level nodes)
      (checkBlock layer' level' nodes') := by
  have hmarks := likeness.marks h
  have hmap : (nodes.reverse.map (Node.mapLines f)).all Node.isEndOfLine
      = nodes.all Node.isEndOfLine := by
    rw [List.all_map, List.all_reverse]
    exact congrArg nodes.all (funext (Node.isEndOfLine_mapLines f))
  rw [hmap, List.all_reverse] at hmarks
  unfold checkBlock
  rw [hmarks]
  split
  · exact .throw rfl
  · exact .note _ _

/-- **Ending blocks** keeps the open blocks alike, or meets an empty block on both sides. -/
theorem closeTo_alike (depth : Nat) {layers layers' : List Layer} {nodes nodes' : List Node}
    (hlayers : List.Forall₂ (Layer.Alike likeness f) layers layers')
    (h : Node.Collected likeness f nodes nodes') :
    Narrated.Alike (fun closed closed' =>
        List.Forall₂ (Layer.Alike likeness f) closed.1 closed'.1
          ∧ Node.Collected likeness f closed.2 closed'.2)
      (closeTo depth layers nodes) (closeTo depth layers' nodes') := by
  induction hlayers generalizing nodes nodes' with
  | nil => exact .pure ⟨.nil, h⟩
  | @cons layer layer' layers layers' hlayer hlayers ih =>
    unfold closeTo
    rw [hlayers.length_eq]
    split
    · exact .pure ⟨.cons hlayer hlayers, h⟩
    · refine (checkBlock_alike layer layer' _ _ h).bind fun _ _ _ => ih ?_
      rw [hlayer.line]
      exact hlayer.before.append (hlayer.heading.nodes layer.line h)

theorem Alike.close (h : outline.Alike likeness f outline') (depth : Nat) :
    Narrated.Alike (Alike likeness f) (outline.close depth) (outline'.close depth) :=
  (closeTo_alike depth h.layers h.nodes).bind fun _ _ hclosed =>
    .pure ⟨h.unit, hclosed.2, hclosed.1⟩

theorem Alike.append (h : outline.Alike likeness f outline') {nodes nodes' : List Node}
    (hnodes : likeness.block (nodes.map (Node.mapLines f)) nodes') :
    (outline.append nodes).Alike likeness f (outline'.append nodes') :=
  ⟨h.unit, h.nodes.append hnodes, h.layers⟩

theorem Alike.openBlock (h : outline.Alike likeness f outline') {heading heading' : Heading}
    (hheading : heading.Alike likeness f heading') (line : SourceLine) (start start' : Position) :
    (outline.openBlock heading line start).Alike likeness f
      (outline'.openBlock heading' (f line) start') :=
  ⟨h.unit, likeness.refl _, .cons ⟨hheading, rfl, h.nodes⟩ h.layers⟩

/-! ### Reading a row -/

/-- What a row does once its depth is known and its indentation passed. -/
def place (row : Row) (lexemes : Lexemes) (depth : Nat) (outline : Outline) :
    Narrated Outline := do
  let outline ← outline.close (depth + 1)
  match outline.layers with
  | ⟨.condition test, line, start, before⟩ :: layers =>
    if layers.length = depth && startsAlternative lexemes then
      checkBlock ⟨.condition test, line, start, before⟩ (depth + 1) outline.nodes
      ofExcept (Form.finishLine lexemes.ending lexemes.items.tail)
      let thenBlock := outline.nodes.reverse
      return { outline with
        nodes := []
        layers := ⟨.alternative test thenBlock, line, blockStart row, before⟩ :: layers }
    else (← outline.close depth).readStatement row lexemes
  | _ => (← outline.close depth).readStatement row lexemes

theorem readFilled_eq (symbol : List Char) (row : Row) (outline : Outline) :
    outline.readFilled symbol row = (do
      let (depth, measured) ← outline.measure row
      measured.place row (row.lexemes symbol (measured.indentOf depth)) depth) := rfl

variable {row row' : Row} {lexemes lexemes' : Lexemes}

/-- A statement goes into the innermost block, or a block is opened. -/
theorem Alike.enterForm (h : outline.Alike likeness r.line outline')
    (hline : row'.line = r.line row.line)
    (hitems : lexemes'.items = lexemes.items.map r.lexeme)
    (hending : r.EndingMoves lexemes.ending lexemes'.ending) :
    Narrated.Alike (Alike likeness r.line)
      (do
        match ← ofExcept (readForm row.line outline.inRoutine lexemes) with
        | .simple node => return outline.append [node, .endOfLine]
        | .heading heading => return outline.openBlock heading row.line (blockStart row))
      (do
        match ← ofExcept (readForm row'.line outline'.inRoutine lexemes') with
        | .simple node => return outline'.append [node, .endOfLine]
        | .heading heading => return outline'.openBlock heading row'.line (blockStart row')) := by
  rw [hline, h.inRoutine]
  have hread := Relocation.readForm_relates hitems hending row.line outline.inRoutine
  refine (Narrated.Alike.of_except (hread.mono (fun _ _ he => he.2) fun _ _ => id)).bind
    fun form form' hform => ?_
  obtain rfl : form' = r.form form := hform
  cases form with
  | simple node =>
    refine .pure (h.append ?_)
    have hmap : [node, .endOfLine].map (Node.mapLines r.line) = [r.node node, .endOfLine] := by
      simp [Relocation.node, Node.mapLines]
    rw [hmap]
    exact likeness.refl _
  | heading heading => exact .pure (h.openBlock (.relocated rfl heading) row.line _ _)

theorem Alike.readStatement (h : outline.Alike likeness r.line outline')
    (hline : row'.line = r.line row.line)
    (hitems : lexemes'.items = lexemes.items.map r.lexeme)
    (hending : r.EndingMoves lexemes.ending lexemes'.ending) :
    Narrated.Alike (Alike likeness r.line) (outline.readStatement row lexemes)
      (outline'.readStatement row' lexemes') := by
  have hform := h.enterForm hline hitems hending
  obtain ⟨items, ending⟩ := lexemes
  obtain ⟨items', ending'⟩ := lexemes'
  obtain rfl : items' = items.map r.lexeme := hitems
  unfold Outline.readStatement
  rcases items with _ | ⟨lexeme, items⟩
  · exact hform
  · cases lexeme with
    | token token next => exact (Narrated.Alike.note _ _).bind fun _ _ _ => hform
    | fault fault => exact hform

theorem startsAlternative_eq (hitems : lexemes'.items = lexemes.items.map r.lexeme) :
    startsAlternative lexemes' = startsAlternative lexemes := by
  unfold startsAlternative
  rw [hitems]
  rcases lexemes.items with _ | ⟨lexeme, items⟩
  · rfl
  · cases lexeme with
    | fault => rfl
    | token token next =>
      obtain ⟨kind, position⟩ := token
      cases kind with
      | keyword keyword => cases keyword <;> rfl
      | _ => rfl

/-- **A row of a known depth** does the same on both sides. -/
theorem Alike.place (h : outline.Alike likeness r.line outline')
    (hline : row'.line = r.line row.line)
    (hitems : lexemes'.items = lexemes.items.map r.lexeme)
    (hending : r.EndingMoves lexemes.ending lexemes'.ending) (depth : Nat) :
    Narrated.Alike (Alike likeness r.line) (outline.place row lexemes depth)
      (outline'.place row' lexemes' depth) := by
  refine (h.close (depth + 1)).bind fun closed closed' hclosed => ?_
  have hstatement : Narrated.Alike (Alike likeness r.line)
      (do (← closed.close depth).readStatement row lexemes)
      (do (← closed'.close depth).readStatement row' lexemes') :=
    (hclosed.close depth).bind fun _ _ hclosed => hclosed.readStatement hline hitems hending
  obtain ⟨unit, nodes, layers⟩ := closed
  obtain ⟨unit', nodes', layers'⟩ := closed'
  obtain ⟨hunit, hnodes, hlayers⟩ := hclosed
  cases hlayers with
  | nil => exact hstatement
  | @cons layer layer' layers layers' hlayer hlayers =>
    obtain ⟨heading, line, start, before⟩ := layer
    obtain ⟨heading', line', start', before'⟩ := layer'
    obtain ⟨hheading, hlayerLine, hbefore⟩ := hlayer
    cases hheading with
    | alternative => exact hstatement
    | @relocated r' hline' heading =>
      cases heading with
      | condition test =>
        have hfinish := Relocation.finishLine_relates hending lexemes.items.tail
        rw [List.map_tail, ← hitems] at hfinish
        simp only [hlayers.length_eq, startsAlternative_eq hitems]
        split
        · refine (checkBlock_alike _ _ _ _ hnodes).bind fun _ _ _ => ?_
          refine (Narrated.Alike.of_except (hfinish.mono (fun _ _ he => he.2)
            fun _ _ _ => trivial)).bind fun _ _ _ => .pure ?_
          refine ⟨hunit, likeness.refl _, .cons ⟨?_, hlayerLine, hbefore⟩ hlayers⟩
          rw [show r'.node test = test.mapLines r.line by rw [← hline']; rfl]
          exact .alternative hnodes
        · exact hstatement
      | _ => exact hstatement

/-- Outlines that are alike end alike. -/
theorem Alike.finish (h : outline.Alike likeness f outline') :
    Narrated.Alike (fun nodes nodes' => likeness.block (nodes.map (Node.mapLines f)) nodes')
      (do
        let outline ← outline.close 0
        let nodes := outline.nodes.reverse
        note (.parsed nodes.length)
        return nodes)
      (do
        let outline ← outline'.close 0
        let nodes := outline.nodes.reverse
        note (.parsed nodes.length)
        return nodes) :=
  (h.close 0).bind fun _ _ hclosed => (Narrated.Alike.note _ _).bind fun _ _ _ =>
    .pure hclosed.nodes

end Outline

end Tablica
