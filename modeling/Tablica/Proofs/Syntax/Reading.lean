import Tablica.Proofs.Syntax.Forms
import Tablica.Proofs.Syntax.Indentation
import Tablica.Syntax.Outline

/-!
# Readings

A **reading** says which nodes a run of rows stands for, without saying how they are found.  It
goes along the rows of one block: each blank row is a mark, each row that is indented to the depth
of the block holds a simple statement or a heading, and after a heading come the rows of its block,
one level deeper.  How much a level is, is fixed for the whole text.

* `Row.IsFilled`, `Row.IsAlternative` — a row of a given depth;
* `Reading` — the nodes of a run of rows;
* `Reading.append` — one run of rows after another;
* `Reading.isBlock` — the nodes are a block.
-/

namespace Tablica

/-- A row of the given depth that holds more than blanks and a comment. -/
structure Row.IsFilled (unit : IndentUnit) (depth : Nat) (row : Row) : Prop where
  notBlank : row.isBlank = false
  indents : unit.Indents depth row.chars

/-- The lexemes of a row behind its indentation. -/
def IndentUnit.lexemes (symbol : List Char) (unit : IndentUnit) (depth : Nat) (row : Row) :
    Lexemes :=
  row.lexemes symbol (depth * unit.width)

/-- A row that holds `wpp` and nothing else. -/
structure Row.IsAlternative (symbol : List Char) (unit : IndentUnit) (depth : Nat) (row : Row) :
    Prop extends row.IsFilled unit depth where
  starts : Outline.startsAlternative (unit.lexemes symbol depth row)
  ends : Form.finishLine (unit.lexemes symbol depth row).ending
    (unit.lexemes symbol depth row).items.tail = .ok ()

/-- The nodes that rows stand for in a block of the given depth, which may be part of a function
or procedure. -/
inductive Reading (symbol : List Char) (unit : IndentUnit) :
    Bool → Nat → List Node → List Row → Prop
  | nil {inRoutine : Bool} {depth : Nat} : Reading symbol unit inRoutine depth [] []
  | mark {inRoutine : Bool} {depth : Nat} {row : Row} {nodes : List Node} {rows : List Row}
      (hrow : row.isBlank = true) (hrest : Reading symbol unit inRoutine depth nodes rows) :
      Reading symbol unit inRoutine depth (.endOfLine :: nodes) (row :: rows)
  | simple {inRoutine : Bool} {depth : Nat} {row : Row} {node : Node} {nodes : List Node}
      {rows : List Row} (hrow : row.IsFilled unit depth)
      (hread : readForm row.line inRoutine (unit.lexemes symbol depth row) = .ok (.simple node))
      (hrest : Reading symbol unit inRoutine depth nodes rows) :
      Reading symbol unit inRoutine depth (node :: .endOfLine :: nodes) (row :: rows)
  | heading {inRoutine : Bool} {depth : Nat} {row : Row} {heading : Heading}
      {block nodes : List Node} {rows rows' : List Row} (hrow : row.IsFilled unit depth)
      (hread : readForm row.line inRoutine (unit.lexemes symbol depth row)
        = .ok (.heading heading))
      (hblock : Reading symbol unit (heading.isRoutine || inRoutine) (depth + 1) block rows)
      (hfilled : IsFilled block) (hrest : Reading symbol unit inRoutine depth nodes rows') :
      Reading symbol unit inRoutine depth (heading.nodes row.line block ++ nodes)
        (row :: (rows ++ rows'))
  | alternative {inRoutine : Bool} {depth : Nat} {row row' : Row} {test : Node}
      {thenBlock elseBlock nodes : List Node} {rows rows' rows'' : List Row}
      (hrow : row.IsFilled unit depth)
      (hread : readForm row.line inRoutine (unit.lexemes symbol depth row)
        = .ok (.heading (.condition test)))
      (hthen : Reading symbol unit inRoutine (depth + 1) thenBlock rows)
      (hthenFilled : IsFilled thenBlock) (hrow' : row'.IsAlternative symbol unit depth)
      (helse : Reading symbol unit inRoutine (depth + 1) elseBlock rows')
      (helseFilled : IsFilled elseBlock)
      (hrest : Reading symbol unit inRoutine depth nodes rows'') :
      Reading symbol unit inRoutine depth
        (.condition test thenBlock (some elseBlock) row.line :: nodes)
        (row :: (rows ++ row' :: (rows' ++ rows'')))

theorem IndentUnit.lexemes_isNatural (symbol : List Char) (unit : IndentUnit) (depth : Nat)
    (row : Row) : ∀ lexeme ∈ (unit.lexemes symbol depth row).items, lexeme.IsNatural :=
  Token.lexemesFrom_isNatural _ _ _ _ _

namespace Reading

variable {symbol : List Char} {unit : IndentUnit} {inRoutine : Bool} {depth : Nat}
  {nodes nodes' : List Node} {rows rows' : List Row}

/-- Rows of a block can stand one after another. -/
theorem append (h : Reading symbol unit inRoutine depth nodes rows)
    (h' : Reading symbol unit inRoutine depth nodes' rows') :
    Reading symbol unit inRoutine depth (nodes ++ nodes') (rows ++ rows') := by
  induction h with
  | nil => exact h'
  | mark hrow _ ih => exact .mark hrow (ih h')
  | simple hrow hread _ ih => exact .simple hrow hread (ih h')
  | heading hrow hread hblock hfilled _ _ ih =>
    simp only [List.cons_append, List.append_assoc]
    exact .heading hrow hread hblock hfilled (ih h')
  | alternative hrow hread hthen hthenFilled hrow' helse helseFilled _ _ _ ih =>
    simp only [List.cons_append, List.append_assoc]
    exact .alternative hrow hread hthen hthenFilled hrow' helse helseFilled (ih h')

/-- **The nodes of a reading are a block.** -/
theorem isBlock (h : Reading symbol unit inRoutine depth nodes rows) :
    IsBlock inRoutine nodes := by
  induction h with
  | nil => exact .nil
  | mark _ _ ih => exact .mark ih
  | simple _ hread _ ih =>
    exact .simple (readForm_isRead (unit.lexemes_isNatural _ _ _) hread) ih
  | heading _ hread _ hfilled _ ihblock ih =>
    exact (IsBlock.ofHeading (readForm_isRead (unit.lexemes_isNatural _ _ _) hread) ihblock
      hfilled).append ih
  | alternative _ hread _ hthenFilled _ _ helseFilled _ ihthen ihelse ih =>
    have hheading := readForm_isRead (unit.lexemes_isNatural _ _ _) hread
    cases hheading with
    | condition htest => exact .alternative htest ihthen hthenFilled ihelse helseFilled ih

end Reading

end Tablica
