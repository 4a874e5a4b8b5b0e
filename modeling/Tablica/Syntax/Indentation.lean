import Tablica.Syntax.Fault

/-!
# Indentation

The first indented line of a program fixes what one level of indentation looks like:
one tab or more, or two spaces or more.  From then on every line has to start with a
whole number of such units, and that number is the **depth** of the line.  No line is
deeper than the innermost block that is open, so a line either continues that block
or ends it, and perhaps some more around it.

* `IndentUnit` — what one level looks like;
* `IndentUnit.discover` — the unit that a line fixes, if it is indented at all;
* `IndentUnit.depth` — the depth of a line inside an open block.
-/

namespace Tablica

/-- One level of indentation: so many copies of one character. -/
structure IndentUnit where
  character : Char
  width : Nat
deriving DecidableEq, Repr, Inhabited

namespace IndentUnit

/-- How many copies of the character the line starts with. -/
def leadingRun (c : Char) (cs : List Char) : Nat :=
  (cs.takeWhile (· == c)).length

/-- The unit that the line with the given number fixes when it stands in a block of the given
level, which is not the outermost one.  A line without indentation fixes none. -/
def discover (number level : Nat) (cs : List Char) : Except Fault (Option IndentUnit) :=
  let start := ⟨number, 1⟩
  match cs.head? with
  | none => .ok none
  | some c =>
    if !Text.isBlank c then .ok none
    else
      let run := leadingRun c cs
      if c = ' ' ∧ run < 2 then .error ⟨.indentationTooNarrow run, start⟩
      else if run % level ≠ 0 then .error ⟨.inconsistentIndentation, start⟩
      else .ok (some ⟨c, run / level⟩)

/-- The depth of a line while a block of the given level is open, which is not the outermost
one. -/
def depth (unit : IndentUnit) (number level : Nat) (cs : List Char) : Except Fault Nat :=
  let run := leadingRun unit.character cs
  let expected := unit.width * level
  let isMixed := (cs[run]?).any Text.isBlank
  if expected < run ∨ isMixed ∨ run % unit.width ≠ 0 then
    .error ⟨.inconsistentIndentation, ⟨number, min run expected + 1⟩⟩
  else .ok (run / unit.width)

end IndentUnit

end Tablica
