/-!
# Blank space

Two notions of blank space meet in a program text, and they are not the same.
The reader of a line passes over the **space and the tab only**: these two may
stand between tokens and these two indent a line.  Everything that trims a whole
text (a line shown in a message, a number typed by a user) goes by the Unicode
property `White_Space`, which also holds line breaks, the no-break space and the
wide spaces.

* `isBlank` — the space and the tab;
* `isWhiteSpace` — the Unicode property;
* `trim` — a text without the white space at its two ends;
* `isWhiteSpace_of_isBlank` — the first notion is the narrower one.
-/

namespace Tablica.Text

/-- The characters that separate tokens and indent lines. -/
def isBlank (c : Char) : Bool :=
  c == ' ' || c == '\t'

/-- The Unicode property `White_Space`. -/
def isWhiteSpace (c : Char) : Bool :=
  let n := c.toNat
  (0x09 ≤ n && n ≤ 0x0D) || n == 0x20 || n == 0x85 || n == 0xA0 || n == 0x1680
    || (0x2000 ≤ n && n ≤ 0x200A) || n == 0x2028 || n == 0x2029 || n == 0x202F
    || n == 0x205F || n == 0x3000

/-- The characters without the white space at both ends. -/
def trim (cs : List Char) : List Char :=
  ((cs.dropWhile isWhiteSpace).reverse.dropWhile isWhiteSpace).reverse

/-- The text without the white space at both ends. -/
def trimmed (s : String) : String :=
  String.ofList (trim s.toList)

/-- What separates tokens is white space. -/
theorem isWhiteSpace_of_isBlank {c : Char} (h : isBlank c) : isWhiteSpace c := by
  simp only [isBlank, Bool.or_eq_true, beq_iff_eq] at h
  rcases h with rfl | rfl <;> rfl

end Tablica.Text
