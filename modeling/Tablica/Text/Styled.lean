import Tablica.Text.ControlSequence

/-!
# Styled text

Text for a terminal comes in pieces, and each piece may have a **style**: a control
sequence that switches colours on before the piece, while a common one switches
everything off after it.  Where colours are not wanted, the same text is written
without any sequence.

The two ways to write a text differ in how they take the sequences that a piece itself
holds.  Text that is *rendered* keeps them in any case, and a piece that switches styles
off does not end its own style by that.  Text that is *sent* goes out with all its
sequences as they are, and where colours are not wanted all are stripped from it.

* `Style` — a control sequence, or none;
* `StyledText` — a text in pieces;
* `StyledText.render`, `StyledText.send` — what is written in either way;
* `StyledText.render_append` — a text can be rendered piece by piece;
* `StyledText.escape_not_mem_send` — without colours no sequence is sent.
-/

namespace Tablica

/-- What is written before a piece of text to switch its style on; nothing for text without a
style. -/
structure Style where
  sequence : String
deriving DecidableEq, Repr, Inhabited

namespace Style

def plain : Style := ⟨""⟩

/-- The control sequence that switches every style off. -/
def reset : String := "\x1b[0m"

/-- A piece of text with its style switched on before it and off after it. -/
def enclose (style : Style) (text : String) : String :=
  if style = plain then text else style.sequence ++ text ++ reset

/-- The same, and a piece that itself switches styles off has its own switched on again. -/
def wrap (style : Style) (text : String) : String :=
  style.enclose (text.replace reset (reset ++ style.sequence))

end Style

/-- A piece of text in one style. -/
structure StyledPiece where
  style : Style
  text : String
deriving DecidableEq, Repr, Inhabited

/-- A text in pieces. -/
abbrev StyledText := List StyledPiece

namespace StyledText

/-- A text without a style. -/
def plain (text : String) : StyledText :=
  [⟨.plain, text⟩]

/-- A text in one style. -/
def styled (style : Style) (text : String) : StyledText :=
  [⟨style, text⟩]

/-- What is written for a piece of text, with or without colours. -/
def renderPiece (colour : Bool) (piece : StyledPiece) : String :=
  if colour then piece.style.wrap piece.text else piece.text

/-- What is written for a text, with or without colours. -/
def render (colour : Bool) (text : StyledText) : String :=
  String.join (text.map (renderPiece colour))

/-- A text can be rendered piece by piece. -/
theorem render_append (colour : Bool) (s t : StyledText) :
    render colour (s ++ t) = render colour s ++ render colour t := by
  simp [render, String.join_append]

/-- A text with the sequences of its styles and its own. -/
def marked (text : StyledText) : String :=
  String.join (text.map fun piece => piece.style.enclose piece.text)

/-- What is sent of a text, with or without colours: it is stripped as a whole, for a sequence may
go on from one piece to the next. -/
def send (colour : Bool) (text : StyledText) : String :=
  if colour then text.marked else Text.stripped text.marked

/-- Without colours no sequence is sent. -/
theorem escape_not_mem_send (text : StyledText) : '\x1b' ∉ (text.send false).toList := by
  simpa [send, Text.stripped] using Text.escape_not_mem_strip text.marked.toList

end StyledText

end Tablica
