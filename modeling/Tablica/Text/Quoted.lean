import Tablica.Text.Printable

/-!
# Quoted text

A text that stands inside a longer name has to be told apart from what surrounds
it, so it is written between double quotes, and every character that could be
mistaken is written as an escape: the quote and the backslash, the control
characters with a short name, and whatever would not be seen.

* `escape` — how one character is written;
* `quote` — how a text is written;
* `escape_ne_nil`, `quote_eq` — the shape of the two.
-/

namespace Tablica.Text

/-- A character by its code point, in lower-case hexadecimal digits. -/
def escapeCodePoint (c : Char) : List Char :=
  ['\\', 'u', '{'] ++ Nat.toDigits 16 c.toNat ++ ['}']

/-- How one character is written between the quotes. -/
def escape (c : Char) : List Char :=
  if c = '\x00' then ['\\', '0']
  else if c = '\t' then ['\\', 't']
  else if c = '\r' then ['\\', 'r']
  else if c = '\n' then ['\\', 'n']
  else if c = '"' then ['\\', '"']
  else if c = '\\' then ['\\', '\\']
  else if extendsGrapheme c || !isPrintable c then escapeCodePoint c
  else [c]

/-- The text between double quotes. -/
def quote (cs : List Char) : List Char :=
  '"' :: (cs.flatMap escape ++ ['"'])

/-- Every character leaves a trace. -/
theorem escape_ne_nil (c : Char) : escape c ≠ [] := by
  simp only [escape, escapeCodePoint]
  repeat' split
  all_goals simp

/-- A quoted text is its escaped characters between two quotes. -/
theorem quote_eq (cs : List Char) : quote cs = ['"'] ++ cs.flatMap escape ++ ['"'] := rfl

end Tablica.Text
