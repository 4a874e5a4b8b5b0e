/-!
# Keywords

The language has twelve reserved words, all Polish.  Two of them, `to` and
`wykonuj`, close the expression in the header of a block; the others open a
statement.

* `Keyword` — the words, named by their spelling without diacritics;
* `Keyword.spelling`, `Keyword.ofWord?` — from a keyword to its spelling and back;
* `Keyword.ofWord?_eq_some_iff` — a word is a keyword exactly if it is spelled like one.
-/

namespace Tablica

inductive Keyword
  | czytaj | dla | dopoki | funkcja | jezeli | koniec
  | pisz | procedura | to | wpp | wykonuj | zwroc
deriving DecidableEq, Repr, Inhabited

namespace Keyword

/-- The keyword as it stands in a program. -/
def spelling : Keyword → String
  | czytaj => "czytaj"
  | dla => "dla"
  | dopoki => "dopóki"
  | funkcja => "funkcja"
  | jezeli => "jeżeli"
  | koniec => "koniec"
  | pisz => "pisz"
  | procedura => "procedura"
  | .to => "to"
  | wpp => "wpp"
  | wykonuj => "wykonuj"
  | zwroc => "zwróć"

/-- Every keyword, once. -/
def all : List Keyword :=
  [czytaj, dla, dopoki, funkcja, jezeli, koniec, pisz, procedura, .to, wpp, wykonuj, zwroc]

/-- The keyword that a word spells, if it spells one. -/
def ofWord? (word : String) : Option Keyword :=
  all.find? fun keyword => keyword.spelling = word

/-- Whether the keyword ends the expression before it. -/
def isTerminator : Keyword → Bool
  | .to | wykonuj => true
  | _ => false

theorem mem_all (keyword : Keyword) : keyword ∈ all := by
  cases keyword <;> decide

/-- No two keywords are spelled alike. -/
theorem spelling_injective {k k' : Keyword} (h : k.spelling = k'.spelling) : k = k' := by
  cases k <;> cases k' <;> first | rfl | simp [spelling] at h

/-- A word is a keyword exactly if it is spelled like one. -/
theorem ofWord?_eq_some_iff {word : String} {keyword : Keyword} :
    ofWord? word = some keyword ↔ keyword.spelling = word := by
  constructor
  · intro h
    simpa using List.find?_some h
  · rintro rfl
    cases keyword <;> decide

end Keyword

end Tablica
