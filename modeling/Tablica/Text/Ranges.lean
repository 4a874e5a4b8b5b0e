/-!
# Character properties as ranges

A Unicode property is a set of code points.  It is written down as the list of
its maximal runs, lowest first, each as its first and last code point, and a
character has the property when one of the runs holds it.

* `Ranges` — such a list;
* `Ranges.holds` — whether a character lies in one of the runs;
* `Ranges.holds_iff` — `holds` is membership in some run, whatever the order.
-/

namespace Tablica.Text

/-- Runs of code points, each given by its first and its last one. -/
abbrev Ranges := List (Nat × Nat)

/-- Whether the character lies in one of the runs. -/
def Ranges.holds (runs : Ranges) (c : Char) : Bool :=
  runs.any fun run => run.1 ≤ c.toNat && c.toNat ≤ run.2

/-- A character has the property exactly if some run reaches over it. -/
theorem Ranges.holds_iff {runs : Ranges} {c : Char} :
    runs.holds c ↔ ∃ run ∈ runs, run.1 ≤ c.toNat ∧ c.toNat ≤ run.2 := by
  simp [Ranges.holds]

end Tablica.Text
