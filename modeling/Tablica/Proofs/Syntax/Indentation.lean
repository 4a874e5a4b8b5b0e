import Tablica.Syntax.Indentation
import Tablica.Token.Lexeme

/-!
# What indents a line

A line that is more than blank space starts with a run of one blank character and then with
another character.  If the depth of the line can be told at all, the run is exactly so many units
long and the character after it is not blank.

* `IndentUnit.IsValid` — the units that a text can have;
* `IndentUnit.Indents` — the start of a line of a given depth;
* `IndentUnit.isValid_of_discover` — the units that are found are valid;
* `IndentUnit.indents_of_depth` — what it means that a line has a depth.
-/

namespace Tablica

namespace IndentUnit

/-- The units of indentation: two spaces or more, or one tab or more. -/
def IsValid (unit : IndentUnit) : Prop :=
  (unit.character = ' ' ∧ 2 ≤ unit.width) ∨ (unit.character = '\t' ∧ 1 ≤ unit.width)

/-- Characters that start with so many units exactly, and then with what is not blank. -/
def Indents (unit : IndentUnit) (depth : Nat) (cs : List Char) : Prop :=
  ∃ c rest, cs = List.replicate (depth * unit.width) unit.character ++ c :: rest
    ∧ Text.isBlank c = false

theorem IsValid.isBlank {unit : IndentUnit} (h : unit.IsValid) :
    Text.isBlank unit.character = true := by
  rcases h with ⟨h, -⟩ | ⟨h, -⟩ <;> rw [h] <;> rfl

/-- Characters start with their leading run of a character. -/
theorem replicate_leadingRun_append (c : Char) (cs : List Char) :
    List.replicate (leadingRun c cs) c ++ cs.drop (leadingRun c cs) = cs := by
  induction cs with
  | nil => rfl
  | cons c' cs ih =>
    unfold leadingRun at ih ⊢
    rw [List.takeWhile_cons]
    split
    · rename_i heq
      rw [eq_of_beq heq, List.length_cons, List.replicate_succ, List.cons_append,
        List.drop_succ_cons, ih]
    · rfl

/-- In the outermost block a line must not be indented at all. -/
theorem indents_zero {unit : IndentUnit} {cs : List Char} (hne : cs ≠ [])
    (h : cs.head?.any Text.isBlank = false) : unit.Indents 0 cs := by
  cases cs with
  | nil => exact absurd rfl hne
  | cons c rest => exact ⟨c, rest, by simp, h⟩

/-- In a block of the first level a line fixes a valid unit, or it is not indented. -/
theorem isValid_of_discover {number : Nat} {cs : List Char} {found : Option IndentUnit}
    (h : discover number 1 cs = .ok found) :
    match found with
    | some unit => unit.IsValid
    | none => cs.head?.any Text.isBlank = false := by
  unfold discover at h
  simp only at h
  split at h
  · rename_i hhead
    cases h
    rw [hhead]
    rfl
  · rename_i c hhead
    split at h
    · rename_i hblank
      cases h
      rw [hhead]
      simpa using hblank
    · rename_i hblank
      split at h
      · cases h
      · rename_i hwidth
        split at h
        · cases h
        · cases h
          have hrun : 1 ≤ leadingRun c cs := by
            cases cs with
            | nil => cases hhead
            | cons c' cs =>
              cases hhead
              simp [leadingRun]
          have hblank : c = ' ' ∨ c = '\t' := by
            simpa [Text.isBlank, Decidable.or_iff_not_imp_left] using hblank
          rcases hblank with rfl | rfl
          · refine .inl ⟨rfl, ?_⟩
            simp only [true_and] at hwidth
            simp only [Nat.div_one]
            omega
          · refine .inr ⟨rfl, ?_⟩
            simpa using hrun

/-- **A line that has a depth** starts with so many units, and is not too deep. -/
theorem indents_of_depth {unit : IndentUnit} {number level depth : Nat} {cs : List Char}
    (hvalid : unit.IsValid) (hcs : ∃ c ∈ cs, Text.isBlank c = false)
    (h : unit.depth number level cs = .ok depth) : unit.Indents depth cs ∧ depth ≤ level := by
  unfold IndentUnit.depth at h
  simp only at h
  split at h
  · cases h
  · rename_i hfits
    cases h
    simp only [not_or, Nat.not_lt, Bool.not_eq_true, Decidable.not_not] at hfits
    obtain ⟨hlevel, hmixed, hwhole⟩ := hfits
    have hsplit := replicate_leadingRun_append unit.character cs
    have hrun : leadingRun unit.character cs / unit.width * unit.width
        = leadingRun unit.character cs := Nat.div_mul_cancel (Nat.dvd_of_mod_eq_zero hwhole)
    refine ⟨?_, ?_⟩
    · unfold Indents
      rw [hrun]
      cases hrest : cs.drop (leadingRun unit.character cs) with
      | nil =>
        -- a line of nothing but units would be blank
        obtain ⟨c, hc, hfilled⟩ := hcs
        rw [hrest, List.append_nil] at hsplit
        rw [← hsplit] at hc
        rw [List.eq_of_mem_replicate hc, hvalid.isBlank] at hfilled
        cases hfilled
      | cons c rest =>
        rw [hrest] at hsplit
        refine ⟨c, rest, hsplit.symm, ?_⟩
        have hget : cs[leadingRun unit.character cs]? = some c := by
          rw [← List.head?_drop, hrest]
          rfl
        rw [hget] at hmixed
        exact hmixed
    · exact Nat.div_le_of_le_mul hlevel

end IndentUnit

/-- A row that is not blank holds a character that is not. -/
theorem Row.exists_not_isBlank {row : Row} (h : row.isBlank = false) :
    ∃ c ∈ row.chars, Text.isBlank c = false := by
  unfold Row.isBlank at h
  split at h
  · cases h
  · rename_i c rest hdrop
    refine ⟨c, (List.dropWhile_suffix _).mem (hdrop ▸ List.mem_cons_self), ?_⟩
    have := List.head?_dropWhile_not Text.isBlank row.chars
    simpa [hdrop] using this

end Tablica
