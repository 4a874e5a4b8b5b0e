import Mathlib.Data.List.TakeWhile
import Tablica.Text.Blank

/-!
# What is left of a trimmed text

Trimming cuts a text in three.

    cs  =  before ++ (core ++ after)          trim cs  =  core

The two outer parts are white space, and the part between them neither starts nor ends with white
space.  A text that is all white space can be cut in several places, but nothing is left of it at
any of them, so what is left is one and the same for every cut.

* `takeWhile_append_eq`, `dropWhile_append_eq` — where a leading run ends;
* `IsTrimmed` — what trimming leaves, told by the cut;
* `exists_after_trim` — what trimming takes off;
* `trim_eq_iff` — trimming leaves that part and no other.
-/

namespace Tablica.Text

/-! ### Leading runs -/

section Runs

variable {α : Type} {p : α → Bool} {word tail : List α}

theorem takeWhile_append_eq (hword : ∀ c ∈ word, p c = true)
    (htail : ∀ c ∈ tail.head?, p c = false) : (word ++ tail).takeWhile p = word := by
  rw [List.takeWhile_append_of_pos hword]
  cases tail with
  | nil => simp
  | cons c tail => simp [htail c rfl]

theorem dropWhile_append_eq (hword : ∀ c ∈ word, p c = true)
    (htail : ∀ c ∈ tail.head?, p c = false) : (word ++ tail).dropWhile p = tail := by
  rw [List.dropWhile_append_of_pos hword]
  cases tail with
  | nil => rfl
  | cons c tail => simp [htail c rfl]

/-- What is left behind a leading run starts with none of its characters. -/
theorem head?_dropWhile_eq_false (p : α → Bool) (cs : List α) :
    ∀ c ∈ (cs.dropWhile p).head?, p c = false := by
  intro c hc
  have hhead := List.head?_dropWhile_not p cs
  rw [Option.mem_def.mp hc] at hhead
  exact hhead

end Runs

/-! ### Trimming -/

/-- **Trimmed**: what is left of the characters without the white space at both ends. -/
structure IsTrimmed (cs core : List Char) : Prop where
  cut : ∃ before after, cs = before ++ (core ++ after)
    ∧ ∀ c ∈ before ++ after, isWhiteSpace c = true
  starts : ∀ c ∈ core.head?, isWhiteSpace c = false
  ends : ∀ c ∈ core.getLast?, isWhiteSpace c = false

variable {cs core : List Char}

/-- What is trimmed off a text is the white space at its ends. -/
theorem exists_after_trim (cs : List Char) :
    ∃ after, cs = cs.takeWhile isWhiteSpace ++ (trim cs ++ after)
      ∧ ∀ c ∈ after, isWhiteSpace c = true := by
  let rest := cs.dropWhile isWhiteSpace
  have hrest : trim cs ++ (rest.reverse.takeWhile isWhiteSpace).reverse = rest :=
    calc trim cs ++ (rest.reverse.takeWhile isWhiteSpace).reverse
        = (rest.reverse.takeWhile isWhiteSpace ++ rest.reverse.dropWhile isWhiteSpace).reverse :=
          List.reverse_append.symm
      _ = rest := by rw [List.takeWhile_append_dropWhile, List.reverse_reverse]
  exact ⟨_, by rw [hrest, List.takeWhile_append_dropWhile],
    fun c hc => List.mem_takeWhile_imp (List.mem_reverse.mp hc)⟩

theorem isTrimmed_trim (cs : List Char) : IsTrimmed cs (trim cs) := by
  obtain ⟨after, hcut, hafter⟩ := exists_after_trim cs
  have hbehind : cs.dropWhile isWhiteSpace = trim cs ++ after := by
    refine (List.append_right_inj (cs.takeWhile isWhiteSpace)).mp ?_
    rw [← hcut, List.takeWhile_append_dropWhile]
  refine ⟨⟨_, after, hcut, ?_⟩, ?_, ?_⟩
  · exact List.forall_mem_append.mpr ⟨fun _ => List.mem_takeWhile_imp, hafter⟩
  · intro c hc
    refine head?_dropWhile_eq_false isWhiteSpace cs c ?_
    rw [hbehind, List.head?_append, Option.mem_def.mp hc]
    rfl
  · intro c hc
    rw [trim, List.getLast?_reverse] at hc
    exact head?_dropWhile_eq_false isWhiteSpace _ c hc

/-- What lies between the white space at the two ends is left. -/
theorem IsTrimmed.trim_eq (h : IsTrimmed cs core) : trim cs = core := by
  obtain ⟨⟨before, after, rfl, hspace⟩, hstarts, hends⟩ := h
  obtain ⟨hbefore, hafter⟩ := List.forall_mem_append.mp hspace
  cases core with
  | nil =>
    have hnone : ([] : List Char) = trim (before ++ ([] ++ after)) := by
      rw [trim, List.nil_append, List.dropWhile_eq_nil_iff.mpr hspace]
      rfl
    exact hnone.symm
  | cons c core =>
    have hfront : (before ++ (c :: core ++ after)).dropWhile isWhiteSpace = c :: core ++ after :=
      dropWhile_append_eq hbefore hstarts
    have hback : (after.reverse ++ (c :: core).reverse).dropWhile isWhiteSpace
        = (c :: core).reverse := by
      refine dropWhile_append_eq (fun d hd => hafter d (List.mem_reverse.mp hd)) ?_
      rwa [List.head?_reverse]
    rw [trim, hfront, List.reverse_append, hback, List.reverse_reverse]

/-- **Trimming leaves** what lies between the white space at the two ends, and nothing else. -/
theorem trim_eq_iff : trim cs = core ↔ IsTrimmed cs core := by
  constructor
  · rintro rfl
    exact isTrimmed_trim cs
  · exact IsTrimmed.trim_eq

end Tablica.Text
