import Mathlib.Data.Nat.Digits.Defs
import Tablica.Execution.Value
import Tablica.Proofs.Text.Trimming
import Tablica.Proofs.Token.Tiling

/-!
# Numbers are read as they are written

A number is written in decimal digits in three places: where a value is printed, where a line is
typed, and in the text of a program.  The places do not allow the same.  What is printed has no
leading zeros; what is typed may have either sign, and white space around it; digits of a program
have no sign.  And what is too large is a text where it is typed, but a fault in a program.  A digit
is worth the same in all three, however.

    "  +007 "  ──typed──▸  7            "9223372036854775808"  ──typed──▸  a text
      007      ──read───▸  7             9223372036854775808   ──read───▸  too large
       7       ◂─printed─  7

So what is typed is compared with **numerals**, which are said without any reader: an optional sign
and digits, each worth ten times as much as in the place behind it.

* `Number.IsNumeral` — numerals, and the integers that they denote;
* `Number.parse?_eq_some_iff` — numerals are read, and nothing else is;
* `Number.isNumeral_shown` — a number is printed as a numeral;
* `Value.IsTyped` — the lines that are typed for an integer;
* `Cursor.readWith_readNumber` — digits in the text of a program;
* `typed_numbers_are_read_exactly` — the law.
-/

namespace Tablica

open Text Token

namespace Number

/-! ### Numerals -/

/-- At least one decimal digit and nothing else. -/
structure IsDecimal (digits : List Char) : Prop where
  ne_nil : digits ≠ []
  isDigit : ∀ c ∈ digits, c.isDigit = true

/-- What digits are worth: the last one itself, and each other one ten times what it would be worth
in the place behind it. -/
def placeValue (digits : List Char) : Nat :=
  Nat.ofDigits 10 (digits.reverse.map fun c => c.toNat - '0'.toNat)

/-- **Numerals** and the integers that they denote. -/
inductive IsNumeral : List Char → Int → Prop
  | unsigned {digits : List Char} (h : IsDecimal digits) : IsNumeral digits (placeValue digits)
  | positive {digits : List Char} (h : IsDecimal digits) :
      IsNumeral ('+' :: digits) (placeValue digits)
  | negative {digits : List Char} (h : IsDecimal digits) :
      IsNumeral ('-' :: digits) (-(placeValue digits))

variable {cs digits : List Char} {n : Number}

/-- Reading digits from the front gives what they are worth by their places from the end. -/
theorem ofDigitChars_eq_placeValue (digits : List Char) :
    Nat.ofDigitChars 10 digits 0 = placeValue digits := by
  have hplaces := Nat.ofDigits_eq_foldr 10 (digits.map fun c => c.toNat - '0'.toNat).reverse
  rw [List.foldr_reverse, List.foldl_map] at hplaces
  rw [placeValue, List.map_reverse, hplaces, Nat.ofDigitChars_eq_foldl]
  simp only [Nat.cast_id, Nat.add_comm]

theorem isDecimal_iff :
    (digits.isEmpty || !digits.all Char.isDigit) = false ↔ IsDecimal digits := by
  simp only [Bool.or_eq_false_iff, List.isEmpty_eq_false_iff, Bool.not_eq_false',
    List.all_eq_true]
  exact ⟨fun h => ⟨h.1, h.2⟩, fun h => ⟨h.ne_nil, h.isDigit⟩⟩

theorem ofDigits?_eq (h : IsDecimal digits) : ofDigits? digits = ofInt? (placeValue digits) := by
  rw [ofDigits?, isDecimal_iff.mpr h, ofDigitChars_eq_placeValue]
  rfl

theorem ofDigits?_eq_some_iff :
    ofDigits? digits = some n ↔ IsDecimal digits ∧ n.val = placeValue digits := by
  constructor
  · intro h
    have hdecimal : IsDecimal digits := by
      rw [← isDecimal_iff, Bool.eq_false_iff]
      intro hno
      rw [ofDigits?, if_pos hno] at h
      cases h
    rw [ofDigits?_eq hdecimal] at h
    exact ⟨hdecimal, ofInt?_eq_some_iff.mp h⟩
  · rintro ⟨hdecimal, hval⟩
    rw [ofDigits?_eq hdecimal]
    exact ofInt?_eq_some_iff.mpr hval

/-- Digits are read without looking for a sign. -/
theorem parse?_of_isDecimal (h : IsDecimal digits) : parse? digits = ofDigits? digits := by
  unfold parse?
  split
  · exact absurd (h.isDigit '+' List.mem_cons_self) (by decide)
  · exact absurd (h.isDigit '-' List.mem_cons_self) (by decide)
  · rfl

theorem parse?_of_minus (h : IsDecimal digits) :
    parse? ('-' :: digits) = ofInt? (-(placeValue digits)) := by
  rw [parse?, isDecimal_iff.mpr h, ofDigitChars_eq_placeValue]
  rfl

/-- **Numerals are read**, and nothing else is. -/
theorem parse?_eq_some_iff : parse? cs = some n ↔ IsNumeral cs n.val := by
  constructor
  · intro h
    unfold parse? at h
    split at h
    · obtain ⟨hdecimal, hval⟩ := ofDigits?_eq_some_iff.mp h
      exact hval ▸ .positive hdecimal
    · split at h
      · cases h
      · rename_i hdecimal
        rw [ofDigitChars_eq_placeValue, ofInt?_eq_some_iff] at h
        exact h ▸ .negative (isDecimal_iff.mp (Bool.eq_false_iff.mpr hdecimal))
    · obtain ⟨hdecimal, hval⟩ := ofDigits?_eq_some_iff.mp h
      exact hval ▸ .unsigned hdecimal
  · generalize hk : n.val = k
    intro h
    cases h with
    | unsigned hdecimal =>
      rw [parse?_of_isDecimal hdecimal]
      exact ofDigits?_eq_some_iff.mpr ⟨hdecimal, hk⟩
    | positive hdecimal => exact ofDigits?_eq_some_iff.mpr ⟨hdecimal, hk⟩
    | negative hdecimal =>
      rw [parse?_of_minus hdecimal]
      exact ofInt?_eq_some_iff.mpr hk

theorem isDecimal_toDigits (k : Nat) : IsDecimal (Nat.toDigits 10 k) :=
  ⟨Nat.toDigits_ne_nil, fun _ hc => Nat.isDigit_of_mem_toDigits (by decide) (by decide) hc⟩

theorem placeValue_toDigits (k : Nat) : placeValue (Nat.toDigits 10 k) = k := by
  rw [← ofDigitChars_eq_placeValue]
  exact Nat.ofDigitChars_toDigits (by decide) (by decide)

/-- **A number is printed as a numeral** that denotes it. -/
theorem isNumeral_shown (n : Number) : IsNumeral n.shown.toList n.val := by
  cases hval : n.val with
  | ofNat k =>
    rw [toList_shown hval]
    have hnumeral := IsNumeral.unsigned (isDecimal_toDigits k)
    rwa [placeValue_toDigits] at hnumeral
  | negSucc k =>
    rw [toList_shown_of_neg hval]
    have hnumeral := IsNumeral.negative (isDecimal_toDigits (k + 1))
    rwa [placeValue_toDigits] at hnumeral

/-! ### Numerals between white space -/

theorem isWhiteSpace_eq_false_of_isDigit {c : Char} (h : c.isDigit = true) :
    isWhiteSpace c = false := by
  have hrange := Char.isDigit_iff_toNat.mp h
  have hge : 48 ≤ c.toNat := hrange.1
  have hle : c.toNat ≤ 57 := hrange.2
  simp only [isWhiteSpace, Bool.or_eq_false_iff, Bool.and_eq_false_iff, decide_eq_false_iff_not,
    beq_eq_false_iff_ne]
  omega

theorem IsDecimal.isVisible (h : IsDecimal digits) : ∀ c ∈ digits, isWhiteSpace c = false :=
  fun c hc => isWhiteSpace_eq_false_of_isDigit (h.isDigit c hc)

/-- There is no white space in a numeral. -/
theorem IsNumeral.isVisible {k : Int} (h : IsNumeral cs k) : ∀ c ∈ cs, isWhiteSpace c = false := by
  cases h with
  | unsigned h => exact h.isVisible
  | positive h => exact List.forall_mem_cons.mpr ⟨by decide, h.isVisible⟩
  | negative h => exact List.forall_mem_cons.mpr ⟨by decide, h.isVisible⟩

end Number

/-- White space around visible characters is all that is trimmed off. -/
theorem Text.isTrimmed_of_isVisible {before core after : List Char}
    (hspace : ∀ c ∈ before ++ after, isWhiteSpace c = true)
    (hcore : ∀ c ∈ core, isWhiteSpace c = false) : IsTrimmed (before ++ (core ++ after)) core where
  cut := ⟨before, after, rfl, hspace⟩
  starts c hc := hcore c (List.mem_of_head? hc)
  ends c hc := hcore c (List.mem_of_getLast? hc)

namespace Value

/-! ### Typed lines -/

/-- **A line that is typed for an integer**: without the white space at both ends it is a numeral,
and the integer is in range. -/
def IsTyped (line : String) (k : Int) : Prop :=
  ∃ core, IsTrimmed line.toList core ∧ Number.IsNumeral core k
    ∧ -9223372036854775808 ≤ k ∧ k ≤ 9223372036854775807

variable {line : String} {k : Int} {n : Number}

theorem ofInput_eq_number_iff :
    ofInput line = .number n ↔ Number.parse? (trim line.toList) = some n := by
  unfold ofInput
  split
  · rename_i m hm
    rw [hm, Option.some.injEq, number.injEq]
  · rename_i hnone
    rw [hnone]
    exact ⟨nofun, nofun⟩

theorem ofInput_eq_text_iff :
    ofInput line = .text line ↔ Number.parse? (trim line.toList) = none := by
  unfold ofInput
  split
  · rename_i m hm
    rw [hm]
    exact ⟨nofun, nofun⟩
  · rename_i hnone
    exact ⟨fun _ => hnone, fun _ => rfl⟩

/-- A line is typed for the number that it is read as. -/
theorem isTyped_iff :
    IsTyped line k ↔ ∃ n : Number, n.val = k ∧ Number.parse? (trim line.toList) = some n := by
  constructor
  · rintro ⟨core, hcore, hnumeral, hleast, hgreatest⟩
    refine ⟨⟨k, hleast, hgreatest⟩, rfl, ?_⟩
    rw [hcore.trim_eq]
    exact Number.parse?_eq_some_iff.mpr hnumeral
  · rintro ⟨n, rfl, hparse⟩
    exact ⟨_, isTrimmed_trim _, Number.parse?_eq_some_iff.mp hparse, n.least_le, n.le_greatest⟩

/-- Typed digits are a number where digits of a program are. -/
theorem ofInput_digits_iff {digits : List Char} (h : Number.IsDecimal digits) :
    ofInput (String.ofList digits) = .number n ↔ Number.ofDigits? digits = some n := by
  have htrimmed : IsTrimmed ([] ++ (digits ++ [])) digits :=
    isTrimmed_of_isVisible nofun h.isVisible
  rw [List.nil_append, List.append_nil] at htrimmed
  rw [ofInput_eq_number_iff, String.toList_ofList, htrimmed.trim_eq, Number.parse?_of_isDecimal h]

/-- The digits of a printed number may be typed between any white space. -/
theorem ofInput_shown {before after : String}
    (h : ∀ c ∈ before.toList ++ after.toList, isWhiteSpace c = true) :
    ofInput (before ++ (number n).shown ++ after) = .number n := by
  have hnumeral := n.isNumeral_shown
  have hline : (before ++ n.shown ++ after).toList
      = before.toList ++ (n.shown.toList ++ after.toList) := by
    rw [String.toList_append, String.toList_append, List.append_assoc]
  have htrimmed := isTrimmed_of_isVisible h hnumeral.isVisible
  show ofInput (before ++ n.shown ++ after) = .number n
  rw [ofInput_eq_number_iff, hline, htrimmed.trim_eq]
  exact Number.parse?_eq_some_iff.mpr hnumeral

end Value

/-! ### Digits of a program -/

/-- **Digits are read up to the last one.**  They are a number or, where they denote none, too large
for one. -/
theorem Cursor.readWith_readNumber {c : Cursor} {digits tail : List Char}
    (hrest : c.rest = digits ++ tail) (hdigits : ∀ d ∈ digits, d.isDigit = true)
    (htail : ∀ d ∈ tail.head?, d.isDigit = false) :
    c.readWith readNumber
      = (match Number.ofDigits? digits with
          | some n => .ok (.number n)
          | none => .error (c.error (.numberTooLarge (String.ofList digits))),
        c.advance digits.length) := by
  rw [readWith, readNumber, hrest, takeWhile_append_eq hdigits htail,
    dropWhile_append_eq hdigits htail, ← leaving_eq_advance hrest]
  cases Number.ofDigits? digits <;> rfl

open Value in
/-- **Numbers are read as they are written.**  A typed line is a number exactly if it is a numeral
in range, white space at both ends not counted, and then it is the number that the numeral denotes;
any other line is kept as a text, together with its white space.  So a printed number may be typed
again, between any white space.  And a run of digits in the text of a program is a number exactly if
it is that number where it is typed, and otherwise it is reported as too large a number. -/
theorem typed_numbers_are_read_exactly :
    (∀ (line : String) (k : Int),
        (∃ n : Number, n.val = k ∧ ofInput line = .number n) ↔ IsTyped line k)
      ∧ (∀ line : String, ofInput line = .text line ↔ ∀ k, ¬ IsTyped line k)
      ∧ (∀ (n : Number) (before after : String),
          (∀ c ∈ before.toList ++ after.toList, isWhiteSpace c = true) →
            ofInput (before ++ (number n).shown ++ after) = .number n)
      ∧ ∀ (c : Cursor) (digits tail : List Char), c.rest = digits ++ tail →
          Number.IsDecimal digits → (∀ d ∈ tail.head?, d.isDigit = false) →
            (∀ n, (c.readWith readNumber).1 = .ok (.number n)
                ↔ ofInput (String.ofList digits) = .number n)
              ∧ ((c.readWith readNumber).1
                  = .error (c.error (.numberTooLarge (String.ofList digits)))
                ↔ ∀ n, ofInput (String.ofList digits) ≠ .number n)
              ∧ (c.readWith readNumber).2 = c.advance digits.length := by
  refine ⟨fun line k => ?_, fun line => ?_, fun n before after => ofInput_shown,
    fun c digits tail hrest hdecimal htail => ?_⟩
  · simp only [isTyped_iff, ofInput_eq_number_iff]
  · rw [ofInput_eq_text_iff, Option.eq_none_iff_forall_ne_some]
    simp only [isTyped_iff, not_exists, not_and]
    exact ⟨fun h _ n _ => h n, fun h n => h _ n rfl⟩
  · simp only [ne_eq, ofInput_digits_iff hdecimal,
      Cursor.readWith_readNumber hrest hdecimal.isDigit htail]
    cases Number.ofDigits? digits with
    | some m => simp
    | none => simp

/-- The least number between a tab and a no-break space, and the first number that is too large. -/
theorem typed_numbers_are_read_exactly_at_the_limits :
    let least : Number := ⟨-9223372036854775808, by decide, by decide⟩
    let c := (Cursor.ofText "x:=9223372036854775808 # y").advance 3
    let digits := "9223372036854775808".toList
    (∀ c ∈ "\t".toList ++ "\u00a0".toList, isWhiteSpace c = true)
      ∧ Value.ofInput ("\t" ++ "-9223372036854775808" ++ "\u00a0") = .number least
      ∧ c.rest = digits ++ " # y".toList ∧ Number.IsDecimal digits
      ∧ (∀ d ∈ " # y".toList.head?, d.isDigit = false)
      ∧ (c.readWith readNumber).1
          = .error (c.error (.numberTooLarge "9223372036854775808")) := by
  intro least c digits
  obtain ⟨-, -, hprinted, hdigits⟩ := typed_numbers_are_read_exactly
  have hspace : ∀ c ∈ "\t".toList ++ "\u00a0".toList, isWhiteSpace c = true :=
    List.all_eq_true.mp (by decide)
  have hrest : c.rest = digits ++ " # y".toList := by decide +kernel
  have hdecimal : Number.IsDecimal digits := Number.isDecimal_iff.mp (by decide)
  have htail : ∀ d ∈ " # y".toList.head?, d.isDigit = false := by
    rintro _ ⟨⟩
    rfl
  have htext : Value.ofInput (String.ofList digits) = .text "9223372036854775808" := by
    decide +kernel
  refine ⟨hspace, hprinted least _ _ hspace, hrest, hdecimal, htail, ?_⟩
  obtain ⟨-, htooLarge, -⟩ := hdigits c digits _ hrest hdecimal htail
  exact htooLarge.mpr fun n hn => nomatch htext.symm.trans hn

end Tablica
