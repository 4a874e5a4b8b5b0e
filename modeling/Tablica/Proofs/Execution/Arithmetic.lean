import Tablica.Execution.Value

/-!
# Arithmetic is exact

Quotients are found as a machine finds them, rounded towards zero, and corrected afterwards where
that is not the same as rounding down:

    −7 = (−3) · 2 + (−1)    rounded towards zero
    −7 = (−4) · 2 +   1     rounded down

Two numbers and a correction stay in range wherever the uncorrected quotient does.  The only
uncorrected quotient that does not is the one of the least number by −1.  It is too large by one,
and together with it the remainder is refused, which would have been zero.

* `Number.fdiv_eq_of_tdiv`, `Number.fmod_eq_of_tmod` — the corrections are right;
* `Number.truncatedQuotient?_eq_none_iff` — the quotient that is out of range;
* `Number.div?_eq`, `Number.mod?_eq` — what division answers;
* `Value.IsExact` — that an operator gives the true result or overflows;
* `arithmetic_is_exact` — the five operators on numbers;
* `remainder_by_minus_one_overflows` — where a remainder that is a number is refused.
-/

namespace Tablica

namespace Number

/-! ### Rounding down -/

section Rounding

variable {a b : Int}

/-- Rounding down is rounding towards zero, less one where a negative quotient is not whole. -/
theorem fdiv_eq_of_tdiv (hb : b ≠ 0) :
    a.fdiv b = a.tdiv b - if a.tmod b ≠ 0 ∧ ¬ (a < 0 ↔ b < 0) then 1 else 0 := by
  rw [Int.fdiv_eq_tdiv]
  simp only [Int.dvd_iff_tmod_eq_zero]
  rcases Int.lt_or_gt_of_ne hb with hneg | hpos
  · rw [Int.sign_eq_neg_one_of_neg hneg]
    grind
  · rw [Int.sign_eq_one_of_pos hpos]
    grind

/-- A remainder that is not zero has the sign of the dividend. -/
theorem tmod_neg_iff (h : a.tmod b ≠ 0) : a.tmod b < 0 ↔ a < 0 := by
  have hpositive : 0 ≤ a → 0 ≤ a.tmod b := Int.tmod_nonneg b
  have hnegative : 0 ≤ -a → 0 ≤ (-a).tmod b := Int.tmod_nonneg b
  rw [Int.neg_tmod] at hnegative
  omega

/-- Its remainder is the other remainder, moved by the divisor to the divisor's side of zero. -/
theorem fmod_eq_of_tmod :
    a.fmod b = a.tmod b + if a.tmod b ≠ 0 ∧ ¬ (a.tmod b < 0 ↔ b < 0) then b else 0 := by
  have hsign := fun h => tmod_neg_iff (a := a) (b := b) h
  rw [Int.fmod_eq_tmod]
  simp only [Int.dvd_iff_tmod_eq_zero]
  grind

theorem natAbs_tmod_lt (hb : b ≠ 0) : (a.tmod b).natAbs < b.natAbs := by
  rw [Int.natAbs_tmod]
  exact Nat.mod_lt _ (Int.natAbs_pos.mpr hb)

/-- A quotient by anything but one and −1 is at most half of the dividend. -/
theorem two_mul_natAbs_tdiv_le (hb : 2 ≤ b.natAbs) : 2 * (a.tdiv b).natAbs ≤ a.natAbs := by
  rw [Int.natAbs_tdiv]
  calc 2 * (a.natAbs / b.natAbs)
      ≤ b.natAbs * (a.natAbs / b.natAbs) := Nat.mul_le_mul_right _ hb
    _ ≤ a.natAbs := Nat.mul_div_le _ _

end Rounding

/-! ### The steps of a division -/

variable {m n : Number}

theorem natAbs_val_le (m : Number) : m.val.natAbs ≤ 9223372036854775808 := by
  have := m.least_le
  have := m.le_greatest
  omega

/-- **The quotient out of range** is the one of the least number by −1. -/
theorem truncatedQuotient?_eq_none_iff :
    m.truncatedQuotient? n = none ↔ m.val = -9223372036854775808 ∧ n.val = -1 := by
  rw [truncatedQuotient?, ofInt?_eq_none_iff]
  have hm := m.natAbs_val_le
  have hleast := m.least_le
  have hgreatest := m.le_greatest
  by_cases hlarge : 2 ≤ n.val.natAbs
  · have := two_mul_natAbs_tdiv_le (a := m.val) hlarge
    omega
  · have hcases : n.val = 0 ∨ n.val = 1 ∨ n.val = -1 := by omega
    rcases hcases with h | h | h
    · rw [h, Int.tdiv_zero]
      omega
    · rw [h, Int.tdiv_one]
      omega
    · rw [h, Int.tdiv_neg, Int.tdiv_one]
      omega

theorem val_of_truncatedQuotient? {quotient : Number} (h : m.truncatedQuotient? n = some quotient) :
    quotient.val = m.val.tdiv n.val :=
  ofInt?_eq_some_iff.mp h

/-- With the quotient there is a remainder. -/
theorem exists_truncatedRemainder? (hn : n.val ≠ 0) {quotient : Number}
    (h : m.truncatedQuotient? n = some quotient) :
    ∃ remainder, m.truncatedRemainder? n = some remainder ∧ remainder.val = m.val.tmod n.val := by
  have hlt := natAbs_tmod_lt (a := m.val) hn
  have hle := n.natAbs_val_le
  let remainder : Number := ⟨m.val.tmod n.val, by omega, by omega⟩
  have hremainder : ofInt? (m.val.tmod n.val) = some remainder := ofInt?_val remainder
  exact ⟨remainder, by rw [truncatedRemainder?, h, Option.bind_some, hremainder], rfl⟩

theorem differInSign_eq (m n : Number) :
    m.differInSign n = decide (¬ (m.val < 0 ↔ n.val < 0)) := by
  unfold differInSign
  by_cases hm : m.val < 0 <;> by_cases hn : n.val < 0 <;> simp [hm, hn]

/-- **The correction of a quotient** stays in range. -/
theorem exists_div? (hn : n.val ≠ 0) {quotient : Number}
    (h : m.truncatedQuotient? n = some quotient) :
    ∃ k, m.div? n = some k ∧ k.val = m.val.fdiv n.val := by
  obtain ⟨remainder, hremainder, hrest⟩ := exists_truncatedRemainder? hn h
  have hquotient := val_of_truncatedQuotient? h
  have hdiv : m.div? n
      = if m.val.tmod n.val ≠ 0 ∧ ¬ (m.val < 0 ↔ n.val < 0) then quotient.sub? one
        else some quotient := by
    simp only [div?, h, hremainder, hrest, differInSign_eq, Option.bind_eq_bind, Option.bind_some,
      Option.pure_def, Bool.and_eq_true, decide_eq_true_eq, ne_eq]
  rw [hdiv, fdiv_eq_of_tdiv hn, ← hquotient]
  split
  · rename_i hcorrected
    -- something is left, so the divisor is neither one nor −1
    have hlarge : 2 ≤ n.val.natAbs := by
      have := natAbs_tmod_lt (a := m.val) hn
      have := hcorrected.1
      omega
    have hhalf := two_mul_natAbs_tdiv_le (a := m.val) hlarge
    have hle := m.natAbs_val_le
    let corrected : Number := ⟨quotient.val - 1, by omega, by omega⟩
    exact ⟨corrected, ofInt?_val corrected, rfl⟩
  · exact ⟨quotient, rfl, (Int.sub_zero _).symm⟩

/-- **The correction of a remainder** stays in range. -/
theorem exists_mod? (hn : n.val ≠ 0) {quotient : Number}
    (h : m.truncatedQuotient? n = some quotient) :
    ∃ k, m.mod? n = some k ∧ k.val = m.val.fmod n.val := by
  obtain ⟨remainder, hremainder, hrest⟩ := exists_truncatedRemainder? hn h
  have hmod : m.mod? n
      = if m.val.tmod n.val ≠ 0 ∧ ¬ (m.val.tmod n.val < 0 ↔ n.val < 0) then remainder.add? n
        else some remainder := by
    simp only [mod?, hremainder, hrest, differInSign_eq, Option.bind_eq_bind, Option.bind_some,
      Option.pure_def, Bool.and_eq_true, decide_eq_true_eq, ne_eq]
  rw [hmod, fmod_eq_of_tmod, ← hrest]
  split
  · rename_i hcorrected
    -- the two have different signs
    have hleast := n.least_le
    have hgreatest := n.le_greatest
    have hleast' := remainder.least_le
    have hgreatest' := remainder.le_greatest
    let corrected : Number := ⟨remainder.val + n.val, by omega, by omega⟩
    exact ⟨corrected, ofInt?_val corrected, rfl⟩
  · exact ⟨remainder, rfl, (Int.add_zero _).symm⟩

/-- Where the uncorrected quotient is refused, both results are. -/
theorem div?_eq_none (h : m.truncatedQuotient? n = none) :
    m.div? n = none ∧ m.mod? n = none := by
  simp [div?, mod?, truncatedRemainder?, h]

/-- **Division rounds down** and refuses exactly what is out of range. -/
theorem div?_eq (hn : n.val ≠ 0) : m.div? n = ofInt? (m.val.fdiv n.val) := by
  cases h : m.truncatedQuotient? n with
  | some quotient =>
    obtain ⟨k, hk, hval⟩ := exists_div? hn h
    rw [hk, ← hval, ofInt?_val]
  | none =>
    obtain ⟨hm, hone⟩ := truncatedQuotient?_eq_none_iff.mp h
    rw [(div?_eq_none h).1, hm, hone]
    rfl

/-- **The remainder** is that of the division that rounds down, and it is refused for the least
number and −1 only. -/
theorem mod?_eq (hn : n.val ≠ 0) :
    m.mod? n = if m.val = -9223372036854775808 ∧ n.val = -1 then none
      else ofInt? (m.val.fmod n.val) := by
  cases h : m.truncatedQuotient? n with
  | some quotient =>
    obtain ⟨k, hk, hval⟩ := exists_mod? hn h
    have hrange := mt truncatedQuotient?_eq_none_iff.mpr (h ▸ Option.some_ne_none quotient)
    rw [hk, ← hval, ofInt?_val, if_neg hrange]
  | none => rw [(div?_eq_none h).2, if_pos (truncatedQuotient?_eq_none_iff.mp h)]

/-- Of the steps of a division only the first one, the uncorrected quotient, can be refused. -/
theorem isSome_div? (hn : n.val ≠ 0) :
    (m.div? n).isSome = (m.truncatedQuotient? n).isSome
      ∧ (m.mod? n).isSome = (m.truncatedQuotient? n).isSome := by
  cases h : m.truncatedQuotient? n with
  | some quotient =>
    obtain ⟨k, hk, -⟩ := exists_div? hn h
    obtain ⟨k', hk', -⟩ := exists_mod? hn h
    rw [hk, hk']
    exact ⟨rfl, rfl⟩
  | none =>
    rw [(div?_eq_none h).1, (div?_eq_none h).2]
    exact ⟨rfl, rfl⟩

end Number

/-! ### Operators on numbers -/

namespace Value

/-- An operator on two numbers is **exact**: it answers the given result where that is a number, and
overflows where it is none. -/
structure IsExact (operator : Operator) (m n : Number) (result : Int) : Prop where
  answers (value : Value) : apply operator (number m) (number n) = .ok value
    ↔ ∃ k : Number, k.val = result ∧ value = number k
  overflows : apply operator (number m) (number n) = .error (.overflow operator)
    ↔ result < -9223372036854775808 ∨ 9223372036854775807 < result

variable {operator : Operator} {m n : Number} {result : Int}

theorem isExact_of_apply (h : apply operator (number m) (number n)
      = match Number.ofInt? result with
        | some k => .ok (number k)
        | none => .error (.overflow operator)) : IsExact operator m n result := by
  cases hresult : Number.ofInt? result with
  | some k =>
    rw [hresult] at h
    have hk := Number.ofInt?_eq_some_iff.mp hresult
    have hrange := mt Number.ofInt?_eq_none_iff.mpr (hresult ▸ Option.some_ne_none k)
    refine ⟨fun value => ?_, ?_⟩
    · rw [h]
      constructor
      · rintro ⟨⟩
        exact ⟨k, hk, rfl⟩
      · rintro ⟨k', hk', rfl⟩
        rw [Number.ext_val (hk.trans hk'.symm)]
    · rw [h]
      exact ⟨nofun, fun hout => absurd hout hrange⟩
  | none =>
    rw [hresult] at h
    have hrange := Number.ofInt?_eq_none_iff.mp hresult
    refine ⟨fun value => ?_, ?_⟩
    · rw [h]
      refine ⟨nofun, ?_⟩
      rintro ⟨k, hk, rfl⟩
      rw [Number.ofInt?_eq_some_iff.mpr hk] at hresult
      cases hresult
    · rw [h]
      exact ⟨fun _ => hrange, fun _ => rfl⟩

theorem apply_divide (hn : n.val ≠ 0) : apply .divide (number m) (number n)
    = match m.div? n with
      | some k => .ok (number k)
      | none => .error (.overflow .divide) := if_neg hn

theorem apply_modulo (hn : n.val ≠ 0) : apply .modulo (number m) (number n)
    = match m.mod? n with
      | some k => .ok (number k)
      | none => .error (.overflow .modulo) := if_neg hn

/-- Only division by zero is refused as such. -/
theorem apply_eq_divisionByZero_iff :
    apply operator (number m) (number n) = .error .divisionByZero
      ↔ (operator = .divide ∨ operator = .modulo) ∧ n.val = 0 := by
  have hfitting : ∀ (result : Option Number) (operator : Operator),
      (match result with
        | some k => Except.ok (number k)
        | none => .error (RuntimeFault.overflow operator)) ≠ .error .divisionByZero := by
    intro result operator
    cases result <;> nofun
  cases operator with
  | add => exact iff_of_false (hfitting (m.add? n) .add) nofun
  | subtract => exact iff_of_false (hfitting (m.sub? n) .subtract) nofun
  | multiply => exact iff_of_false (hfitting (m.mul? n) .multiply) nofun
  | divide =>
    by_cases hn : n.val = 0
    · simp [hn, apply, applyToNumbers]
    · simpa [apply_divide hn, hn] using hfitting (m.div? n) .divide
  | modulo =>
    by_cases hn : n.val = 0
    · simp [hn, apply, applyToNumbers]
    · simpa [apply_modulo hn, hn] using hfitting (m.mod? n) .modulo
  | _ => simp [apply, applyToNumbers]

end Value

open Value in
/-- **Arithmetic is exact.**  On numbers, dividing by zero and nothing else is refused as such.
Otherwise addition, subtraction, multiplication and division, which rounds down, answer the true
result where it is a number and overflow where it is none; so does the remainder, which has the sign
of the divisor, except for the least number and −1, where it overflows.  No step of a division is out
of range but the uncorrected quotient. -/
theorem arithmetic_is_exact (m n : Number) :
    (∀ operator, apply operator (number m) (number n) = .error .divisionByZero
        ↔ (operator = .divide ∨ operator = .modulo) ∧ n.val = 0)
      ∧ IsExact .add m n (m.val + n.val)
      ∧ IsExact .subtract m n (m.val - n.val)
      ∧ IsExact .multiply m n (m.val * n.val)
      ∧ (n.val ≠ 0 → IsExact .divide m n (m.val.fdiv n.val)
        ∧ (if m.val = -9223372036854775808 ∧ n.val = -1 then
            apply .modulo (number m) (number n) = .error (.overflow .modulo)
          else IsExact .modulo m n (m.val.fmod n.val))
        ∧ (m.div? n).isSome = (m.truncatedQuotient? n).isSome
        ∧ (m.mod? n).isSome = (m.truncatedQuotient? n).isSome) := by
  refine ⟨fun _ => apply_eq_divisionByZero_iff, isExact_of_apply rfl, isExact_of_apply rfl,
    isExact_of_apply rfl, fun hn => ⟨?_, ?_, Number.isSome_div? hn⟩⟩
  · exact isExact_of_apply (by rw [apply_divide hn, Number.div?_eq hn])
  · have hmodulo := apply_modulo (m := m) hn
    rw [Number.mod?_eq hn] at hmodulo
    split
    · rename_i hleast
      rw [hmodulo, if_pos hleast]
    · rename_i hleast
      rw [if_neg hleast] at hmodulo
      exact isExact_of_apply hmodulo

/-- Minus seven divided by two, rounded down, and what is left. -/
theorem arithmetic_is_exact_below_zero :
    let m : Number := ⟨-7, by decide, by decide⟩
    let n : Number := ⟨2, by decide, by decide⟩
    n.val ≠ 0 ∧ Value.apply .divide (.number m) (.number n)
        = .ok (.number ⟨-4, by decide, by decide⟩)
      ∧ Value.apply .modulo (.number m) (.number n)
        = .ok (.number ⟨1, by decide, by decide⟩) := by
  intro m n
  have hn : n.val ≠ 0 := by decide
  obtain ⟨-, -, -, -, hdivision⟩ := arithmetic_is_exact m n
  obtain ⟨hdivide, hmodulo, -⟩ := hdivision hn
  rw [if_neg (by decide)] at hmodulo
  exact ⟨hn, (hdivide.answers _).mpr ⟨_, by decide, rfl⟩,
    (hmodulo.answers _).mpr ⟨_, by decide, rfl⟩⟩

/-- The remainder of the least number by −1 is zero, and refused. -/
theorem remainder_by_minus_one_overflows :
    let m : Number := ⟨-9223372036854775808, by decide, by decide⟩
    let n : Number := ⟨-1, by decide, by decide⟩
    Value.apply .modulo (.number m) (.number n) = .error (.overflow .modulo)
      ∧ m.val.fmod n.val = 0 ∧ ¬ Value.IsExact .modulo m n (m.val.fmod n.val) := by
  intro m n
  have hoverflow : Value.apply .modulo (.number m) (.number n) = .error (.overflow .modulo) := rfl
  have hzero : m.val.fmod n.val = 0 := by decide
  refine ⟨hoverflow, hzero, fun hexact => ?_⟩
  have hout := hexact.overflows.mp hoverflow
  rw [hzero] at hout
  omega

end Tablica
