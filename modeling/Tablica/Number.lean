/-!
# Numbers

The numbers of the language are the integers from −2⁶³ to 2⁶³ − 1.  Arithmetic on
them is exact: an operation either gives the true result or, when that result is
out of range, no number at all.

* `Number` — an integer together with the proof that it is in range;
* `Number.ofInt?` — the number of an integer, if it has one;
* `Number.add?`, `Number.sub?`, `Number.mul?` — exact arithmetic;
* `Number.div?`, `Number.mod?` — division that rounds down, and its remainder, which has the
  sign of the divisor; both are found from the quotient rounded towards zero;
* `Number.ofDigits?`, `Number.parse?` — reading decimal digits, with and without a sign;
* `Number.ofInt?_eq_some_iff` — `ofInt?` refuses nothing that is in range.
-/

namespace Tablica

/-- An integer that fits the range of the language, from −2⁶³ to 2⁶³ − 1. -/
structure Number where
  val : Int
  least_le : -9223372036854775808 ≤ val
  le_greatest : val ≤ 9223372036854775807
deriving DecidableEq, Repr

namespace Number

instance : Inhabited Number := ⟨⟨0, by decide, by decide⟩⟩

/-- The number of an integer, if the integer is in range. -/
def ofInt? (n : Int) : Option Number :=
  if h : -9223372036854775808 ≤ n ∧ n ≤ 9223372036854775807 then some ⟨n, h.1, h.2⟩ else none

def zero : Number := ⟨0, by decide, by decide⟩

def one : Number := ⟨1, by decide, by decide⟩

/-- One for a true sentence and zero for a false one. -/
def ofBool (b : Bool) : Number :=
  if b then one else zero

theorem ext_val {m n : Number} (h : m.val = n.val) : m = n := by
  cases m; cases n; simp_all

/-- Exactly the integers in range are numbers. -/
theorem ofInt?_eq_some_iff {n : Int} {m : Number} : ofInt? n = some m ↔ m.val = n := by
  unfold ofInt?
  split
  · constructor
    · rintro ⟨⟩
      rfl
    · intro h
      exact congrArg some (ext_val h.symm)
  · rename_i h
    constructor
    · simp
    · rintro rfl
      exact absurd ⟨m.least_le, m.le_greatest⟩ h

theorem ofInt?_val (m : Number) : ofInt? m.val = some m :=
  ofInt?_eq_some_iff.2 rfl

/-- No number belongs exactly to an integer out of range. -/
theorem ofInt?_eq_none_iff {n : Int} :
    ofInt? n = none ↔ n < -9223372036854775808 ∨ 9223372036854775807 < n := by
  unfold ofInt?
  split <;> simp <;> omega

/-! ### Arithmetic -/

def add? (m n : Number) : Option Number := ofInt? (m.val + n.val)

def sub? (m n : Number) : Option Number := ofInt? (m.val - n.val)

def mul? (m n : Number) : Option Number := ofInt? (m.val * n.val)

/-- The quotient, rounded towards zero. -/
def truncatedQuotient? (m n : Number) : Option Number := ofInt? (m.val.tdiv n.val)

/-- The remainder of that quotient.  Where the quotient itself is out of range, which is the case
for the least number and −1 only, there is no remainder either. -/
def truncatedRemainder? (m n : Number) : Option Number :=
  (truncatedQuotient? m n).bind fun _ => ofInt? (m.val.tmod n.val)

/-- Whether one of two numbers is negative and the other one is not. -/
def differInSign (m n : Number) : Bool := decide (m.val < 0) != decide (n.val < 0)

/-- The quotient, rounded down.  It is one less than the one rounded towards zero if that one is
negative and leaves a remainder. -/
def div? (m n : Number) : Option Number := do
  let quotient ← truncatedQuotient? m n
  let remainder ← truncatedRemainder? m n
  if remainder.val ≠ 0 && differInSign m n then sub? quotient one else return quotient

/-- The remainder of the quotient rounded down, which has the sign of the divisor. -/
def mod? (m n : Number) : Option Number := do
  let remainder ← truncatedRemainder? m n
  if remainder.val ≠ 0 && differInSign remainder n then add? remainder n else return remainder

/-! ### Decimal digits -/

/-- The number that a run of decimal digits denotes. -/
def ofDigits? (digits : List Char) : Option Number :=
  if digits.isEmpty || !digits.all Char.isDigit then none
  else ofInt? (Nat.ofDigitChars 10 digits 0)

/-- The number that decimal digits denote, with or without a sign in front. -/
def parse? : List Char → Option Number
  | '+' :: digits => ofDigits? digits
  | '-' :: digits =>
    if digits.isEmpty || !digits.all Char.isDigit then none
    else ofInt? (-(Nat.ofDigitChars 10 digits 0 : Int))
  | digits => ofDigits? digits

/-- The number in decimal digits, with a minus sign in front if it is negative. -/
def shown (n : Number) : String :=
  toString n.val

end Number

end Tablica
