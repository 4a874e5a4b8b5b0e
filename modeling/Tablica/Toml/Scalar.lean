/-!
# Scalars of a TOML document

Texts come in four notations, with and without escapes, on one line and on several;
the others are recognised as a whole from the characters that they may consist of.

* `readBasic`, `readLiteral`, `readLongBasic`, `readLongLiteral` — the four notations
  of a text, each from behind its opening quotes;
* `integer?`, `isDecimal`, `isMoment` — what a run of characters denotes.
-/

namespace Tablica.Toml

/-- The characters that a text or a comment may hold on one line. -/
def isTextChar (c : Char) : Bool :=
  c == '\t' || (' ' ≤ c && c != '\x7f')

/-! ### Texts -/

/-- The value of hexadecimal digits. -/
def hexadecimal? (digits : List Char) : Option Nat :=
  digits.foldlM (fun n c =>
    if c.isDigit then some (16 * n + (c.toNat - '0'.toNat))
    else if 'a' ≤ c ∧ c ≤ 'f' then some (16 * n + (c.toNat - 'a'.toNat + 10))
    else if 'A' ≤ c ∧ c ≤ 'F' then some (16 * n + (c.toNat - 'A'.toNat + 10))
    else none) 0

/-- The character with the code point that the digits denote. -/
def codePoint? (digits : List Char) : Option Char :=
  (hexadecimal? digits).bind fun n =>
    if h : n.isValidChar then some (Char.ofNatAux n h) else none

/-- The character that a short escape stands for. -/
def shortEscape? (c : Char) : Option Char :=
  match c with
  | 'b' => some '\x08'
  | 't' => some '\t'
  | 'n' => some '\n'
  | 'f' => some '\x0c'
  | 'r' => some '\r'
  | '"' => some '"'
  | '\\' => some '\\'
  | _ => none

/-- Adds a character to the front of what was read. -/
def consTo (c : Option Char) (read : Option (List Char × List Char)) :
    Option (List Char × List Char) :=
  c.bind fun c => read.map fun (text, rest) => (c :: text, rest)

/-- A text in quotes, with escapes. -/
def readBasic : List Char → Option (List Char × List Char)
  | [] => none
  | '"' :: rest => some ([], rest)
  | '\\' :: 'u' :: a :: b :: c :: d :: rest => consTo (codePoint? [a, b, c, d]) (readBasic rest)
  | '\\' :: 'U' :: a :: b :: c :: d :: e :: f :: g :: h :: rest =>
    consTo (codePoint? [a, b, c, d, e, f, g, h]) (readBasic rest)
  | '\\' :: c :: rest => consTo (shortEscape? c) (readBasic rest)
  | c :: rest => if isTextChar c then consTo (some c) (readBasic rest) else none

/-- A text in single quotes, without escapes. -/
def readLiteral : List Char → Option (List Char × List Char)
  | [] => none
  | '\'' :: rest => some ([], rest)
  | c :: rest => if isTextChar c then consTo (some c) (readLiteral rest) else none

/-- Drops the line break that directly follows the opening quotes of a long text. -/
def dropLineBreak : List Char → List Char
  | '\n' :: rest => rest
  | '\r' :: '\n' :: rest => rest
  | cs => cs

/-- What a reader of a long text is about.  Behind a backslash at the end of a line it passes over
blanks, in which at least one line break has to occur. -/
inductive LongMode
  | plain
  | trimming (sawLineBreak : Bool)
deriving DecidableEq, Repr, Inhabited

/-- A text in three quotes, with escapes. -/
def readLongBasic : LongMode → List Char → Option (List Char × List Char)
  | _, [] => none
  | .trimming saw, ' ' :: rest => readLongBasic (.trimming saw) rest
  | .trimming saw, '\t' :: rest => readLongBasic (.trimming saw) rest
  | .trimming _, '\n' :: rest => readLongBasic (.trimming true) rest
  | .trimming _, '\r' :: '\n' :: rest => readLongBasic (.trimming true) rest
  | .trimming false, _ :: _ => none
  | _, '"' :: '"' :: '"' :: '"' :: '"' :: rest => some (['"', '"'], rest)
  | _, '"' :: '"' :: '"' :: '"' :: rest => some (['"'], rest)
  | _, '"' :: '"' :: '"' :: rest => some ([], rest)
  | _, '\\' :: 'u' :: a :: b :: c :: d :: rest =>
    consTo (codePoint? [a, b, c, d]) (readLongBasic .plain rest)
  | _, '\\' :: 'U' :: a :: b :: c :: d :: e :: f :: g :: h :: rest =>
    consTo (codePoint? [a, b, c, d, e, f, g, h]) (readLongBasic .plain rest)
  | _, '\\' :: ' ' :: rest => readLongBasic (.trimming false) rest
  | _, '\\' :: '\t' :: rest => readLongBasic (.trimming false) rest
  | _, '\\' :: '\n' :: rest => readLongBasic (.trimming true) rest
  | _, '\\' :: '\r' :: '\n' :: rest => readLongBasic (.trimming true) rest
  | _, '\\' :: c :: rest => consTo (shortEscape? c) (readLongBasic .plain rest)
  | _, '\n' :: rest => consTo (some '\n') (readLongBasic .plain rest)
  | _, '\r' :: '\n' :: rest => consTo (some '\n') (readLongBasic .plain rest)
  | _, c :: rest => if isTextChar c then consTo (some c) (readLongBasic .plain rest) else none

/-- A text in three single quotes, without escapes. -/
def readLongLiteral : List Char → Option (List Char × List Char)
  | [] => none
  | '\'' :: '\'' :: '\'' :: '\'' :: '\'' :: rest => some (['\'', '\''], rest)
  | '\'' :: '\'' :: '\'' :: '\'' :: rest => some (['\''], rest)
  | '\'' :: '\'' :: '\'' :: rest => some ([], rest)
  | '\n' :: rest => consTo (some '\n') (readLongLiteral rest)
  | '\r' :: '\n' :: rest => consTo (some '\n') (readLongLiteral rest)
  | c :: rest => if isTextChar c then consTo (some c) (readLongLiteral rest) else none

/-! ### Numbers -/

/-- Digits with single underscores between them, without the underscores. -/
def digits? (isDigit : Char → Bool) : List Char → Option (List Char)
  | [] => none
  | [c] => if isDigit c then some [c] else none
  | c :: '_' :: rest => if isDigit c then (digits? isDigit rest).map (c :: ·) else none
  | c :: rest => if isDigit c then (digits? isDigit rest).map (c :: ·) else none

/-- Decimal digits, of which the first is not a zero unless it is the only one. -/
def plainDigits? (cs : List Char) : Option (List Char) :=
  (digits? Char.isDigit cs).bind fun digits =>
    match digits with
    | '0' :: _ :: _ => none
    | digits => some digits

/-- Removes a sign from the front, and answers whether it was a minus sign. -/
def dropSign : List Char → Bool × List Char
  | '-' :: cs => (true, cs)
  | '+' :: cs => (false, cs)
  | cs => (false, cs)

/-- The value of digits to a base that is at most sixteen. -/
def valueOf (base : Nat) (digits : List Char) : Nat :=
  digits.foldl (fun n c => base * n + ((hexadecimal? [c]).getD 0)) 0

/-- An integer that fits sixty-four bits. -/
def fitting? (n : Int) : Option Int :=
  if -9223372036854775808 ≤ n ∧ n ≤ 9223372036854775807 then some n else none

/-- The integer that the characters denote. -/
def integer? : List Char → Option Int
  | '0' :: 'x' :: cs =>
    (digits? (fun c => (hexadecimal? [c]).isSome) cs).bind fun ds => fitting? (valueOf 16 ds)
  | '0' :: 'o' :: cs =>
    (digits? (fun c => '0' ≤ c && c ≤ '7') cs).bind fun ds => fitting? (valueOf 8 ds)
  | '0' :: 'b' :: cs =>
    (digits? (fun c => c == '0' || c == '1') cs).bind fun ds => fitting? (valueOf 2 ds)
  | cs =>
    let (isNegative, cs) := dropSign cs
    (plainDigits? cs).bind fun ds =>
      let n : Int := valueOf 10 ds
      fitting? (if isNegative then -n else n)

/-- Whether `m · 10^e` is so large that it rounds to infinity in double precision. -/
def roundsToInfinity (m : Nat) (e : Int) : Bool :=
  let length : Int := (Nat.toDigits 10 m).length
  let bound := Nat.pow 2 1024 - Nat.pow 2 970
  if m = 0 ∨ length + e < 308 then false
  else if 310 < length + e then true
  else if 0 ≤ e then bound ≤ m * Nat.pow 10 e.toNat
  else bound * Nat.pow 10 (-e).toNat ≤ m

/-- Whether the characters denote a number with a fraction or an exponent, or one of the values
that are no numbers. -/
def isDecimal (cs : List Char) : Bool :=
  let (isNegative, cs) := dropSign cs
  if cs = ['i', 'n', 'f'] || cs = ['n', 'a', 'n'] then true
  else
    let isMark (c : Char) : Bool := c == 'e' || c == 'E'
    let mantissa := cs.takeWhile fun c => !isMark c
    let exponent? := (cs.dropWhile fun c => !isMark c).tail?
    let whole := mantissa.takeWhile (· != '.')
    let fraction? := (mantissa.dropWhile (· != '.')).tail?
    let parts : Option (List Char × List Char × Int) := do
      let whole ← plainDigits? whole
      let fraction ← match fraction? with
        | none => pure []
        | some ds => digits? Char.isDigit ds
      let exponent ← match exponent? with
        | none => pure 0
        | some ds =>
          let (isNegative, ds) := dropSign ds
          let n : Int ← (digits? Char.isDigit ds).map fun ds => (valueOf 10 ds : Int)
          pure (if isNegative then -n else n)
      return (whole, fraction, exponent)
    match parts with
    | none => false
    | some (whole, fraction, exponent) =>
      (fraction?.isSome || exponent?.isSome)
        && (isNegative
          || !roundsToInfinity (valueOf 10 (whole ++ fraction)) (exponent - fraction.length))

/-! ### Dates and times -/

/-- A number of two digits. -/
def twoDigits? : List Char → Option (Nat × List Char)
  | a :: b :: rest =>
    if a.isDigit && b.isDigit then some (valueOf 10 [a, b], rest) else none
  | _ => none

/-- The rest behind a fixed character. -/
def behind? (c : Char) : List Char → Option (List Char)
  | d :: rest => if c = d then some rest else none
  | [] => none

/-- How many days a month has. -/
def daysIn (year month : Nat) : Nat :=
  let isLeap := year % 4 = 0 ∧ (year % 100 ≠ 0 ∨ year % 400 = 0)
  if month = 2 then (if isLeap then 29 else 28)
  else if month = 4 ∨ month = 6 ∨ month = 9 ∨ month = 11 then 30
  else 31

/-- The rest behind a date. -/
def dropDate? (cs : List Char) : Option (List Char) := do
  let (century, cs) ← twoDigits? cs
  let (year, cs) ← twoDigits? cs
  let (month, cs) ← twoDigits? (← behind? '-' cs)
  let (day, cs) ← twoDigits? (← behind? '-' cs)
  guard (1 ≤ month ∧ month ≤ 12 ∧ 1 ≤ day ∧ day ≤ daysIn (100 * century + year) month)
  return cs

/-- The rest behind a time of day. -/
def dropTime? (cs : List Char) : Option (List Char) := do
  let (hour, cs) ← twoDigits? cs
  let (minute, cs) ← twoDigits? (← behind? ':' cs)
  let (second, cs) ← twoDigits? (← behind? ':' cs)
  guard (hour < 24 ∧ minute < 60 ∧ second ≤ 60)
  match cs with
  | '.' :: c :: cs => if c.isDigit then return cs.dropWhile Char.isDigit else none
  | cs => return cs

/-- Whether the characters are the distance from universal time, or nothing. -/
def isOffset : List Char → Bool
  | [] => true
  | ['Z'] | ['z'] => true
  | c :: cs =>
    let rest? : Option (List Char) := do
      let (hour, cs) ← twoDigits? cs
      let (minute, cs) ← twoDigits? (← behind? ':' cs)
      guard ((c = '+' ∨ c = '-') ∧ hour < 24 ∧ minute < 60)
      return cs
    rest? == some []

/-- Whether the characters are a date, a time of day, or both with a `T` or a space between. -/
def isMoment (cs : List Char) : Bool :=
  match dropDate? cs with
  | some [] => true
  | some (c :: rest) =>
    (c == 'T' || c == 't' || c == ' ') && ((dropTime? rest).map isOffset).getD false
  | none => dropTime? cs == some []

end Tablica.Toml
