import Tablica.Syntax.Fault
import Tablica.Text.Letter

/-!
# Reading one token

A token is read off the front of the characters that are left of a line.  Which
rule applies is decided by the first character alone, with one exception: the
**range symbol**, which stands between the bounds of a `dla` loop and is spelled as
the configuration says.  A symbol that starts with a letter or a numeral is a word
like any other and is recognised only as a whole word.  Any other symbol is a sign:
it is recognised wherever its characters stand, before every other rule, and it
even ends a word.

Each reader answers what it read and the characters that are left.

* `startsRange` — whether the range symbol stands here as a sign;
* `readWord`, `readNumber`, `readText`, `readOperator` — the four readers of more than
  one character;
* `readToken` — the choice between them;
* `readToken_length_lt` — a token that is read makes the rest shorter.
-/

namespace Tablica.Token

open Text

/-- The range symbol of a program that configures none. -/
def defaultRange : List Char := "...".toList

/-- Whether the range symbol is a sign and stands at the front. -/
def startsRange (symbol cs : List Char) : Bool :=
  match symbol with
  | [] => false
  | c :: _ => !isAlphanumeric c && symbol.isPrefixOf cs

/-- The characters that an operator starts with. -/
def isOperatorChar (c : Char) : Bool :=
  ['+', '-', '*', ':', '<', '>', '=', '!'].contains c

/-- The characters that end a word. -/
def endsWord (c : Char) : Bool :=
  isOperatorChar c || [' ', '\t', '(', ')', '[', ']', '{', '}', ','].contains c

/-- The punctuators of a single character. -/
def punctuator? (c : Char) : Option Punctuator :=
  if c = '(' then some .openParenthesis
  else if c = ')' then some .closeParenthesis
  else if c = '[' then some .openBracket
  else if c = ']' then some .closeBracket
  else if c = ',' then some .comma
  else none

/-- The characters of the word at the front, and the rest. -/
def spanWord (symbol : List Char) : List Char → List Char × List Char
  | [] => ([], [])
  | c :: cs =>
    if endsWord c || startsRange symbol (c :: cs) then ([], c :: cs)
    else
      let (word, rest) := spanWord symbol cs
      (c :: word, rest)

/-- What a whole word is: a keyword, an operator, a truth value, the range symbol or, if it is
nothing else, a name. -/
def classify (symbol : List Char) (word : String) : TokenKind :=
  match Keyword.ofWord? word with
  | some keyword => .keyword keyword
  | none =>
    match Operator.ofWord? word with
    | some operator => .operator operator
    | none =>
      if word = TokenKind.spellBoolean true then .boolean true
      else if word = TokenKind.spellBoolean false then .boolean false
      else if word = String.ofList symbol then .range word
      else .identifier word

/-- Reads a word. -/
def readWord (symbol cs : List Char) : TokenKind × List Char :=
  let (word, rest) := spanWord symbol cs
  (classify symbol (String.ofList word), rest)

/-- Reads decimal digits. -/
def readNumber (cs : List Char) : Except SyntaxFault TokenKind × List Char :=
  let digits := cs.takeWhile Char.isDigit
  let rest := cs.dropWhile Char.isDigit
  match Number.ofDigits? digits with
  | some n => (.ok (.number n), rest)
  | none => (.error (.numberTooLarge (String.ofList digits)), rest)

/-- Reads a text up to the next occurrence of the character that it starts with. -/
def readText : List Char → Except SyntaxFault TokenKind × List Char
  | [] => (.error .endOfFile, [])
  | quote :: cs =>
    match cs.dropWhile (· != quote) with
    | [] => (.error (.unterminatedText quote), [])
    | _ :: rest => (.ok (.text (String.ofList (cs.takeWhile (· != quote)))), rest)

/-- Reads an operator or the sign of an assignment, the longer spelling first. -/
def readOperator : List Char → Except SyntaxFault TokenKind × List Char
  | [] => (.error .endOfFile, [])
  | ':' :: '=' :: rest => (.ok (.punctuator .assignment), rest)
  | '<' :: '-' :: rest => (.ok (.punctuator .assignment), rest)
  | '!' :: '=' :: rest => (.ok (.operator .notEqual), rest)
  | '<' :: '=' :: rest => (.ok (.operator .lessOrEqual), rest)
  | '>' :: '=' :: rest => (.ok (.operator .greaterOrEqual), rest)
  | '+' :: rest => (.ok (.operator .add), rest)
  | '-' :: rest => (.ok (.operator .subtract), rest)
  | '*' :: rest => (.ok (.operator .multiply), rest)
  | '=' :: rest => (.ok (.operator .equal), rest)
  | '<' :: rest => (.ok (.operator .less), rest)
  | '>' :: rest => (.ok (.operator .greater), rest)
  | c :: rest => (.error (.invalidCharacter c), rest)

/-- Reads the token at the front.  The number sign starts a comment, which is the end of the
line; a character that no token starts with stays where it is. -/
def readToken (symbol : List Char) : List Char → Except SyntaxFault TokenKind × List Char
  | [] => (.ok .endOfLine, [])
  | c :: cs =>
    if startsRange symbol (c :: cs) then
      (.ok (.range (String.ofList symbol)), (c :: cs).drop symbol.length)
    else if c = '#' then (.ok .endOfLine, [])
    else
      match punctuator? c with
      | some p => (.ok (.punctuator p), cs)
      | none =>
        if c = '"' || c = '\'' then readText (c :: cs)
        else if c.isDigit then readNumber (c :: cs)
        else if isOperatorChar c then readOperator (c :: cs)
        else if isLetter c || c = '_' then
          let (kind, rest) := readWord symbol (c :: cs)
          (.ok kind, rest)
        else (.error (.invalidCharacter c), c :: cs)

/-! ### What is left is shorter -/

theorem length_dropWhile_le (p : Char → Bool) (cs : List Char) :
    (cs.dropWhile p).length ≤ cs.length := by
  induction cs with
  | nil => simp
  | cons c cs ih =>
    simp only [List.dropWhile_cons]
    split
    · exact Nat.le_succ_of_le ih
    · exact Nat.le_refl _

/-- Nothing of a word is lost. -/
theorem spanWord_append (symbol cs : List Char) :
    (spanWord symbol cs).1 ++ (spanWord symbol cs).2 = cs := by
  induction cs with
  | nil => rfl
  | cons c cs ih =>
    simp only [spanWord]
    split
    · rfl
    · simpa using ih

/-- A character that may start a word does not end one. -/
theorem endsWord_eq_false {c : Char} (h : isOperatorChar c = false)
    (hw : isLetter c || c = '_') : endsWord c = false := by
  have hends : [' ', '\t', '(', ')', '[', ']', '{', '}', ','].all
      fun d => !(isLetter d || d = '_') := by decide
  rw [endsWord, h, Bool.false_or]
  apply Bool.eq_false_iff.2
  intro hc
  have hno := List.all_eq_true.1 hends c (by simpa using hc)
  rw [hw] at hno
  exact Bool.false_ne_true hno

theorem readText_length_lt (quote : Char) (cs : List Char) :
    (readText (quote :: cs)).2.length < (quote :: cs).length := by
  have hle := length_dropWhile_le (· != quote) cs
  simp only [readText]
  split
  · simp
  · rename_i heq
    rw [heq] at hle
    simp only [List.length_cons] at hle ⊢
    omega

theorem readNumber_length_lt {c : Char} (hc : c.isDigit) (cs : List Char) :
    (readNumber (c :: cs)).2.length < (c :: cs).length := by
  have hrest : (readNumber (c :: cs)).2 = cs.dropWhile Char.isDigit := by
    simp only [readNumber]
    split <;> simp [hc]
  rw [hrest]
  exact Nat.lt_succ_of_le (length_dropWhile_le _ _)

theorem readOperator_length_lt (c : Char) (cs : List Char) :
    (readOperator (c :: cs)).2.length < (c :: cs).length := by
  unfold readOperator
  split
  case h_1 => contradiction
  all_goals
    rename_i heq
    rw [heq]
    simp only [List.length_cons]
    omega

theorem readWord_length_lt {symbol : List Char} {c : Char} {cs : List Char}
    (he : endsWord c = false) (hr : startsRange symbol (c :: cs) = false) :
    (readWord symbol (c :: cs)).2.length < (c :: cs).length := by
  have happ := congrArg List.length (spanWord_append symbol cs)
  simp only [List.length_append] at happ
  simp only [readWord, spanWord, he, hr, Bool.or_self, Bool.false_eq_true, if_false,
    List.length_cons]
  omega

/-- **A token that is read makes the rest shorter**, and so does a faulty one, unless the fault
is a character that no token starts with. -/
theorem readToken_length_lt (symbol : List Char) (c : Char) (cs : List Char) :
    (readToken symbol (c :: cs)).2.length < (c :: cs).length
      ∨ readToken symbol (c :: cs) = (.error (.invalidCharacter c), c :: cs) := by
  simp only [readToken]
  split
  · rename_i h
    left
    have hpos : 0 < symbol.length := by
      cases symbol with
      | nil => simp [startsRange] at h
      | cons _ _ => simp
    simp only [List.length_drop, List.length_cons]
    omega
  · rename_i hr
    split
    · simp
    · split
      · simp
      · split
        · exact .inl (readText_length_lt c cs)
        · split
          · rename_i hd
            exact .inl (readNumber_length_lt hd cs)
          · split
            · exact .inl (readOperator_length_lt c cs)
            · rename_i ho
              split
              · rename_i hw
                left
                exact readWord_length_lt
                  (endsWord_eq_false (by simpa using ho) (by simpa using hw))
                  (by simpa using hr)
              · exact .inr rfl

end Tablica.Token
