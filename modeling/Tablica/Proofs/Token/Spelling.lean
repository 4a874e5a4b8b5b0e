import Mathlib.Data.Bool.AllAny
import Mathlib.Data.List.Infix
import Tablica.Proofs.Text.Trimming
import Tablica.Token.Lexeme

/-!
# Tokens are read as they are spelled

Each kind of token that stands in an expression is read back off the front of a text that goes on in
a way that ends the token: after a word with a character that ends words, after a number with
anything but a digit, and after an operator with a space.  The range symbol is the default one,
which is a sign and so must not stand in a word.

* `IsWord`, `IsName` — words, and those that are names;
* `Operator.symbol`, `TokenKind.spellBoolean`, `Number.shown`, `quoted` — the other spellings;
* `readToken_name`, `readToken_boolean`, `readToken_digits`, `readToken_number`, `readToken_text`,
  `readToken_quoted`, `readToken_operator`, `readToken_punctuator` — what is read;
* `lexemesFrom_space`, `lexemesFrom_token` — the same for the lexemes of a line.
-/

namespace Tablica.Token

open Text

/-- A word: it starts with a letter or an underscore, and nothing in it ends it. -/
structure IsWord (word : List Char) : Prop where
  starts : ∃ c ∈ word.head?, isLetter c || c = '_'
  inside : ∀ c ∈ word, endsWord c = false
  noRange : ¬ defaultRange <:+: word

instance : DecidablePred IsWord := fun word =>
  decidable_of_iff
    ((word.head?.any fun c => isLetter c || c = '_') ∧ (word.all fun c => !endsWord c)
      ∧ ¬ defaultRange <:+: word) <| by
    simp only [Option.any_eq_true, List.all_eq_true, Bool.not_eq_true']
    exact ⟨fun ⟨starts, inside, noRange⟩ => ⟨starts, inside, noRange⟩,
      fun h => ⟨h.starts, h.inside, h.noRange⟩⟩

/-- A word that is read as a name: it stays on its line, and it is not reserved. -/
structure IsName (name : String) : Prop where
  isWord : IsWord name.toList
  noBreak : ∀ c ∈ name.toList, c ≠ '\n' ∧ c ≠ '\r'
  noKeyword : Keyword.ofWord? name = none
  noOperator : Operator.ofWord? name = none
  noBoolean : ∀ b, name ≠ TokenKind.spellBoolean b

instance : DecidablePred IsName := fun name =>
  decidable_of_iff
    (IsWord name.toList ∧ (name.toList.all fun c => c ≠ '\n' ∧ c ≠ '\r')
      ∧ Keyword.ofWord? name = none ∧ Operator.ofWord? name = none
      ∧ ∀ b, name ≠ TokenKind.spellBoolean b) <| by
    rw [List.all_iff_forall_prop]
    exact ⟨fun ⟨isWord, noBreak, noKeyword, noOperator, noBoolean⟩ =>
        ⟨isWord, noBreak, noKeyword, noOperator, noBoolean⟩,
      fun h => ⟨h.isWord, h.noBreak, h.noKeyword, h.noOperator, h.noBoolean⟩⟩

/-! ### Words -/

variable {word tail : List Char}

/-- The range symbol does not begin within a word that is free of it. -/
theorem startsRange_append (hword : ¬ defaultRange <:+: word) (htail : ∀ c ∈ tail.head?, c ≠ '.') :
    startsRange defaultRange (word ++ tail) = false := by
  have hno : ¬ defaultRange <+: word ++ tail := by
    rintro ⟨rest, happend⟩
    rcases List.append_eq_append_iff.mp happend with ⟨more, rfl, -⟩ | ⟨more, hrange, rfl⟩
    · exact hword (List.prefix_append _ _).isInfix
    · cases more with
      | nil =>
        rw [List.append_nil] at hrange
        exact hword (hrange ▸ List.infix_refl _)
      | cons c more =>
        have hdot : ∀ c ∈ defaultRange, c = '.' := List.all_iff_forall_prop.mp (by decide)
        refine htail c rfl (hdot c ?_)
        rw [hrange]
        exact List.mem_append_right _ List.mem_cons_self
  have hfront : defaultRange.isPrefixOf (word ++ tail) = false := by
    rw [Bool.eq_false_iff]
    exact mt List.isPrefixOf_iff_prefix.mp hno
  show (!isAlphanumeric '.' && defaultRange.isPrefixOf (word ++ tail)) = false
  rw [hfront, Bool.and_false]

/-- A space ends a word. -/
theorem endsWord_of_eq_space (htail : ∀ c ∈ tail.head?, c = ' ') :
    ∀ c ∈ tail.head?, endsWord c := by
  intro c hc
  obtain rfl := htail c hc
  decide

theorem ne_dot_of_endsWord (htail : ∀ c ∈ tail.head?, endsWord c) :
    ∀ c ∈ tail.head?, c ≠ '.' := by
  intro c hc heq
  subst heq
  exact absurd (htail '.' hc) (by decide)

/-- A word is read up to its end, where no range symbol begins within it. -/
theorem spanWord_append_of_forall {symbol : List Char} (hword : ∀ c ∈ word, endsWord c = false)
    (hrange : ∀ part, part <:+ word → startsRange symbol (part ++ tail) = false)
    (htail : ∀ c ∈ tail.head?, endsWord c) : spanWord symbol (word ++ tail) = (word, tail) := by
  induction word with
  | nil =>
    cases tail with
    | nil => rfl
    | cons c tail => simp [spanWord, htail c rfl]
  | cons c word ih =>
    obtain ⟨hc, hword⟩ := List.forall_mem_cons.mp hword
    have hstarts := hrange (c :: word) (List.suffix_refl _)
    have hrest := ih hword fun part hpart => hrange part (hpart.trans (List.suffix_cons c word))
    rw [List.cons_append] at hstarts ⊢
    simp only [spanWord, hc, hstarts, hrest, Bool.or_self, Bool.false_eq_true, if_false]

theorem endsWord_eq_false_of_mem_spanWord {symbol cs : List Char} {c : Char}
    (h : c ∈ (spanWord symbol cs).1) : endsWord c = false := by
  induction cs with
  | nil => cases h
  | cons d cs ih =>
    simp only [spanWord] at h
    split at h
    · cases h
    · rename_i hgoes
      rcases List.mem_cons.mp h with rfl | hmem
      · exact Bool.eq_false_iff.mpr fun hends => hgoes (by rw [hends, Bool.true_or])
      · exact ih hmem

theorem eq_of_classify_eq_identifier {symbol : List Char} {word name : String}
    (h : classify symbol word = .identifier name) : word = name := by
  unfold classify at h
  grind

/-- A letter or underscore is no decimal digit. -/
theorem isDigit_eq_false {c : Char} (hc : isLetter c || c = '_') : c.isDigit = false := by
  rw [Bool.eq_false_iff]
  intro hdigit
  simp only [Char.isDigit, Bool.and_eq_true, decide_eq_true_eq, UInt32.le_iff_toNat_le] at hdigit
  obtain ⟨hge, hle⟩ := hdigit
  have hge : 48 ≤ c.toNat := hge
  have hle : c.toNat ≤ 57 := hle
  have hlt : c.toNat < 128 := by omega
  rcases Bool.or_eq_true_iff.mp hc with hletter | hunderscore
  · rw [isLetter, if_pos hlt] at hletter
    have hletter : 65 ≤ c.toNat := by
      rcases Bool.or_eq_true_iff.mp hletter with hupper | hlower
      · have hupper : decide (c.val ≥ 65 ∧ c.val ≤ 90) = true := hupper
        exact UInt32.le_iff_toNat_le.mp (of_decide_eq_true hupper).1
      · have hlower : (decide (c.val ≥ 97) && decide (c.val ≤ 122)) = true := hlower
        have hge : 97 ≤ c.toNat :=
          UInt32.le_iff_toNat_le.mp (of_decide_eq_true (Bool.and_eq_true_iff.mp hlower).1)
        omega
    omega
  · obtain rfl := of_decide_eq_true hunderscore
    exact absurd hle (by decide)

/-- No sign starts with a character that is no dot. -/
theorem startsRange_cons {c : Char} (h : c ≠ '.') (cs : List Char) :
    startsRange defaultRange (c :: cs) = false := by
  have hne : ('.' == c) = false := beq_eq_false_iff_ne.mpr h.symm
  show (!isAlphanumeric '.' && ('.' == c && ['.', '.'].isPrefixOf cs)) = false
  rw [hne, Bool.false_and, Bool.and_false]

/-- A range symbol that is a sign starts with no digit. -/
theorem isDigit_eq_false_of_startsRange {symbol tail : List Char} {c : Char}
    (h : startsRange symbol (c :: tail)) : c.isDigit = false := by
  cases symbol with
  | nil => cases h
  | cons d symbol =>
    have hboth : (!isAlphanumeric d && (d :: symbol).isPrefixOf (c :: tail)) = true := h
    obtain ⟨hsign, hprefix⟩ := Bool.and_eq_true_iff.mp hboth
    obtain rfl : d = c := (List.cons_prefix_cons.mp (List.isPrefixOf_iff_prefix.mp hprefix)).1
    rw [Bool.eq_false_iff]
    intro hdigit
    rw [isAlphanumeric, isNumeral_of_isDigit hdigit, Bool.or_true] at hsign
    cases hsign

/-- A character that is neither a mark nor a quotation mark leaves the rules of several characters,
but for that of texts, where the range symbol is not found. -/
theorem readToken_of_forall_ne {symbol cs : List Char} {c : Char}
    (hrange : startsRange symbol (c :: cs) = false)
    (hno : ∀ d ∈ ['#', '(', ')', '[', ']', ',', '"', '\''], c ≠ d) :
    readToken symbol (c :: cs)
      = if c.isDigit then readNumber (c :: cs)
        else if isOperatorChar c then readOperator (c :: cs)
        else if isLetter c || c = '_' then
          (.ok (readWord symbol (c :: cs)).1, (readWord symbol (c :: cs)).2)
        else (.error (.invalidCharacter c), c :: cs) := by
  have hpunctuator : punctuator? c = none := by
    simp only [punctuator?, hno '(' (by decide), hno ')' (by decide), hno '[' (by decide),
      hno ']' (by decide), hno ',' (by decide), if_false]
  simp only [readToken, hrange, Bool.false_eq_true, if_false, hno '#' (by decide), hpunctuator,
    hno '"' (by decide), hno '\'' (by decide), Bool.or_self, decide_false]

/-- What starts with a letter is read by the rule for words. -/
theorem readToken_of_letter {symbol cs : List Char} {c : Char}
    (hrange : startsRange symbol (c :: cs) = false) (hc : isLetter c || c = '_')
    (hends : endsWord c = false) :
    readToken symbol (c :: cs)
      = (.ok (readWord symbol (c :: cs)).1, (readWord symbol (c :: cs)).2) := by
  have hno : ∀ d ∈ ['#', '(', ')', '[', ']', ',', '"', '\''], c ≠ d := by
    intro d hd heq
    have hall : ∀ d ∈ ['#', '(', ')', '[', ']', ',', '"', '\''],
        (isLetter d || d = '_') = false := List.all_iff_forall_prop.mp (by decide)
    rw [heq, hall d hd] at hc
    cases hc
  have hoperator : isOperatorChar c = false := (Bool.or_eq_false_iff.mp hends).1
  simp only [readToken_of_forall_ne hrange hno, isDigit_eq_false hc, hoperator, hc, Bool.false_eq_true,
    if_false, if_true]

/-- What starts as a word is read up to the end of the word. -/
theorem readToken_of_spanWord {symbol cs : List Char}
    (hstart : ∃ c ∈ word.head?, isLetter c || c = '_')
    (hspan : spanWord symbol cs = (word, tail)) :
    readToken symbol cs = (.ok (classify symbol (String.ofList word)), tail) := by
  obtain ⟨c, hhead, hc⟩ := hstart
  have hsplit : word ++ tail = cs := by
    have happend := spanWord_append symbol cs
    rwa [hspan] at happend
  cases word with
  | nil => cases hhead
  | cons d word =>
    obtain rfl : d = c := Option.some.inj hhead
    have hends : endsWord d = false :=
      endsWord_eq_false_of_mem_spanWord (by rw [hspan]; exact List.mem_cons_self)
    subst hsplit
    rw [List.cons_append] at hspan ⊢
    have hrange : startsRange symbol (d :: (word ++ tail)) = false := by
      rw [Bool.eq_false_iff]
      intro hstarts
      simp only [spanWord, hstarts, Bool.or_true, if_true, Prod.mk.injEq, List.nil_eq,
        reduceCtorEq, false_and] at hspan
    rw [readToken_of_letter hrange hc hends, readWord, hspan]

/-- **A word is read as a whole**, and it is what its class says. -/
theorem readToken_word (h : IsWord word) (htail : ∀ c ∈ tail.head?, endsWord c) :
    readToken defaultRange (word ++ tail)
      = (.ok (classify defaultRange (String.ofList word)), tail) :=
  have hrange : ∀ part, part <:+ word → startsRange defaultRange (part ++ tail) = false :=
    fun _ hpart => startsRange_append (mt (fun hpart' => hpart'.trans hpart.isInfix) h.noRange)
      (ne_dot_of_endsWord htail)
  readToken_of_spanWord h.starts (spanWord_append_of_forall h.inside hrange htail)

theorem readToken_name {name : String} (h : IsName name) (htail : ∀ c ∈ tail.head?, endsWord c) :
    readToken defaultRange (name.toList ++ tail) = (.ok (.identifier name), tail) := by
  have hrange : name ≠ String.ofList defaultRange := by
    rintro rfl
    exact absurd h.isWord (by decide)
  have hclass : classify defaultRange name = .identifier name := by
    simp only [classify, h.noKeyword, h.noOperator, h.noBoolean, hrange, if_false]
  rw [readToken_word h.isWord htail, String.ofList_toList, hclass]

theorem readToken_boolean (b : Bool) (htail : ∀ c ∈ tail.head?, endsWord c) :
    readToken defaultRange ((TokenKind.spellBoolean b).toList ++ tail)
      = (.ok (.boolean b), tail) := by
  have hspelled : ∀ b, IsWord (TokenKind.spellBoolean b).toList
      ∧ classify defaultRange (TokenKind.spellBoolean b) = .boolean b := by decide +kernel
  obtain ⟨hword, hclass⟩ := hspelled b
  rw [readToken_word hword htail, String.ofList_toList, hclass]

/-! ### Numbers, texts and signs -/

theorem toList_shown {n : Number} {k : Nat} (h : n.val = k) :
    n.shown.toList = Nat.toDigits 10 k := by
  rw [Number.shown, h]
  exact String.toList_ofList

/-- A negative number has its minus sign in front of the digits. -/
theorem toList_shown_of_neg {n : Number} {k : Nat} (h : n.val = Int.negSucc k) :
    n.shown.toList = '-' :: Nat.toDigits 10 (k + 1) := by
  have hshown : n.shown = "-" ++ (k + 1).repr := by
    rw [Number.shown, h]
    rfl
  rw [hshown, String.toList_append]
  exact congrArg ('-' :: ·) String.toList_ofList

/-- The decimal digits of a number denote it. -/
theorem ofDigits?_toDigits {n : Number} {k : Nat} (h : n.val = k) :
    Number.ofDigits? (Nat.toDigits 10 k) = some n := by
  have hne : (Nat.toDigits 10 k).isEmpty = false := by simp
  have hall : (Nat.toDigits 10 k).all Char.isDigit = true :=
    List.all_eq_true.mpr fun c hc => Nat.isDigit_of_mem_toDigits (by decide) (by decide) hc
  simp only [Number.ofDigits?, hne, hall, Bool.not_true, Bool.or_self, Bool.false_eq_true, if_false]
  rw [Nat.ofDigitChars_toDigits (by decide) (by decide)]
  exact Number.ofInt?_eq_some_iff.mpr h

/-- **Digits are read up to the last one.** -/
theorem readToken_digits {symbol digits : List Char} {n : Number} (hne : digits ≠ [])
    (hdigits : ∀ c ∈ digits, c.isDigit = true) (hn : Number.ofDigits? digits = some n)
    (htail : ∀ c ∈ tail.head?, c.isDigit = false) :
    readToken symbol (digits ++ tail) = (.ok (.number n), tail) := by
  have hread : readNumber (digits ++ tail) = (.ok (.number n), tail) := by
    simp only [readNumber, takeWhile_append_eq hdigits htail, dropWhile_append_eq hdigits htail, hn]
  cases digits with
  | nil => exact absurd rfl hne
  | cons c cs =>
    have hdigit := hdigits c List.mem_cons_self
    have hno : ∀ d ∈ ['#', '(', ')', '[', ']', ',', '"', '\''], c ≠ d := by
      intro d hd heq
      have hall : ∀ d ∈ ['#', '(', ')', '[', ']', ',', '"', '\''], d.isDigit = false :=
        List.all_iff_forall_prop.mp (by decide)
      rw [heq, hall d hd] at hdigit
      cases hdigit
    have hrange : startsRange symbol (c :: (cs ++ tail)) = false := by
      rw [Bool.eq_false_iff]
      intro hstarts
      rw [isDigit_eq_false_of_startsRange hstarts] at hdigit
      cases hdigit
    rw [List.cons_append] at hread ⊢
    rw [readToken_of_forall_ne hrange hno, if_pos hdigit]
    exact hread

/-- **A number is read up to its last digit.** -/
theorem readToken_number {n : Number} (hn : 0 ≤ n.val)
    (htail : ∀ c ∈ tail.head?, c.isDigit = false) :
    readToken defaultRange (n.shown.toList ++ tail) = (.ok (.number n), tail) := by
  obtain ⟨k, hk⟩ := Int.eq_ofNat_of_zero_le hn
  rw [toList_shown hk]
  have hdigits : ∀ c ∈ Nat.toDigits 10 k, c.isDigit = true :=
    fun c hc => Nat.isDigit_of_mem_toDigits (by decide) (by decide) hc
  exact readToken_digits Nat.toDigits_ne_nil hdigits (ofDigits?_toDigits hk) htail

/-- A text between two quotation marks; the single ones where it holds a double one. -/
def quoted (text : List Char) : List Char :=
  let quote := if text.contains '"' then '\'' else '"'
  quote :: (text ++ [quote])

theorem readText_append {quote : Char} (h : quote ∉ word) :
    readText (quote :: (word ++ quote :: tail)) = (.ok (.text (String.ofList word)), tail) := by
  have hword : ∀ c ∈ word, (c != quote) = true := fun c hc =>
    bne_iff_ne.mpr fun heq => h (heq ▸ hc)
  have htail : ∀ c ∈ (quote :: tail).head?, (c != quote) = false := by
    intro c hc
    rw [← Option.some.inj hc]
    exact bne_self_eq_false quote
  simp only [readText, dropWhile_append_eq hword htail, takeWhile_append_eq hword htail]

/-- **A text is read up to the second quotation mark.** -/
theorem readToken_text {quote : Char} {text : String} (hquote : quote = '"' ∨ quote = '\'')
    (hnot : quote ∉ text.toList) :
    readToken defaultRange (quote :: (text.toList ++ quote :: tail))
      = (.ok (.text text), tail) := by
  have htext : readText (quote :: (text.toList ++ quote :: tail)) = (.ok (.text text), tail) := by
    rw [readText_append hnot, String.ofList_toList]
  rcases hquote with rfl | rfl <;> exact htext

theorem readToken_quoted {text : String} (h : '"' ∉ text.toList ∨ '\'' ∉ text.toList) :
    readToken defaultRange (quoted text.toList ++ tail) = (.ok (.text text), tail) := by
  rw [quoted, List.cons_append, List.append_assoc, List.singleton_append]
  by_cases hdouble : '"' ∈ text.toList
  · rw [if_pos (List.contains_iff_mem.mpr hdouble)]
    exact readToken_text (.inr rfl) (h.resolve_left fun hnot => hnot hdouble)
  · rw [if_neg (mt List.contains_iff_mem.mp hdouble)]
    exact readToken_text (.inl rfl) hdouble

theorem readToken_punctuator {c : Char} {p : Punctuator} (h : punctuator? c = some p) :
    readToken defaultRange (c :: tail) = (.ok (.punctuator p), tail) := by
  have hne : c ≠ '.' ∧ c ≠ '#' := by
    constructor
    · rintro rfl
      cases h
    · rintro rfl
      cases h
  simp only [readToken, startsRange_cons hne.1, Bool.false_eq_true, if_false, hne.2, h]

/-- An operator is read up to its end, where a space or nothing follows. -/
theorem readToken_operator (o : Operator) (htail : ∀ c ∈ tail.head?, c = ' ') :
    readToken defaultRange (o.symbol.toList ++ tail) = (.ok (.operator o), tail) := by
  have hword : ∀ o ∈ [Operator.divide, .modulo],
      readToken defaultRange (o.symbol.toList ++ tail) = (.ok (.operator o), tail) := by
    intro o ho
    have hspelled : ∀ o ∈ [Operator.divide, .modulo],
        IsWord o.symbol.toList ∧ classify defaultRange o.symbol = .operator o := by decide +kernel
    obtain ⟨hspelled, hclass⟩ := hspelled o ho
    rw [readToken_word hspelled (endsWord_of_eq_space htail), String.ofList_toList, hclass]
  cases o with
  | divide => exact hword .divide (by decide)
  | modulo => exact hword .modulo (by decide)
  | _ =>
    cases tail with
    | nil => rfl
    | cons c tail =>
      obtain rfl := htail c rfl
      rfl

/-! ### Lexemes -/

section Lexemes

variable {symbol cs : List Char} {number column : Nat} {isLast : Bool}

theorem lexemesFrom_of_dropWhile_nil (h : cs.dropWhile isBlank = []) :
    lexemesFrom symbol number isLast column cs
      = ⟨[], if isLast then .input ⟨number, column + cs.length⟩
          else .line ⟨number, column + cs.length⟩⟩ := by
  rw [lexemesFrom]
  split
  case h_1 => rfl
  case h_2 h' => cases h.symm.trans h'

theorem lexemesFrom_of_dropWhile_cons {c : Char} {rest : List Char}
    (h : cs.dropWhile isBlank = c :: rest) :
    lexemesFrom symbol number isLast column cs
      = if (readToken symbol (c :: rest)).2.length < (c :: rest).length then
          let position := ⟨number, column + (cs.length - (rest.length + 1))⟩
          let after := (readToken symbol (c :: rest)).2
          let tail := lexemesFrom symbol number isLast (column + (cs.length - after.length)) after
          match (readToken symbol (c :: rest)).1 with
          | .ok kind => ⟨.token ⟨kind, position⟩ after.head? :: tail.items, tail.ending⟩
          | .error kind => ⟨.fault ⟨kind, position⟩ :: tail.items, tail.ending⟩
        else
          ⟨[], .stuck ⟨.invalidCharacter c, number, column + (cs.length - (rest.length + 1))⟩⟩ := by
  rw [lexemesFrom]
  split
  case h_1 h' => cases h.symm.trans h'
  case h_2 h' =>
    obtain ⟨rfl, rfl⟩ := List.cons.inj (h.symm.trans h')
    rfl

/-- A space between tokens belongs to neither. -/
theorem lexemesFrom_space :
    lexemesFrom symbol number isLast column (' ' :: cs)
      = lexemesFrom symbol number isLast (column + 1) cs := by
  have hdrop : (' ' :: cs).dropWhile isBlank = cs.dropWhile isBlank := rfl
  have hle := length_dropWhile_le isBlank cs
  have hcolumn : ∀ n, n ≤ cs.length →
      column + ((' ' :: cs).length - n) = column + 1 + (cs.length - n) := by
    intro n hn
    rw [List.length_cons]
    omega
  cases hcs : cs.dropWhile isBlank with
  | nil =>
    rw [lexemesFrom_of_dropWhile_nil (hdrop.trans hcs), lexemesFrom_of_dropWhile_nil hcs]
    simp only [List.length_cons, Nat.add_comm, Nat.add_left_comm]
  | cons c rest =>
    rw [hcs, List.length_cons] at hle
    rw [lexemesFrom_of_dropWhile_cons (hdrop.trans hcs), lexemesFrom_of_dropWhile_cons hcs,
      hcolumn _ hle]
    split
    · rename_i hlt
      simp only [hcolumn _ (Nat.le_trans (Nat.le_of_lt hlt) hle)]
    · rfl

/-- Nothing that is read as a token starts with a blank. -/
theorem isBlank_eq_false_of_readToken {c : Char} {kind : TokenKind} {after : List Char}
    (h : readToken defaultRange (c :: cs) = (.ok kind, after)) : isBlank c = false := by
  rw [Bool.eq_false_iff]
  intro hblank
  simp only [isBlank, Bool.or_eq_true, beq_iff_eq] at hblank
  rcases hblank with rfl | rfl <;> cases h

/-- The token that is read off the front is the first lexeme. -/
theorem lexemesFrom_token {token after : List Char} {kind : TokenKind}
    (hread : readToken defaultRange (token ++ after) = (.ok kind, after))
    (hkind : kind ≠ .endOfLine) :
    lexemesFrom defaultRange number isLast column (token ++ after)
      = ⟨.token ⟨kind, ⟨number, column⟩⟩ after.head?
          :: (lexemesFrom defaultRange number isLast (column + token.length) after).items,
        (lexemesFrom defaultRange number isLast (column + token.length) after).ending⟩ := by
  cases hchars : token ++ after with
  | nil =>
    rw [hchars] at hread
    cases hread
    exact absurd rfl hkind
  | cons c cs =>
    have hshorter : after.length < (c :: cs).length := by
      rcases readToken_length_lt defaultRange c cs with hlt | herror
      · rwa [← hchars, hread, hchars] at hlt
      · rw [← hchars, hread] at herror
        cases herror
    have hstart : (c :: cs).length - (cs.length + 1) = 0 := Nat.sub_self _
    have hlength : (c :: cs).length - after.length = token.length := by
      rw [← hchars, List.length_append, Nat.add_sub_cancel]
    rw [hchars] at hread
    have hdrop : (c :: cs).dropWhile isBlank = c :: cs :=
      List.dropWhile_cons_of_neg (Bool.eq_false_iff.mp (isBlank_eq_false_of_readToken hread))
    rw [lexemesFrom_of_dropWhile_cons hdrop, hread, if_pos hshorter]
    simp only [hlength, hstart, Nat.add_zero]

end Lexemes

end Tablica.Token
