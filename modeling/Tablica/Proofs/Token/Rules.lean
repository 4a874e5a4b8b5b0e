import Mathlib.Data.List.Infix
import Mathlib.Data.List.TakeWhile
import Tablica.Proofs.Token.Spelling

/-!
# By which rule a token is read

A token that is read off the front of a line is read by one of nine rules, and the rule says all
there is to say about it: which characters it is made of, and what can follow them.

    cs  =  token ++ rest          readToken symbol cs  =  (kind, rest)

Only the range symbol is cut out of whatever surrounds it.  Every other token ends where its own
rule ends it, so a row of digits is never cut except behind a range symbol that ends with a digit
itself.

* `ReadBy` — the rules, `readBy_of_readToken` — there are no others;
* `TokenKind.IsSpelled` — the spellings of a kind;
* `ReadBy.exists_spelling` — what is read is spelled as its kind says;
* `ReadBy.isDigit_eq_false` — where a row of digits is not cut;
* `ReadBy.of_endOfLine` — the end of a line.
-/

namespace Tablica

open Text Token

namespace Token

/-- By which rule the characters are read: as which kind, and what is left of them. -/
inductive ReadBy (symbol : List Char) : List Char → TokenKind → List Char → Prop
  | ended : ReadBy symbol [] .endOfLine []
  | comment {comment : List Char} : ReadBy symbol ('#' :: comment) .endOfLine []
  | range {rest : List Char} (h : startsRange symbol (symbol ++ rest)) :
      ReadBy symbol (symbol ++ rest) (.range (String.ofList symbol)) rest
  | punctuator {c : Char} {p : Punctuator} {rest : List Char} (h : punctuator? c = some p) :
      ReadBy symbol (c :: rest) (.punctuator p) rest
  | text {quote : Char} {contents rest : List Char} (hquote : quote = '"' ∨ quote = '\'')
      (h : quote ∉ contents) :
      ReadBy symbol (quote :: (contents ++ quote :: rest)) (.text (String.ofList contents)) rest
  | number {digits rest : List Char} {n : Number} (hdigits : ∀ c ∈ digits, c.isDigit = true)
      (hrest : ∀ c ∈ rest.head?, c.isDigit = false) (h : Number.ofDigits? digits = some n) :
      ReadBy symbol (digits ++ rest) (.number n) rest
  | assignment {sign : String} {rest : List Char} (h : sign = ":=" ∨ sign = "<-") :
      ReadBy symbol (sign.toList ++ rest) (.punctuator .assignment) rest
  | operator {o : Operator} {rest : List Char} (h : Operator.ofWord? o.symbol = none) :
      ReadBy symbol (o.symbol.toList ++ rest) (.operator o) rest
  | word {word rest : List Char} (hstart : ∃ c ∈ word.head?, isLetter c || c = '_')
      (h : spanWord symbol (word ++ rest) = (word, rest)) :
      ReadBy symbol (word ++ rest) (classify symbol (String.ofList word)) rest

variable {symbol cs rest : List Char} {kind : TokenKind} {c : Char}

/-! ### There are no other rules -/

theorem readBy_of_startsRange (h : startsRange symbol cs) :
    ReadBy symbol cs (.range (String.ofList symbol)) (cs.drop symbol.length) := by
  have hprefix : symbol <+: cs := by
    cases symbol with
    | nil => exact List.nil_prefix
    | cons d symbol =>
      have hboth : (!isAlphanumeric d && (d :: symbol).isPrefixOf cs) = true := h
      exact List.isPrefixOf_iff_prefix.mp (Bool.and_eq_true_iff.mp hboth).2
  obtain ⟨tail, rfl⟩ := hprefix
  rw [List.drop_left]
  exact .range h

theorem readBy_of_readText (hquote : c = '"' ∨ c = '\'')
    (h : readText (c :: cs) = (.ok kind, rest)) : ReadBy symbol (c :: cs) kind rest := by
  rw [readText] at h
  split at h
  case h_1 => cases h
  case h_2 d tail htail =>
    obtain ⟨hkind, rfl⟩ := Prod.mk.inj h
    obtain rfl := Except.ok.inj hkind
    obtain rfl : d = c := by
      have hd := head?_dropWhile_eq_false (· != c) cs d (by rw [htail]; rfl)
      simpa using hd
    have hsplit := List.takeWhile_append_dropWhile (p := (· != d)) (l := cs)
    have hnot : d ∉ cs.takeWhile (· != d) := by
      intro hmem
      simpa using List.mem_takeWhile_imp hmem
    have hrule : ReadBy symbol (d :: (cs.takeWhile (· != d) ++ d :: tail))
        (.text (String.ofList (cs.takeWhile (· != d)))) tail := .text hquote hnot
    rwa [← htail, hsplit] at hrule

theorem readBy_of_readNumber (h : readNumber cs = (.ok kind, rest)) :
    ReadBy symbol cs kind rest := by
  simp only [readNumber] at h
  split at h
  case h_1 n hn =>
    obtain ⟨hkind, rfl⟩ := Prod.mk.inj h
    obtain rfl := Except.ok.inj hkind
    have hrule : ReadBy symbol (cs.takeWhile Char.isDigit ++ cs.dropWhile Char.isDigit)
        (.number n) (cs.dropWhile Char.isDigit) :=
      .number (fun _ hc => List.mem_takeWhile_imp hc) (head?_dropWhile_eq_false _ _) hn
    rwa [List.takeWhile_append_dropWhile] at hrule
  case h_2 => cases h

theorem readBy_of_symbol {o : Operator} (hcs : cs = o.symbol.toList ++ rest)
    (h : Operator.ofWord? o.symbol = none) : ReadBy symbol cs (.operator o) rest :=
  hcs ▸ .operator h

theorem readBy_of_readOperator (h : readOperator cs = (.ok kind, rest)) :
    ReadBy symbol cs kind rest := by
  unfold readOperator at h
  split at h
  case h_1 | h_13 => cases h
  all_goals
    obtain ⟨hkind, rfl⟩ := Prod.mk.inj h
    obtain rfl := Except.ok.inj hkind
  case h_2 => exact .assignment (.inl rfl)
  case h_3 => exact .assignment (.inr rfl)
  all_goals exact readBy_of_symbol rfl (by decide)

/-- A word starts with the character at the front, which ends no word and starts no range symbol. -/
theorem readBy_of_readWord (hc : isLetter c || c = '_') (hends : endsWord c = false)
    (hrange : startsRange symbol (c :: cs) = false) :
    ReadBy symbol (c :: cs) (readWord symbol (c :: cs)).1 (readWord symbol (c :: cs)).2 := by
  have happend := spanWord_append symbol (c :: cs)
  have hstart : ∃ d ∈ (spanWord symbol (c :: cs)).1.head?, isLetter d || d = '_' := by
    simp only [spanWord, hends, hrange, Bool.or_self, Bool.false_eq_true, if_false]
    exact ⟨c, rfl, hc⟩
  have hrule := ReadBy.word hstart (congrArg (spanWord symbol) happend)
  rwa [happend] at hrule

/-- **Every token is read by a rule.** -/
theorem readBy_of_readToken (h : readToken symbol cs = (.ok kind, rest)) :
    ReadBy symbol cs kind rest := by
  cases cs with
  | nil =>
    cases h
    exact .ended
  | cons c cs =>
    simp only [readToken] at h
    split at h
    · rename_i hrange
      cases h
      exact readBy_of_startsRange hrange
    · rename_i hrange
      split at h
      · rename_i hcomment
        cases h
        cases hcomment
        exact .comment
      · split at h
        · rename_i hpunctuator
          cases h
          exact .punctuator hpunctuator
        · split at h
          · rename_i hquote
            exact readBy_of_readText (by simpa using hquote) h
          · split at h
            · exact readBy_of_readNumber h
            · split at h
              · exact readBy_of_readOperator h
              · rename_i hoperator
                split at h
                · rename_i hc
                  cases h
                  exact readBy_of_readWord hc
                    (endsWord_eq_false (Bool.eq_false_iff.mpr hoperator) hc)
                    (Bool.eq_false_iff.mpr hrange)
                · cases h

end Token

/-! ### Spellings -/

/-- The spellings of a kind, where the range symbol is the given one.  A text may stand in either
quotation mark that it does not hold, and there are two signs for an assignment. -/
def TokenKind.IsSpelled (symbol : List Char) : TokenKind → List Char → Prop
  | .keyword k, cs => cs = k.spelling.toList
  | .identifier name, cs => cs = name.toList
  | .number n, cs =>
    cs ≠ [] ∧ (∀ c ∈ cs, c.isDigit = true) ∧ n.val = Nat.ofDigitChars 10 cs 0
  | .boolean b, cs => cs = (spellBoolean b).toList
  | .text s, cs =>
    ∃ quote, (quote = '"' ∨ quote = '\'') ∧ quote ∉ s.toList ∧ cs = quote :: (s.toList ++ [quote])
  | .operator o, cs => cs = o.symbol.toList
  | .punctuator p, cs => cs = p.symbol.toList ∨ p = .assignment ∧ cs = "<-".toList
  | .range s, cs => s = String.ofList symbol ∧ cs = symbol
  | .endOfLine, cs => ∀ c ∈ cs.head?, c = '#'

namespace Token

variable {symbol cs rest : List Char} {kind : TokenKind}

theorem singleton_eq_of_punctuator {c : Char} {p : Punctuator} (h : punctuator? c = some p) :
    [c] = p.symbol.toList := by
  unfold punctuator? at h
  repeat' split at h
  all_goals cases h
  all_goals
    subst c
    rfl

theorem isSpelled_of_digits {n : Number} (h : Number.ofDigits? cs = some n) :
    (TokenKind.number n).IsSpelled symbol cs := by
  unfold Number.ofDigits? at h
  split at h
  case isTrue => cases h
  case isFalse hdigits =>
    simp only [Bool.or_eq_true, List.isEmpty_iff, Bool.not_eq_true', not_or,
      Bool.not_eq_false, List.all_eq_true] at hdigits
    exact ⟨hdigits.1, hdigits.2, Number.ofInt?_eq_some_iff.mp h⟩

/-- A word is spelled as its class says. -/
theorem classify_isSpelled (symbol : List Char) (word : String) :
    (classify symbol word).IsSpelled symbol word.toList := by
  unfold classify
  split
  case h_1 k hkeyword =>
    exact congrArg String.toList (Keyword.ofWord?_eq_some_iff.mp hkeyword).symm
  case h_2 =>
    split
    case h_1 o hoperator =>
      have hsymbol : o.symbol = word := by simpa using List.find?_some hoperator
      exact congrArg String.toList hsymbol.symm
    case h_2 =>
      split
      · rename_i htrue
        exact congrArg String.toList htrue
      · split
        · rename_i hfalse
          exact congrArg String.toList hfalse
        · split
          · rename_i hrange
            exact ⟨hrange, by rw [hrange, String.toList_ofList]⟩
          · exact rfl

/-- A word is never the end of a line. -/
theorem classify_ne_endOfLine (symbol : List Char) (word : String) :
    classify symbol word ≠ .endOfLine := by
  unfold classify
  grind

namespace ReadBy

/-- **What is read is spelled as its kind says.** -/
theorem exists_spelling (h : ReadBy symbol cs kind rest) :
    ∃ token, cs = token ++ rest ∧ kind.IsSpelled symbol token := by
  cases h with
  | ended => exact ⟨[], rfl, nofun⟩
  | @comment comment =>
    refine ⟨'#' :: comment, (List.append_nil _).symm, ?_⟩
    rintro c ⟨⟩
    rfl
  | range => exact ⟨symbol, rfl, rfl, rfl⟩
  | @punctuator c p _ h => exact ⟨[c], rfl, .inl (singleton_eq_of_punctuator h)⟩
  | @text quote contents _ hquote h =>
    refine ⟨quote :: (contents ++ [quote]), by simp, quote, hquote, ?_⟩
    rw [String.toList_ofList]
    exact ⟨h, rfl⟩
  | number _ _ h => exact ⟨_, rfl, isSpelled_of_digits h⟩
  | assignment h =>
    rcases h with rfl | rfl
    · exact ⟨_, rfl, .inl rfl⟩
    · exact ⟨_, rfl, .inr ⟨rfl, rfl⟩⟩
  | operator => exact ⟨_, rfl, rfl⟩
  | @word word =>
    have hspelled := classify_isSpelled symbol (String.ofList word)
    rw [String.toList_ofList] at hspelled
    exact ⟨word, rfl, hspelled⟩

theorem isSpelled {token : List Char} (h : ReadBy symbol (token ++ rest) kind rest) :
    kind.IsSpelled symbol token := by
  obtain ⟨token', hsplit, hspelled⟩ := h.exists_spelling
  rwa [List.append_cancel_right hsplit]

/-- The line is over where nothing is left or a comment begins. -/
theorem of_endOfLine (h : ReadBy symbol cs .endOfLine rest) : ∀ c ∈ cs.head?, c = '#' := by
  generalize hkind : TokenKind.endOfLine = kind at h
  cases h with
  | ended => nofun
  | comment =>
    rintro c ⟨⟩
    rfl
  | word => exact absurd hkind.symm (classify_ne_endOfLine _ _)
  | _ => cases hkind

end ReadBy

/-! ### Rows of digits -/

theorem isDigit_eq_false_of_endsWord {c : Char} (h : endsWord c) : c.isDigit = false := by
  have hall : (['+', '-', '*', ':', '<', '>', '=', '!'] ++
      [' ', '\t', '(', ')', '[', ']', '{', '}', ',']).all fun d => !d.isDigit := by decide
  have hmem : c ∈ ['+', '-', '*', ':', '<', '>', '=', '!'] ++
      [' ', '\t', '(', ')', '[', ']', '{', '}', ','] := by
    simpa only [endsWord, isOperatorChar, Bool.or_eq_true, List.contains_iff_mem,
      List.mem_append] using h
  simpa using List.all_eq_true.mp hall c hmem

/-- A word does not end before a digit. -/
theorem isDigit_eq_false_of_spanWord (symbol cs : List Char) :
    ∀ d ∈ (spanWord symbol cs).2.head?, d.isDigit = false := by
  induction cs with
  | nil => nofun
  | cons c cs ih =>
    simp only [spanWord]
    split
    · rename_i hstops
      rintro d ⟨⟩
      rcases Bool.or_eq_true_iff.mp hstops with hends | hrange
      · exact isDigit_eq_false_of_endsWord hends
      · exact isDigit_eq_false_of_startsRange hrange
    · exact ih

/-- **No row of digits is cut** where a token ends, except behind the range symbol. -/
theorem ReadBy.isDigit_eq_false {token : List Char} (h : ReadBy symbol (token ++ rest) kind rest)
    (hkind : kind ≠ .range (String.ofList symbol)) (hlast : ∃ d ∈ token.getLast?, d.isDigit) :
    ∀ d ∈ rest.head?, d.isDigit = false := by
  obtain ⟨d, hd, hdigit⟩ := hlast
  generalize hcs : token ++ rest = cs at h
  -- Most rules fix the last character of the token, and it is no digit.
  have hno : ∀ token', token' ++ rest = cs → (∃ e ∈ token'.getLast?, e.isDigit = false) →
      ∀ d ∈ rest.head?, d.isDigit = false := by
    rintro token' hcs' ⟨e, he, hfalse⟩
    rw [List.append_cancel_right (hcs.trans hcs'.symm)] at hd
    rw [Option.mem_unique hd he, hfalse] at hdigit
    cases hdigit
  cases h with
  | ended | comment => nofun
  | range => exact absurd rfl hkind
  | @punctuator c p _ h =>
    refine hno [c] rfl ?_
    rw [singleton_eq_of_punctuator h]
    cases p <;> exact ⟨_, rfl, rfl⟩
  | @text quote contents _ hquote =>
    refine hno (quote :: (contents ++ [quote])) (by simp) ?_
    rw [← List.cons_append, List.getLast?_concat]
    rcases hquote with rfl | rfl <;> exact ⟨_, rfl, rfl⟩
  | number _ hrest => exact hrest
  | assignment h =>
    refine hno _ rfl ?_
    rcases h with rfl | rfl <;> exact ⟨_, rfl, rfl⟩
  | @operator o =>
    refine hno _ rfl ?_
    cases o <;> exact ⟨_, rfl, rfl⟩
  | @word word _ _ h =>
    intro d hd
    exact isDigit_eq_false_of_spanWord symbol (word ++ rest) d (by rwa [h])

end Token

end Tablica
