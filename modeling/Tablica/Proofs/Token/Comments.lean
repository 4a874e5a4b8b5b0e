import Tablica.Proofs.Token.Respelling

/-!
# Where a comment begins

A number sign is the end of a line for whoever looks for a token, whatever stands behind it.  So a
comment can follow a line directly if each token of the line ends where it did, although there is a
number sign behind it now and not the end of the line.

    u          ──read──▸   tokens
    u # v      ──read──▸   the same tokens, and the end of the line

Numbers, texts and all signs end before a number sign.  A **word** does not: the number sign is none
of the characters that end words.  A word at the very end of the line goes on into the comment, up
to the first character there that does end it, and is a name then.

    x          ──read──▸   x
    x#y z      ──read──▸   x#y  z

* `spanWord_comment` — words before a comment;
* `readToken_comment`, `readToken_comment_of_word` — tokens before a comment;
* `TokenKind.IsWord`, `Cursor.EndsInWord` — words, and the lines that end in one;
* `Cursor.Commented` — a line without and with a comment behind it;
* `comments_follow_all_tokens_but_words` — the law.
-/

namespace Tablica

open Text Token

/-- Whether the token was read as a word. -/
def TokenKind.IsWord : TokenKind → Prop
  | keyword _ | identifier _ | boolean _ => True
  | operator o => (Operator.ofWord? o.symbol).isSome
  | number _ | text _ | punctuator _ | range _ | endOfLine => False

namespace Token

variable {cs rest comment word : List Char} {kind : TokenKind}

/-! ### Words -/

/-- The range symbol begins nowhere because of a comment. -/
theorem startsRange_comment (cs comment : List Char) :
    startsRange defaultRange (cs ++ '#' :: comment) = startsRange defaultRange cs := by
  have hstart : ∀ symbol : List Char, '#' ∉ symbol →
      symbol.isPrefixOf (cs ++ '#' :: comment) = symbol.isPrefixOf cs := by
    intro symbol hsymbol
    induction symbol generalizing cs with
    | nil => rw [List.isPrefixOf_nil_left, List.isPrefixOf_nil_left]
    | cons c symbol ih =>
      obtain ⟨hne, hsymbol⟩ := not_or.mp (mt List.mem_cons.mpr hsymbol)
      cases cs with
      | nil =>
        have hfalse : (c == '#') = false := beq_eq_false_iff_ne.mpr (Ne.symm hne)
        simp only [List.nil_append, List.isPrefixOf, hfalse, Bool.false_and]
      | cons d cs => simp only [List.cons_append, List.isPrefixOf, ih cs hsymbol]
  exact congrArg (!isAlphanumeric '.' && ·) (hstart defaultRange (by decide))

/-- A word that ends on its line ends there also with a comment further on.  One that goes up to the
end of the line goes on into the comment. -/
theorem spanWord_comment (cs comment : List Char) :
    spanWord defaultRange (cs ++ '#' :: comment)
      = if (spanWord defaultRange cs).2 = []
        then (cs ++ '#' :: (spanWord defaultRange comment).1, (spanWord defaultRange comment).2)
        else ((spanWord defaultRange cs).1, (spanWord defaultRange cs).2 ++ '#' :: comment) := by
  induction cs with
  | nil =>
    have hsign : (endsWord '#' || startsRange defaultRange ('#' :: comment)) = false := by
      rw [startsRange_cons (by decide)]
      decide
    simp only [List.nil_append, spanWord, hsign, Bool.false_eq_true, if_false, if_true]
  | cons c cs ih =>
    have hstarts := startsRange_comment (c :: cs) comment
    rw [List.cons_append] at hstarts ⊢
    by_cases hstops : (endsWord c || startsRange defaultRange (c :: cs)) = true
    · simp only [spanWord, hstarts, if_pos hstops, reduceCtorEq, if_false, List.cons_append]
    · simp only [spanWord, hstarts, if_neg hstops, ih]
      split <;> rfl

/-! ### Tokens -/

theorem isWord_classify (h : ∃ c ∈ word.head?, isLetter c || c = '_') :
    (classify defaultRange (String.ofList word)).IsWord := by
  have hrange : String.ofList word ≠ String.ofList defaultRange := by
    intro heq
    rw [String.ofList_inj.mp heq] at h
    obtain ⟨_, ⟨⟩, hdot⟩ := h
    exact absurd hdot (by decide)
  unfold classify
  split
  · trivial
  · split
    · rename_i o hoperator
      have hsymbol : o.symbol = String.ofList word := by simpa using List.find?_some hoperator
      show (Operator.ofWord? o.symbol).isSome
      rw [hsymbol, hoperator]
      rfl
    · split
      · trivial
      · split
        · trivial
        · trivial

/-- The sign of an operator is read in the same way before a comment. -/
theorem readOperator_comment {o : Operator}
    (h : readOperator (o.symbol.toList ++ rest) = (.ok (.operator o), rest)) (comment : List Char) :
    readOperator (o.symbol.toList ++ (rest ++ '#' :: comment))
      = (.ok (.operator o), rest ++ '#' :: comment) := by
  -- Only `<` and `>` look at the next character, which stays the same unless the line ends there.
  cases o with
  | less =>
    cases rest with
    | nil => rfl
    | cons d rest =>
      have hequal : d ≠ '=' := by
        rintro rfl
        cases h
      have hminus : d ≠ '-' := by
        rintro rfl
        cases h
      simp [Operator.symbol, readOperator, hequal, hminus]
  | greater =>
    cases rest with
    | nil => rfl
    | cons d rest =>
      have hequal : d ≠ '=' := by
        rintro rfl
        cases h
      simp [Operator.symbol, readOperator, hequal]
  | divide | modulo => cases h
  | _ => rfl

/-- **A token ends before a comment** where it ended before, unless it is a word at the end of the
line. -/
theorem readToken_comment (h : readToken defaultRange cs = (.ok kind, rest))
    (hkind : kind ≠ .endOfLine) (hends : ¬ (kind.IsWord ∧ rest = [])) (comment : List Char) :
    readToken defaultRange (cs ++ '#' :: comment) = (.ok kind, rest ++ '#' :: comment) := by
  cases readBy_of_readToken h with
  | ended => exact absurd rfl hkind
  | comment => exact absurd rfl hkind
  | range =>
    rw [List.append_assoc]
    rfl
  | punctuator hp => exact readToken_punctuator hp
  | @text quote contents _ hquote hnot =>
    have hread : readToken defaultRange (quote :: ((String.ofList contents).toList
        ++ quote :: (rest ++ '#' :: comment))) = _ :=
      readToken_text hquote (by rwa [String.toList_ofList])
    rw [String.toList_ofList] at hread
    rw [List.cons_append, List.append_assoc, List.cons_append]
    exact hread
  | @number digits _ n hdigits hrest hn =>
    have hne : digits ≠ [] := by
      rintro rfl
      cases hn
    have htail : ∀ d ∈ (rest ++ '#' :: comment).head?, d.isDigit = false := by
      cases rest with
      | nil =>
        rintro d ⟨⟩
        rfl
      | cons e rest => exact hrest
    rw [List.append_assoc]
    exact readToken_digits hne hdigits hn htail
  | assignment hsign =>
    rw [List.append_assoc]
    rcases hsign with rfl | rfl <;> rfl
  | @operator o _ ho =>
    rw [List.append_assoc]
    have hsign : ∀ tail, readToken defaultRange (o.symbol.toList ++ tail)
        = readOperator (o.symbol.toList ++ tail) := by
      intro tail
      cases o with
      | divide | modulo => cases ho
      | _ => rfl
    rw [hsign] at h ⊢
    exact readOperator_comment h comment
  | @word word _ hstart hspan =>
    have hrest : rest ≠ [] := fun hnil => hends ⟨isWord_classify hstart, hnil⟩
    have hword := spanWord_comment (word ++ rest) comment
    rw [hspan, if_neg hrest] at hword
    exact readToken_of_spanWord hstart hword

theorem classify_of_mem (h : '#' ∈ word) :
    classify defaultRange (String.ofList word) = .identifier (String.ofList word) := by
  have hne : ∀ text : String, '#' ∉ text.toList → String.ofList word ≠ text := by
    rintro _ hnot rfl
    exact hnot (by rwa [String.toList_ofList])
  have hkeyword : Keyword.ofWord? (String.ofList word) = none := by
    cases hfound : Keyword.ofWord? (String.ofList word) with
    | none => rfl
    | some k =>
      have hnot : ∀ k : Keyword, '#' ∉ k.spelling.toList := fun k => by cases k <;> decide
      exact absurd (Keyword.ofWord?_eq_some_iff.mp hfound).symm (hne _ (hnot k))
  have hoperator : Operator.ofWord? (String.ofList word) = none := by
    cases hfound : Operator.ofWord? (String.ofList word) with
    | none => rfl
    | some o =>
      have hnot : ∀ o : Operator, '#' ∉ o.symbol.toList := fun o => by cases o <;> decide
      have hsymbol : o.symbol = String.ofList word := by simpa using List.find?_some hfound
      exact absurd hsymbol.symm (hne _ (hnot o))
  simp only [classify, hkeyword, hoperator, hne (TokenKind.spellBoolean true) (by decide),
    hne (TokenKind.spellBoolean false) (by decide), hne (String.ofList defaultRange) (by decide),
    if_false]

/-- **A word at the end of the line goes on into the comment**, and is a name then. -/
theorem readToken_comment_of_word (h : readToken defaultRange cs = (.ok kind, []))
    (hword : kind.IsWord) (comment : List Char) :
    readToken defaultRange (cs ++ '#' :: comment)
      = (.ok (.identifier (String.ofList (cs ++ '#' :: (spanWord defaultRange comment).1))),
        (spanWord defaultRange comment).2) := by
  have hrule := readBy_of_readToken h
  generalize hrest : ([] : List Char) = rest at hrule
  cases hrule with
  | @word word _ hstart hspan =>
    subst hrest
    have hgoes := spanWord_comment (word ++ []) comment
    rw [hspan, if_pos rfl] at hgoes
    have hstart' : ∃ c ∈ (word ++ [] ++ '#' :: (spanWord defaultRange comment).1).head?,
        isLetter c || c = '_' := by
      obtain ⟨c, hc, hletter⟩ := hstart
      refine ⟨c, ?_, hletter⟩
      rw [List.append_nil, List.head?_append, Option.mem_def.mp hc]
      rfl
    rw [readToken_of_spanWord hstart' hgoes, classify_of_mem (by simp)]
  | operator ho =>
    have hsome : (Operator.ofWord? _).isSome := hword
    rw [ho] at hsome
    cases hsome
  | _ => exact hword.elim

end Token

/-! ### Lines -/

namespace Cursor

variable {c c' after : Cursor} {gap word tail comment : List Char} {kind : TokenKind}
  {token : Token} {tokens : List (Token × Cursor)} {last : Option Token}

/-- The two cursors stand at the same place, and where the line of the first one ends there is a
comment on that of the second one. -/
structure Commented (comment : List Char) (c c' : Cursor) : Prop where
  position : c'.position = c.position
  rest : c'.rest = c.rest ++ '#' :: comment

/-- Whether the last token of a line was read as a word and nothing is left behind it. -/
def EndsInWord (tokens : List (Token × Cursor)) : Prop :=
  ∃ last ∈ tokens.getLast?, last.1.kind.IsWord ∧ last.2.rest = []

theorem position_advance (h : c'.position = c.position) (count : Nat) :
    (c'.advance count).position = (c.advance count).position := by
  obtain ⟨hline, hcolumn⟩ := Position.mk.inj h
  simp only [position, advance, Position.mk.injEq]
  omega

/-- What can be read behind the blanks is the next token, and the cursor is moved behind it. -/
theorem nextToken_eq {symbol : List Char} (hrest : c.rest = gap ++ (word ++ tail))
    (hgap : ∀ b ∈ gap, isBlank b = true) (hne : word ++ tail ≠ [])
    (hstart : (word ++ tail).dropWhile isBlank = word ++ tail)
    (hread : readToken symbol (word ++ tail) = (.ok kind, tail)) :
    c.nextToken symbol = (.ok (some ⟨kind, (c.advance gap.length).position⟩),
      (c.advance gap.length).advance word.length) := by
  have hdrop : c.rest.dropWhile isBlank = word ++ tail := by
    rw [hrest, List.dropWhile_append_of_pos hgap, hstart]
  have hskip : c.skipBlanks = c.advance gap.length := by
    rw [skipBlanks, hdrop, leaving_eq_advance hrest]
  have hmoved : (c.advance gap.length).rest = word ++ tail := rest_advance hrest
  have hmore : c.skipBlanks.atEndOfInput = false := by
    rw [atEndOfInput, atEndOfLine, hskip, hmoved]
    cases hchars : word ++ tail with
    | nil => exact absurd hchars hne
    | cons => rfl
  rw [nextToken_of_more hmore, hskip, hmoved, hread, leaving_eq_advance hmoved]
  rfl

theorem Takes.append (h : c.Takes defaultRange token after gap word)
    (hc : c.Commented comment c') : c'.rest = gap ++ (word ++ (after.rest ++ '#' :: comment)) := by
  rw [hc.rest, h.rest, List.append_assoc, List.append_assoc]

/-- A token that does not go up to the end of the line as a word is read in the same way. -/
theorem Commented.nextToken (hc : c.Commented comment c')
    (h : c.nextToken defaultRange = (.ok (some token), after)) (hkind : token.kind ≠ .endOfLine)
    (hends : ¬ (token.kind.IsWord ∧ after.rest = [])) :
    ∃ after', c'.nextToken defaultRange = (.ok (some token), after')
      ∧ after.Commented comment after' := by
  obtain ⟨gap, word, htakes⟩ := takes_of_nextToken h
  have hrest := htakes.append hc
  have hread := readToken_comment htakes.read hkind hends comment
  rw [List.append_assoc] at hread
  have hne : word ++ (after.rest ++ '#' :: comment) ≠ [] := by simp
  have htoken : ⟨token.kind, (c'.advance gap.length).position⟩ = token := by
    rw [position_advance hc.position, ← htakes.position]
  have hafter : (c'.advance gap.length).rest = word ++ (after.rest ++ '#' :: comment) :=
    rest_advance hrest
  have hstart := dropWhile_isBlank_of_readToken hread
  refine ⟨_, (nextToken_eq hrest htakes.blank hne hstart hread).trans (by rw [htoken]), ?_, ?_⟩
  · rw [htakes.moved]
    exact position_advance (position_advance hc.position _) _
  · exact rest_advance hafter

/-- A word that goes up to the end of the line is another token there. -/
theorem Commented.nextToken_of_word (hc : c.Commented comment c')
    (h : c.nextToken defaultRange = (.ok (some token), after)) (hword : token.kind.IsWord)
    (hends : after.rest = []) :
    ∃ token' after', c'.nextToken defaultRange = (.ok (some token'), after')
      ∧ token' ≠ token := by
  obtain ⟨gap, word, htakes⟩ := takes_of_nextToken h
  have hread := htakes.read
  rw [hends, List.append_nil] at hread
  have hgoes := readToken_comment_of_word hread hword comment
  have happend := spanWord_append defaultRange comment
  generalize (spanWord defaultRange comment).1 = more at hgoes happend
  generalize (spanWord defaultRange comment).2 = later at hgoes happend
  subst happend
  have hrest : c'.rest = gap ++ ((word ++ '#' :: more) ++ later) := by
    rw [htakes.append hc, hends, List.nil_append, List.append_assoc, List.cons_append]
  rw [← List.cons_append, ← List.append_assoc] at hgoes
  have hstart := dropWhile_isBlank_of_readToken hgoes
  refine ⟨_, _, nextToken_eq hrest htakes.blank (by simp) hstart hgoes, ?_⟩
  intro htoken
  have hspelled : token.kind.IsSpelled defaultRange word :=
    ReadBy.isSpelled (readBy_of_readToken (by rwa [List.append_nil]))
  rw [← htoken] at hspelled
  have hlonger : word = (String.ofList (word ++ '#' :: more)).toList := hspelled
  rw [String.toList_ofList] at hlonger
  simp at hlonger

/-- Where a line is over there is the end of the line in front of a comment. -/
theorem Commented.nextToken_of_ended (hc : c.Commented comment c')
    (h : c.ReadsLine defaultRange [] last) :
    ∃ position after', c'.nextToken defaultRange = (.ok (some ⟨.endOfLine, position⟩), after') := by
  obtain ⟨blanks, rest, hrest, hblank, hsign, -⟩ := h.rest_of_ended
  have hread : readToken defaultRange ((rest ++ '#' :: comment) ++ []) = (.ok .endOfLine, []) := by
    rw [List.append_nil]
    cases rest with
    | nil => rfl
    | cons d rest =>
      obtain rfl := hsign d rfl
      rfl
  have hrest' : c'.rest = blanks ++ ((rest ++ '#' :: comment) ++ []) := by
    rw [hc.rest, hrest, List.append_nil, List.append_assoc]
  have hstart := dropWhile_isBlank_of_readToken hread
  exact ⟨_, _, nextToken_eq hrest' hblank (by simp) hstart hread⟩

/-- Nothing is read of an empty line. -/
theorem ReadsLine.eq_nil (h : c.ReadsLine defaultRange tokens last) (hrest : c.rest = []) :
    tokens = [] := by
  cases h with
  | ended => rfl
  | token h hkind _ =>
    obtain ⟨gap, word, htakes⟩ := takes_of_nextToken h
    have hempty := htakes.rest.symm.trans hrest
    simp only [List.append_eq_nil_iff] at hempty
    exact absurd hempty.2.1 (htakes.ne_nil hkind)

theorem endsInWord_cons (h : ¬ (token.kind.IsWord ∧ after.rest = [])) :
    EndsInWord ((token, after) :: tokens) ↔ EndsInWord tokens := by
  cases tokens with
  | nil =>
    constructor
    · rintro ⟨_, ⟨⟩, hlast⟩
      exact absurd hlast h
    · rintro ⟨_, ⟨⟩, _⟩
  | cons => rw [EndsInWord, List.getLast?_cons_cons, EndsInWord]

/-- **A comment changes no token** of a line that does not end in a word. -/
theorem ReadsLine.commented (h : c.ReadsLine defaultRange tokens last)
    (hc : c.Commented comment c') (hword : ¬ EndsInWord tokens) :
    ∃ tokens' position, c'.ReadsLine defaultRange tokens' (some ⟨.endOfLine, position⟩)
      ∧ tokens'.map Prod.fst = tokens.map Prod.fst := by
  induction h generalizing c' with
  | ended h hlast =>
    obtain ⟨position, after', hnext⟩ := hc.nextToken_of_ended (.ended h hlast)
    exact ⟨[], position, .ended hnext fun token htoken => by rw [← Option.some.inj htoken], rfl⟩
  | @token c after token tokens last h hkind hrest ih =>
    have hends : ¬ (token.kind.IsWord ∧ after.rest = []) := by
      intro hends
      rw [hrest.eq_nil hends.2] at hword
      exact hword ⟨_, rfl, hends⟩
    obtain ⟨after', hnext, hafter⟩ := hc.nextToken h hkind hends
    obtain ⟨tokens', position, hreads, hsame⟩ := ih hafter (mt (endsInWord_cons hends).mpr hword)
    exact ⟨(token, after') :: tokens', position, .token hnext hkind hreads,
      by rw [List.map_cons, List.map_cons, hsame]⟩

/-- **A comment changes the last token** of a line that ends in a word. -/
theorem ReadsLine.commented_of_endsInWord (h : c.ReadsLine defaultRange tokens last)
    (hc : c.Commented comment c') (hword : EndsInWord tokens) {tokens' : List (Token × Cursor)}
    {last' : Option Token} (h' : c'.ReadsLine defaultRange tokens' last') :
    tokens'.map Prod.fst ≠ tokens.map Prod.fst := by
  induction h generalizing c' tokens' with
  | ended =>
    obtain ⟨_, ⟨⟩, _⟩ := hword
  | @token c after token tokens last h hkind hrest ih =>
    intro hmap
    cases h' with
    | ended => cases hmap
    | @token _ after' token' tokens' _ h' hkind' hrest' =>
      obtain ⟨hfirst, hsame⟩ := List.cons.inj hmap
      obtain rfl : token' = token := hfirst
      by_cases hends : token'.kind.IsWord ∧ after.rest = []
      · obtain ⟨token'', after'', hnext, hne⟩ := hc.nextToken_of_word h hends.1 hends.2
        cases h'.symm.trans hnext
        exact hne rfl
      · obtain ⟨after'', hnext, hafter⟩ := hc.nextToken h hkind hends
        cases h'.symm.trans hnext
        exact ih hafter ((endsInWord_cons hends).mp hword) hrest' hsame

theorem rest_ofText {text : String} (h : IsOneLine text.toList) :
    (ofText text).rest = text.toList := by
  rw [rest, chars, ofText, h.lines]
  rfl

theorem commented_ofText {u v : String} (hu : ∀ d ∈ u.toList, d ≠ '\n' ∧ d ≠ '\r')
    (hv : ∀ d ∈ v.toList, d ≠ '\n' ∧ d ≠ '\r') :
    (ofText u).Commented v.toList (ofText (u ++ "#" ++ v)) := by
  have hboth : (u ++ "#" ++ v).toList = u.toList ++ '#' :: v.toList := by
    rw [String.toList_append, String.toList_append, List.append_assoc]
    rfl
  have hline : IsOneLine (u ++ "#" ++ v).toList := by
    rw [hboth]
    exact (IsOneLine.of_forall hu).append (.cons (by decide) (.of_forall hv))
  refine ⟨rfl, ?_⟩
  rw [rest_ofText hline, rest_ofText (.of_forall hu), hboth]

end Cursor

/-- **A comment can directly follow every token but a word.**  Where a line that can be read to its
end does not end in a word, a number sign and any characters behind it change nothing: the same
tokens are read, and then the end of the line.  Where it ends in a word, no such comment leaves the
tokens as they are. -/
theorem comments_follow_all_tokens_but_words {u v : String}
    (hu : ∀ d ∈ u.toList, d ≠ '\n' ∧ d ≠ '\r') (hv : ∀ d ∈ v.toList, d ≠ '\n' ∧ d ≠ '\r')
    {tokens : List (Token × Cursor)} {last : Option Token}
    (h : (Cursor.ofText u).ReadsLine defaultRange tokens last) :
    (¬ Cursor.EndsInWord tokens → ∃ tokens' position,
        (Cursor.ofText (u ++ "#" ++ v)).ReadsLine defaultRange tokens'
            (some ⟨.endOfLine, position⟩)
          ∧ tokens'.map Prod.fst = tokens.map Prod.fst)
      ∧ (Cursor.EndsInWord tokens → ∀ tokens' last',
        (Cursor.ofText (u ++ "#" ++ v)).ReadsLine defaultRange tokens' last' →
          tokens'.map Prod.fst ≠ tokens.map Prod.fst) := by
  have hcommented := Cursor.commented_ofText hu hv
  exact ⟨h.commented hcommented, fun hword _ _ => h.commented_of_endsInWord hcommented hword⟩

/-- A digit at the beginning of a comment does not belong to the number in front of it. -/
theorem comments_follow_all_tokens_but_words_behind_a_number :
    let c := Cursor.ofText "x:=1"
    let tokens : List (Token × Cursor) := [(⟨.identifier "x", 1, 1⟩, c.advance 1),
      (⟨.punctuator .assignment, 1, 2⟩, c.advance 3), (⟨.number .one, 1, 4⟩, c.advance 4)]
    c.ReadsLine defaultRange tokens none
      ∧ ∃ tokens' position, (Cursor.ofText ("x:=1" ++ "#" ++ "2 y")).ReadsLine defaultRange tokens'
          (some ⟨.endOfLine, position⟩) ∧ tokens'.map Prod.fst = tokens.map Prod.fst := by
  intro c tokens
  have hover : (c.advance 4).nextToken defaultRange = (.ok none, c.advance 4) := by decide +kernel
  have hreads : c.ReadsLine defaultRange tokens none :=
    .token (by decide +kernel) nofun (.token (by decide +kernel) nofun
      (.token (by decide +kernel) nofun (.ended hover fun _ hnone => nomatch hnone)))
  have hends : ¬ Cursor.EndsInWord tokens := by
    rintro ⟨_, ⟨⟩, hword, -⟩
    exact hword
  exact ⟨hreads,
    (comments_follow_all_tokens_but_words (by simp) (by simp) hreads).1 hends⟩

/-- A word takes up the number sign and the comment behind it. -/
theorem comment_is_read_as_part_of_a_word :
    ∃ tokens last, (Cursor.ofText "x").ReadsLine defaultRange tokens last
      ∧ tokens.map (·.1.kind) = [.identifier "x"]
      ∧ (∃ tokens' last', (Cursor.ofText ("x" ++ "#" ++ "y")).ReadsLine defaultRange tokens' last'
        ∧ tokens'.map (·.1.kind) = [.identifier "x#y"])
      ∧ ∀ tokens' last', (Cursor.ofText ("x" ++ "#" ++ "y")).ReadsLine defaultRange tokens' last' →
        tokens'.map Prod.fst ≠ tokens.map Prod.fst := by
  let c := Cursor.ofText "x"
  let c' := Cursor.ofText ("x" ++ "#" ++ "y")
  have hover : (c.advance 1).nextToken defaultRange = (.ok none, c.advance 1) := by decide +kernel
  have hover' : (c'.advance 3).nextToken defaultRange = (.ok none, c'.advance 3) := by
    decide +kernel
  have hreads : c.ReadsLine defaultRange [(⟨.identifier "x", 1, 1⟩, c.advance 1)] none :=
    .token (by decide +kernel) nofun (.ended hover fun _ hnone => nomatch hnone)
  have hreads' : c'.ReadsLine defaultRange [(⟨.identifier "x#y", 1, 1⟩, c'.advance 3)] none :=
    .token (by decide +kernel) nofun (.ended hover' fun _ hnone => nomatch hnone)
  have hcommented : c.Commented "y".toList c' := Cursor.commented_ofText (by simp) (by simp)
  have hrest : (c.advance 1).rest = [] := by decide +kernel
  exact ⟨_, _, hreads, rfl, ⟨_, _, hreads', rfl⟩, fun _ _ =>
    hreads.commented_of_endsInWord hcommented ⟨_, rfl, trivial, hrest⟩⟩

end Tablica
