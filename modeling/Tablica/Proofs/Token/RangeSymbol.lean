import Tablica.Proofs.Token.Comments

/-!
# The range symbol as a token of its own

The range symbol is whatever the configuration says, so it may look like any other token.  It is
found in one of two ways.  A symbol that starts with neither a letter nor a numeral is a **sign**:
its characters are looked for before anything else is, and nothing else can be read where they
stand, not even the start of a comment or of a text.

    1 #' 2      ──read──▸   1  #'  2        the symbol is #'
    1 do 2      ──read──▸   1  do  2        the symbol is do
    1 mod 2     ──read──▸   1  mod  2       the symbol is mod, and the operator is read

A symbol that starts with a letter is a **word**.  It is read like every other word, up to the first
character that ends words, and what it is comes after what it may be besides: a reserved word stays
what it is reserved for.  A symbol that is neither, as `2` and `od-do` are, is never read.

* `Token.reserved` — the reserved words, each with its meaning;
* `Token.IsUnspaced`, `Token.IsDistinct` — symbols of one piece, and those that can be told from
  everything else because they are signs or words;
* `Token.isDistinct_of_readToken`, `Token.readToken_of_isDistinct` — that these are read, and no
  other ones ever;
* `Token.IsReadBetween`, `Token.isReadBetween_range_iff` — a symbol between two numbers, and where
  it is read as the range symbol;
* `range_symbol_is_a_token_of_its_own` — the law.
-/

namespace Tablica

open Text Token

namespace Token

/-- The reserved words, each with the kind that it is read as whatever the range symbol is. -/
def reserved : List (String × TokenKind) :=
  Keyword.all.map (fun k => (k.spelling, .keyword k))
    ++ [Operator.divide, .modulo].map (fun o => (o.symbol, .operator o))
    ++ [true, false].map fun b => (TokenKind.spellBoolean b, .boolean b)

/-- A symbol of one piece: neither blanks nor line feeds stand in it. -/
def IsUnspaced (symbol : String) : Prop :=
  ∀ c ∈ symbol.toList, isBlank c = false ∧ c ≠ '\n'

/-- A symbol that is a **sign**: it starts with neither a letter nor a numeral. -/
def IsSign (symbol : List Char) : Prop :=
  ∃ c ∈ symbol.head?, isAlphanumeric c = false

/-- A symbol that is a **word**: it starts with a letter, and nothing in it ends a word. -/
structure IsWholeWord (symbol : List Char) : Prop where
  starts : ∃ c ∈ symbol.head?, isLetter c = true
  inside : ∀ c ∈ symbol, endsWord c = false

theorem isWholeWord_iff {symbol : List Char} : IsWholeWord symbol
    ↔ (∃ c ∈ symbol.head?, isLetter c = true) ∧ ∀ c ∈ symbol, endsWord c = false :=
  ⟨fun h => ⟨h.starts, h.inside⟩, fun h => ⟨h.1, h.2⟩⟩

/-- A symbol that can be told from everything else: a sign, or a word that is not reserved. -/
def IsDistinct (symbol : String) : Prop :=
  IsSign symbol.toList ∨ IsWholeWord symbol.toList ∧ symbol ∉ reserved.map Prod.fst

instance : DecidablePred IsUnspaced := fun symbol =>
  List.decidableBAll (fun c => isBlank c = false ∧ c ≠ '\n') symbol.toList

instance : DecidablePred IsSign := fun symbol =>
  decidable_of_iff (symbol.head?.any (fun c => !isAlphanumeric c) = true) (by
    simp only [IsSign, Option.any_eq_true, Bool.not_eq_true', Option.mem_def])

instance : DecidablePred IsWholeWord := fun symbol =>
  decidable_of_iff (symbol.head?.any isLetter = true ∧ symbol.any endsWord = false) (by
    rw [isWholeWord_iff, Option.any_eq_true, List.any_eq_false]
    simp only [Option.mem_def, Bool.not_eq_true])

instance : DecidablePred IsDistinct := fun symbol =>
  inferInstanceAs (Decidable (IsSign symbol.toList ∨ IsWholeWord symbol.toList ∧ _))

variable {symbol cs tail : List Char} {kind : TokenKind}

/-! ### Signs -/

theorem isSign_of_startsRange (h : startsRange symbol cs) : IsSign symbol := by
  cases symbol with
  | nil => cases h
  | cons c symbol =>
    have hboth : (!isAlphanumeric c && (c :: symbol).isPrefixOf cs) = true := h
    exact ⟨c, rfl, by simpa using (Bool.and_eq_true_iff.mp hboth).1⟩

theorem startsRange_of_isSign (h : IsSign symbol) (tail : List Char) :
    startsRange symbol (symbol ++ tail) = true := by
  obtain ⟨c, hc, hsign⟩ := h
  cases symbol with
  | nil => cases hc
  | cons d symbol =>
    obtain rfl : d = c := Option.some.inj hc
    have hprefix : (d :: symbol).isPrefixOf (d :: symbol ++ tail) = true :=
      List.isPrefixOf_iff_prefix.mpr (List.prefix_append _ _)
    show (!isAlphanumeric d && (d :: symbol).isPrefixOf (d :: symbol ++ tail)) = true
    rw [hsign, hprefix]
    rfl

/-- **A sign is read** wherever it stands. -/
theorem readToken_of_isSign (h : IsSign symbol) (tail : List Char) :
    readToken symbol (symbol ++ tail) = (.ok (.range (String.ofList symbol)), tail) := by
  have hstarts := startsRange_of_isSign h tail
  cases hsymbol : symbol with
  | nil =>
    obtain ⟨c, hc, -⟩ := h
    rw [hsymbol] at hc
    cases hc
  | cons c rest =>
    rw [hsymbol] at hstarts
    rw [List.cons_append] at hstarts ⊢
    rw [readToken, if_pos hstarts, ← List.cons_append, List.drop_left]

/-! ### Words -/

/-- A word is not looked for as a sign. -/
theorem startsRange_of_isWholeWord (h : IsWholeWord symbol) (cs : List Char) :
    startsRange symbol cs = false := by
  rw [Bool.eq_false_iff]
  intro hstarts
  obtain ⟨c, hc, hletter⟩ := h.starts
  obtain ⟨d, hd, hsign⟩ := isSign_of_startsRange hstarts
  rw [Option.mem_unique hd hc, isAlphanumeric, hletter, Bool.true_or] at hsign
  cases hsign

/-- **A word is read as a whole**, and as what its class says. -/
theorem readToken_of_isWholeWord (h : IsWholeWord symbol) (htail : ∀ c ∈ tail.head?, endsWord c) :
    readToken symbol (symbol ++ tail)
      = (.ok (classify symbol (String.ofList symbol)), tail) := by
  obtain ⟨c, hc, hletter⟩ := h.starts
  refine readToken_of_spanWord ⟨c, hc, by rw [hletter, Bool.true_or]⟩ ?_
  exact spanWord_append_of_forall h.inside (fun _ _ => startsRange_of_isWholeWord h _) htail

theorem mem_reserved_iff {word : String} : (word, kind) ∈ reserved
    ↔ (∃ k : Keyword, k.spelling = word ∧ .keyword k = kind)
      ∨ (∃ o ∈ [Operator.divide, .modulo], o.symbol = word ∧ .operator o = kind)
      ∨ ∃ b, TokenKind.spellBoolean b = word ∧ .boolean b = kind := by
  have hboth : ∀ b : Bool, b ∈ [true, false] := by decide
  simp only [reserved, List.mem_append, List.mem_map, Prod.mk.injEq, Keyword.mem_all, hboth,
    true_and, or_assoc]

/-- **The class of a word** is what it is reserved for or, if it is not reserved, the range symbol
or a name. -/
theorem classify_cases (symbol : List Char) (word : String) :
    (word, classify symbol word) ∈ reserved
      ∨ word ∉ reserved.map Prod.fst
        ∧ classify symbol word
          = if word = String.ofList symbol then .range word else .identifier word := by
  rw [mem_reserved_iff]
  unfold classify
  split
  · rename_i k hkeyword
    exact .inl (.inl ⟨k, Keyword.ofWord?_eq_some_iff.mp hkeyword, rfl⟩)
  · rename_i hkeyword
    split
    · rename_i o hoperator
      have hsymbol : o.symbol = word := by simpa using List.find?_some hoperator
      exact .inl (.inr (.inl ⟨o, List.mem_of_find?_eq_some hoperator, hsymbol, rfl⟩))
    · rename_i hoperator
      split
      · rename_i htrue
        exact .inl (.inr (.inr ⟨true, htrue.symm, rfl⟩))
      · rename_i htrue
        split
        · rename_i hfalse
          exact .inl (.inr (.inr ⟨false, hfalse.symm, rfl⟩))
        · rename_i hfalse
          refine .inr ⟨fun hmem => ?_, rfl⟩
          obtain ⟨⟨_, kind⟩, hreserved, rfl⟩ := List.mem_map.mp hmem
          obtain ⟨k, hk, -⟩ | ⟨o, ho, hsymbol, -⟩ | ⟨b, hb, -⟩ := mem_reserved_iff.mp hreserved
          · rw [Keyword.ofWord?_eq_some_iff.mpr hk] at hkeyword
            cases hkeyword
          · have hnone := List.find?_eq_none.mp hoperator o ho
            exact hnone (decide_eq_true hsymbol)
          · cases b with
            | true => exact htrue hb.symm
            | false => exact hfalse hb.symm

/-- A reserved word stays what it is reserved for. -/
theorem classify_of_mem_reserved {word : String} (h : (word, kind) ∈ reserved) :
    classify symbol word = kind := by
  have hunique : ∀ p ∈ reserved, ∀ q ∈ reserved, p.1 = q.1 → p.2 = q.2 := by decide +kernel
  rcases classify_cases symbol word with hmem | ⟨hnot, -⟩
  · exact hunique _ hmem _ h rfl
  · exact absurd (List.mem_map_of_mem h) hnot

/-- A word is the range symbol exactly if it is spelled so and not reserved. -/
theorem classify_eq_range_iff {word name : String} : classify symbol word = .range name
    ↔ name = word ∧ word = String.ofList symbol ∧ word ∉ reserved.map Prod.fst := by
  rcases classify_cases symbol word with hmem | ⟨hnot, hclass⟩
  · have hreserved := List.mem_map_of_mem (f := Prod.fst) hmem
    refine iff_of_false (fun hclass => ?_) fun h => h.2.2 hreserved
    rw [hclass, mem_reserved_iff] at hmem
    simp at hmem
  · rw [hclass]
    split
    · rename_i hsame
      rw [TokenKind.range.injEq]
      exact ⟨fun hname => ⟨hname.symm, hsame, hnot⟩, fun h => h.1.symm⟩
    · rename_i hother
      exact iff_of_false nofun fun h => hother h.2.1

/-! ### No other symbol is read -/

/-- **What is read as the range symbol** can be told from everything else. -/
theorem isDistinct_of_readToken {symbol : String}
    (h : (readToken symbol.toList cs).1 = .ok (.range symbol)) : IsDistinct symbol := by
  cases hread : readToken symbol.toList cs with
  | mk outcome rest =>
    rw [hread] at h
    obtain rfl : outcome = .ok (.range symbol) := h
    have hrule := readBy_of_readToken hread
    generalize hkind : TokenKind.range symbol = kind at hrule
    cases hrule with
    | range hstarts => exact .inl (isSign_of_startsRange hstarts)
    | @word word _ hstart hspan =>
      obtain ⟨rfl, -, hfree⟩ := classify_eq_range_iff.mp hkind.symm
      obtain ⟨c, hc, hletter⟩ := hstart
      rw [IsDistinct, String.toList_ofList]
      rcases Bool.or_eq_true_iff.mp hletter with hletter | hunderscore
      · refine .inr ⟨⟨⟨c, hc, hletter⟩, fun d hd => ?_⟩, hfree⟩
        exact endsWord_eq_false_of_mem_spanWord (by rw [hspan]; exact hd)
      · obtain rfl := of_decide_eq_true hunderscore
        exact .inl ⟨'_', hc, by decide⟩
    | _ => cases hkind

/-- **A symbol that can be told from everything else is read** where a word would end behind it. -/
theorem readToken_of_isDistinct {symbol : String} (h : IsDistinct symbol)
    (htail : ∀ c ∈ tail.head?, endsWord c) :
    readToken symbol.toList (symbol.toList ++ tail) = (.ok (.range symbol), tail) := by
  rcases h with hsign | ⟨hword, hfree⟩
  · rw [readToken_of_isSign hsign, String.ofList_toList]
  · rw [readToken_of_isWholeWord hword htail, String.ofList_toList,
      classify_eq_range_iff.mpr ⟨rfl, String.ofList_toList.symm, hfree⟩]

/-- Reserved words are whole words, so they are read as what they are reserved for. -/
theorem readToken_of_mem_reserved {symbol : String} (h : (symbol, kind) ∈ reserved)
    (htail : ∀ c ∈ tail.head?, endsWord c) :
    readToken symbol.toList (symbol.toList ++ tail) = (.ok kind, tail) := by
  have hwords : ∀ p ∈ reserved, IsWholeWord p.1.toList := by decide +kernel
  rw [readToken_of_isWholeWord (hwords _ h) htail, String.ofList_toList, classify_of_mem_reserved h]

end Token

/-! ### On the last line -/

namespace Cursor

variable {c after : Cursor} {symbol : List Char} {kind : TokenKind} {token : Token}
  {tokens : List (Token × Cursor)} {last : Option Token}

/-- Reading a token leaves the cursor on its line. -/
theorem onLastLine_of_nextToken (h : c.nextToken symbol = (.ok (some token), after)) :
    after.onLastLine = c.onLastLine := by
  obtain ⟨gap, word, htakes⟩ := takes_of_nextToken h
  rw [htakes.moved]
  rfl

/-- Where only blanks are left of the last line, the text is over. -/
theorem nextToken_of_over (symbol : List Char) (hlast : c.onLastLine = true)
    (hrest : c.rest.dropWhile isBlank = []) : c.nextToken symbol = (.ok none, c.skipBlanks) := by
  refine nextToken_of_end ?_
  rw [atEndOfInput, atEndOfLine, rest_skipBlanks, hrest]
  exact hlast

/-- The kind of the next token is what is read behind the blanks. -/
theorem readToken_of_nextToken (h : c.nextToken symbol = (.ok (some token), after)) :
    (readToken symbol (c.rest.dropWhile isBlank)).1 = .ok token.kind := by
  cases hend : c.skipBlanks.atEndOfInput with
  | true =>
    rw [nextToken_of_end hend] at h
    cases h
  | false =>
    rw [nextToken_of_more hend, rest_skipBlanks] at h
    cases houtcome : (readToken symbol (c.rest.dropWhile isBlank)).1 with
    | error fault =>
      rw [houtcome] at h
      cases h
    | ok kind =>
      rw [houtcome] at h
      cases h
      rfl

/-- The first kind of a line that is read is that of the next token. -/
theorem ReadsLine.of_map_eq_cons {kinds : List TokenKind} (h : c.ReadsLine symbol tokens last)
    (hkinds : tokens.map (·.1.kind) = kind :: kinds) :
    ∃ token after tokens', c.nextToken symbol = (.ok (some token), after) ∧ token.kind = kind
      ∧ after.ReadsLine symbol tokens' last ∧ tokens'.map (·.1.kind) = kinds := by
  cases h with
  | ended => cases hkinds
  | token hnext _ hrest =>
    obtain ⟨hkind, hkinds⟩ := List.cons.inj hkinds
    exact ⟨_, _, _, hnext, hkind, hrest, hkinds⟩

end Cursor

/-! ### Between two numbers -/

namespace Token

variable {symbol : String} {kind : TokenKind}

/-- **Between two numbers**, set off by single spaces, the symbol is read as the given kind, and
nothing else is on the line. -/
def IsReadBetween (symbol : String) (kind : TokenKind) : Prop :=
  ∃ (tokens : List (Token × Cursor)) (two : Number),
    (Cursor.ofText ("1 " ++ symbol ++ " 2")).ReadsLine symbol.toList tokens none
      ∧ tokens.map (·.1.kind) = [.number .one, kind, .number two] ∧ two.val = 2

/-- The first number is read, and the symbol is left behind a space. -/
theorem nextToken_before_symbol (hpiece : IsUnspaced symbol) :
    ∃ token after, (Cursor.ofText ("1 " ++ symbol ++ " 2")).nextToken symbol.toList
        = (.ok (some token), after)
      ∧ token.kind = .number .one ∧ after.rest = ' ' :: (symbol.toList ++ [' ', '2'])
      ∧ after.onLastLine = true := by
  have hchars : ("1 " ++ symbol ++ " 2").toList
      = ['1'] ++ (' ' :: (symbol.toList ++ [' ', '2'])) := by
    rw [String.toList_append, String.toList_append, List.append_assoc]
    rfl
  have hone : IsOneLine ("1 " ++ symbol ++ " 2").toList := by
    have hfeed : '\n' ∉ symbol.toList := fun hmem => (hpiece _ hmem).2 rfl
    rw [hchars]
    constructor
    · simpa using hfeed
    · simp [List.getLast?_cons]
  have hread : readToken symbol.toList (['1'] ++ (' ' :: (symbol.toList ++ [' ', '2'])))
      = (.ok (.number .one), ' ' :: (symbol.toList ++ [' ', '2'])) :=
    readToken_digits (List.cons_ne_nil _ _) (List.forall_mem_singleton.mpr rfl) rfl
      (by rintro _ ⟨⟩; rfl)
  have hrest := (Cursor.rest_ofText hone).trans hchars
  obtain ⟨token, after, hnext, htoken, hafter⟩ :=
    Cursor.nextToken_of_readToken (by rw [hrest]; rfl) hread nofun
  refine ⟨token, after, hnext, htoken, hafter, ?_⟩
  rw [Cursor.onLastLine_of_nextToken hnext, Cursor.onLastLine, Cursor.ofText, hone.lines]
  rfl

/-- A symbol of no blanks is what the blanks in front of it leave. -/
theorem dropWhile_isBlank_symbol (hne : symbol ≠ "") (hpiece : IsUnspaced symbol) :
    (' ' :: (symbol.toList ++ [' ', '2'])).dropWhile isBlank = symbol.toList ++ [' ', '2'] := by
  rw [List.dropWhile_cons_of_pos (by decide)]
  cases hchars : symbol.toList with
  | nil => exact absurd (String.toList_eq_nil_iff.mp hchars) hne
  | cons c cs =>
    obtain ⟨hc, -⟩ := hpiece c (by rw [hchars]; exact List.mem_cons_self)
    exact List.dropWhile_cons_of_neg (Bool.eq_false_iff.mp hc)

/-- **What the symbol is read as between two numbers** is what it is read as in front of a space. -/
theorem isReadBetween_of_readToken (hpiece : IsUnspaced symbol)
    (hread : readToken symbol.toList (symbol.toList ++ [' ', '2']) = (.ok kind, [' ', '2']))
    (hkind : kind ≠ .endOfLine) : IsReadBetween symbol kind := by
  have hne : symbol ≠ "" := by
    rintro rfl
    cases hread
  -- The number, the symbol and the number are three steps, and the fourth one finds the end.
  obtain ⟨one, c₁, hone, hone', hrest, hlast⟩ := nextToken_before_symbol hpiece
  have hstart := dropWhile_isBlank_symbol hne hpiece
  obtain ⟨middle, c₂, hmiddle, hmiddle', hrest'⟩ :=
    Cursor.nextToken_of_readToken (by rw [hrest, hstart]) hread hkind
  have hdigit : readToken symbol.toList (['2'] ++ [])
      = (.ok (.number ⟨2, by decide, by decide⟩), []) :=
    readToken_digits (List.cons_ne_nil _ _) (List.forall_mem_singleton.mpr rfl) rfl
      (by rintro _ ⟨⟩)
  have hnumber : ∀ n, TokenKind.number n ≠ .endOfLine := by rintro _ ⟨⟩
  obtain ⟨two, c₃, htwo, htwo', hrest''⟩ :=
    Cursor.nextToken_of_readToken (c := c₂) (by rw [hrest']; rfl) hdigit (hnumber _)
  have hlast' : c₃.onLastLine = true := by
    rw [Cursor.onLastLine_of_nextToken htwo, Cursor.onLastLine_of_nextToken hmiddle, hlast]
  have hover := Cursor.nextToken_of_over symbol.toList hlast' (by rw [hrest'']; rfl)
  refine ⟨[(one, c₁), (middle, c₂), (two, c₃)], ⟨2, by decide, by decide⟩, ?_,
    by simp only [List.map, hone', hmiddle', htwo'], rfl⟩
  exact .token hone (hone' ▸ hnumber _) (.token hmiddle (hmiddle' ▸ hkind)
    (.token htwo (htwo' ▸ hnumber _) (.ended hover (by rintro _ ⟨⟩))))

theorem readToken_of_isReadBetween (hne : symbol ≠ "") (hpiece : IsUnspaced symbol)
    (h : IsReadBetween symbol kind) :
    (readToken symbol.toList (symbol.toList ++ [' ', '2'])).1 = .ok kind := by
  obtain ⟨one, c₁, hone, -, hrest, -⟩ := nextToken_before_symbol hpiece
  obtain ⟨tokens, _, hreads, hkinds, -⟩ := h
  obtain ⟨_, _, _, hone', -, hreads, hkinds⟩ := hreads.of_map_eq_cons hkinds
  cases hone'.symm.trans hone
  obtain ⟨middle, _, _, hmiddle, rfl, -, -⟩ := hreads.of_map_eq_cons hkinds
  have hread := Cursor.readToken_of_nextToken hmiddle
  rwa [hrest, dropWhile_isBlank_symbol hne hpiece] at hread

/-- A space and a number let every word end in front of them. -/
theorem endsWord_of_head? : ∀ c ∈ [' ', '2'].head?, endsWord c := by
  rintro _ ⟨⟩
  rfl

theorem isReadBetween_of_isDistinct (hpiece : IsUnspaced symbol) (h : IsDistinct symbol) :
    IsReadBetween symbol (.range symbol) :=
  isReadBetween_of_readToken hpiece (readToken_of_isDistinct h endsWord_of_head?) nofun

theorem isReadBetween_of_mem_reserved (hpiece : IsUnspaced symbol)
    (h : (symbol, kind) ∈ reserved) : IsReadBetween symbol kind := by
  have hkinds : ∀ p ∈ reserved, p.2 ≠ .endOfLine := by decide +kernel
  exact isReadBetween_of_readToken hpiece (readToken_of_mem_reserved h endsWord_of_head?)
    (hkinds _ h)

/-- **Where the symbol is read as the range symbol**: exactly if it can be told from everything
else. -/
theorem isReadBetween_range_iff (hne : symbol ≠ "") (hpiece : IsUnspaced symbol) :
    IsReadBetween symbol (.range symbol) ↔ IsDistinct symbol :=
  ⟨fun h => isDistinct_of_readToken (readToken_of_isReadBetween hne hpiece h),
    isReadBetween_of_isDistinct hpiece⟩

end Token

open Token

/-- **The range symbol is a token of its own** if it can be told from everything else: set off by
spaces between two numbers it is read as itself, and nothing else is read.  A reserved word in its
place stays what it is reserved for. -/
theorem range_symbol_is_a_token_of_its_own {symbol : String} (hpiece : IsUnspaced symbol) :
    (IsDistinct symbol → IsReadBetween symbol (.range symbol))
      ∧ ∀ kind, (symbol, kind) ∈ reserved → IsReadBetween symbol kind :=
  ⟨isReadBetween_of_isDistinct hpiece, fun _ => isReadBetween_of_mem_reserved hpiece⟩

/-- A symbol that starts like a comment, and one that is an operator. -/
theorem range_symbol_is_a_token_of_its_own_before_comments :
    IsReadBetween "#'1" (.range "#'1") ∧ IsReadBetween "mod" (.operator .modulo) :=
  ⟨(range_symbol_is_a_token_of_its_own (by decide +kernel)).1 (by decide +kernel),
    (range_symbol_is_a_token_of_its_own (by decide +kernel)).2 _ (by decide +kernel)⟩

/-- A reserved word, a word with a sign in it and a number are not read as the range symbol. -/
theorem not_every_range_symbol_is_a_token :
    (∀ symbol ∈ ["to", "od-do", "2"], symbol ≠ "" ∧ symbol.toList.any isWhiteSpace = false
        ∧ ¬ IsReadBetween symbol (.range symbol))
      ∧ IsReadBetween "to" (.keyword .to) := by
  have hsymbols : ∀ symbol ∈ ["to", "od-do", "2"], symbol ≠ ""
      ∧ symbol.toList.any isWhiteSpace = false ∧ IsUnspaced symbol ∧ ¬ IsDistinct symbol := by
    decide +kernel
  constructor
  · intro symbol hmem
    obtain ⟨hne, hwhite, hpiece, hmixed⟩ := hsymbols symbol hmem
    exact ⟨hne, hwhite, mt (isReadBetween_range_iff hne hpiece).mp hmixed⟩
  · obtain ⟨-, -, hpiece, -⟩ := hsymbols "to" List.mem_cons_self
    exact isReadBetween_of_mem_reserved hpiece (by decide +kernel)

end Tablica
