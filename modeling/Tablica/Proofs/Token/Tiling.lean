import Tablica.Proofs.Descent.Tokens
import Tablica.Proofs.Token.Rules

/-!
# The tokens tile their line

Asking for one token after the other moves the cursor over the line and leaves nothing out.

    c.rest  =  gap ++ (word ++ after.rest)        c ──token──▸ after

One step takes blanks and then the characters that spell the token, and the cursor stands directly
behind them.  So the steps of a whole line lie side by side: between two tokens there are blanks
only, positions grow, and what is left in the end is blank or, behind blanks, a comment.

* `Cursor.ReadsLine` — the tokens of a line, each with the cursor after it, and how the line ends;
* `Cursor.Takes`, `Cursor.takes_of_nextToken` — what one step takes off the line;
* `Cursor.Tile`, `Cursor.Tiles` — the same by positions, for a token and for a line;
* `tokens_tile_their_line` — the law.
-/

namespace Tablica

open Text Token

namespace Cursor

variable {c after : Cursor} {symbol word tail : List Char} {token : Token} {last : Option Token}
  {tokens : List (Token × Cursor)}

/-! ### Reading a line -/

/-- The tokens that are read one after the other up to the end of the line, each with the cursor
after it.  At the end there is a last token, which says that the line is over, or there is none
because the text is over. -/
inductive ReadsLine (symbol : List Char) :
    Cursor → List (Token × Cursor) → Option Token → Prop
  | ended {c after : Cursor} {last : Option Token} (h : c.nextToken symbol = (.ok last, after))
      (hlast : ∀ token ∈ last, token.kind = .endOfLine) : ReadsLine symbol c [] last
  | token {c after : Cursor} {token : Token} {tokens : List (Token × Cursor)} {last : Option Token}
      (h : c.nextToken symbol = (.ok (some token), after)) (hkind : token.kind ≠ .endOfLine)
      (hrest : ReadsLine symbol after tokens last) :
      ReadsLine symbol c ((token, after) :: tokens) last

/-! ### One step -/

/-- The cursor so many characters further to the right. -/
def advance (c : Cursor) (count : Nat) : Cursor :=
  { c with column := c.column + count }

theorem rest_advance (h : c.rest = word ++ tail) : (c.advance word.length).rest = tail := by
  have hdrop : (c.advance word.length).rest = c.rest.drop word.length := by
    simp only [rest, advance, chars, List.drop_drop]
  rw [hdrop, h, List.drop_left]

theorem leaving_eq_advance (h : c.rest = word ++ tail) :
    c.leaving tail = c.advance word.length := by
  simp only [leaving, skip, advance, h, List.length_append]
  congr 2
  omega

/-- The characters behind the cursor are those of the line from its column on. -/
theorem extract_chars (h : c.rest = word ++ tail) :
    c.chars.extract c.column (c.column + word.length) = word := by
  have hrest : c.chars.drop c.column = word ++ tail := h
  rw [List.extract, hrest, Nat.add_sub_cancel_left, List.take_left]

theorem column_add_length_le (h : c.rest = word ++ tail) (hne : word ≠ []) :
    c.column + word.length ≤ c.chars.length := by
  have hlength : c.chars.length - c.column = word.length + tail.length := by
    rw [← List.length_append, ← h, rest, List.length_drop]
  have hpos := List.length_pos_iff.mpr hne
  omega

/-- What reading a token takes off the line: blanks, and then the characters of the token. -/
structure Takes (symbol : List Char) (c : Cursor) (token : Token) (after : Cursor)
    (gap word : List Char) : Prop where
  rest : c.rest = gap ++ (word ++ after.rest)
  blank : ∀ b ∈ gap, isBlank b = true
  position : token.position = (c.advance gap.length).position
  moved : after = (c.advance gap.length).advance word.length
  read : readToken symbol (word ++ after.rest) = (.ok token.kind, after.rest)

/-- **A token that is read takes blanks and its own characters.** -/
theorem takes_of_nextToken (h : c.nextToken symbol = (.ok (some token), after)) :
    ∃ gap word, c.Takes symbol token after gap word := by
  have hblanks : c.rest = c.rest.takeWhile isBlank ++ c.rest.dropWhile isBlank :=
    List.takeWhile_append_dropWhile.symm
  have hskip : c.skipBlanks = c.advance (c.rest.takeWhile isBlank).length :=
    leaving_eq_advance hblanks
  cases hend : c.skipBlanks.atEndOfInput with
  | true =>
    rw [nextToken_of_end hend] at h
    cases h
  | false =>
    rw [nextToken_of_more hend, rest_skipBlanks, hskip] at h
    obtain ⟨word, hword⟩ := readToken_suffix symbol (c.rest.dropWhile isBlank)
    obtain ⟨houtcome, hafter⟩ := Prod.mk.inj h
    cases hread : readToken symbol (c.rest.dropWhile isBlank) with
    | mk outcome rest =>
      rw [hread] at houtcome hafter hword
      cases outcome with
      | error fault => cases houtcome
      | ok kind =>
        obtain rfl : ⟨kind, (c.advance (c.rest.takeWhile isBlank).length).position⟩ = token :=
          Option.some.inj (Except.ok.inj houtcome)
        have hadvance : (c.advance (c.rest.takeWhile isBlank).length).rest = word ++ rest :=
          (rest_advance hblanks).trans hword.symm
        rw [leaving_eq_advance hadvance] at hafter
        subst hafter
        refine ⟨c.rest.takeWhile isBlank, word, ?_, fun _ hb => List.mem_takeWhile_imp hb, rfl, rfl,
          ?_⟩
        · rw [rest_advance hadvance, hword]
          exact hblanks
        · rw [rest_advance hadvance, hword]
          exact hread

/-- There is no token only where blanks alone are left. -/
theorem rest_of_nextToken_eq_none (h : c.nextToken symbol = (.ok none, after)) :
    c.rest.dropWhile isBlank = [] := by
  cases hend : c.skipBlanks.atEndOfInput with
  | true =>
    have hempty : c.skipBlanks.rest.isEmpty = true := (Bool.and_eq_true_iff.mp hend).1
    rw [← rest_skipBlanks]
    exact List.isEmpty_iff.mp hempty
  | false =>
    rw [nextToken_of_more hend] at h
    cases houtcome : (readToken symbol c.skipBlanks.rest).1 with
    | error fault =>
      rw [houtcome] at h
      cases h
    | ok kind =>
      rw [houtcome] at h
      cases h

/-- What is read is no empty row of characters, unless the line is over. -/
theorem Takes.ne_nil {gap : List Char} (h : c.Takes symbol token after gap word)
    (hkind : token.kind ≠ .endOfLine) : word ≠ [] := by
  rintro rfl
  have hread : readToken symbol after.rest = (.ok token.kind, after.rest) := h.read
  cases hrest : after.rest with
  | nil =>
    rw [hrest] at hread
    exact hkind (Except.ok.inj (Prod.mk.inj hread).1).symm
  | cons d tail =>
    rw [hrest] at hread
    rcases readToken_length_lt symbol d tail with hlt | herror
    · rw [hread] at hlt
      exact Nat.lt_irrefl _ hlt
    · rw [hread] at herror
      cases herror

/-- Where a line is over, at most a comment is left behind the blanks. -/
theorem ReadsLine.rest_of_ended (h : c.ReadsLine symbol [] last) :
    ∃ blanks comment, c.rest = blanks ++ comment ∧ (∀ b ∈ blanks, isBlank b = true)
      ∧ (∀ d ∈ comment.head?, d = '#')
      ∧ ∀ token ∈ last, token.position = (c.advance blanks.length).position := by
  cases h with
  | ended h hlast =>
    cases last with
    | none =>
      have hblank := List.dropWhile_eq_nil_iff.mp (rest_of_nextToken_eq_none h)
      refine ⟨c.rest, [], (List.append_nil _).symm, hblank, ?_, ?_⟩
      · rintro _ ⟨⟩
      · rintro _ ⟨⟩
    | some token =>
      obtain ⟨gap, word, htakes⟩ := takes_of_nextToken h
      have hread := htakes.read
      rw [hlast token rfl] at hread
      refine ⟨gap, _, htakes.rest, htakes.blank, (readBy_of_readToken hread).of_endOfLine, ?_⟩
      rintro _ ⟨⟩
      exact htakes.position

/-! ### Tiles -/

/-- How a token lies on its line between the cursor before it and the cursor after it.  There are
only blanks in front of it, and its own characters up to the second cursor.  A number goes on up to
its last digit, and where any other token ends no row of digits is cut, but for the range
symbol. -/
structure Tile (symbol : List Char) (c : Cursor) (token : Token) (after : Cursor) : Prop where
  line : token.position.line = c.line + 1
  stays : after = { c with column := after.column }
  starts : c.column < token.position.column
  ends : token.position.column ≤ after.column
  within : after.column ≤ c.chars.length
  blank : ∀ b ∈ c.chars.extract c.column (token.position.column - 1), isBlank b = true
  spelled : token.kind.IsSpelled symbol (c.chars.extract (token.position.column - 1) after.column)
  maximal : ∀ n, token.kind = .number n → ∀ d ∈ after.rest.head?, d.isDigit = false
  uncut : token.kind ≠ .range (String.ofList symbol) →
    (∃ d ∈ (c.chars.extract (token.position.column - 1) after.column).getLast?, d.isDigit) →
      ∀ d ∈ after.rest.head?, d.isDigit = false

theorem Takes.tile {gap : List Char} (h : c.Takes symbol token after gap word)
    (hkind : token.kind ≠ .endOfLine) : c.Tile symbol token after := by
  have hne : word ≠ [] := h.ne_nil hkind
  obtain ⟨hrest, hblank, hposition, hmoved, hread⟩ := h
  have hrule := readBy_of_readToken hread
  have hgap : (c.advance gap.length).rest = word ++ after.rest := rest_advance hrest
  have hchars : c.chars.extract (token.position.column - 1) after.column = word := by
    rw [hposition, hmoved]
    exact extract_chars hgap
  have hlength := List.length_pos_iff.mpr hne
  have hcolumn : after.column = c.column + gap.length + word.length := by rw [hmoved]; rfl
  have hstart : token.position.column = c.column + gap.length + 1 := by rw [hposition]; rfl
  have huncut : token.kind ≠ .range (String.ofList symbol) → (∃ d ∈ word.getLast?, d.isDigit) →
      ∀ d ∈ after.rest.head?, d.isDigit = false := hrule.isDigit_eq_false
  constructor
  · rw [hposition]
    rfl
  · rw [hmoved]
    rfl
  · omega
  · omega
  · rw [hcolumn]
    exact column_add_length_le hgap hne
  · rw [hposition]
    rwa [show (c.advance gap.length).position.column - 1 = c.column + gap.length from rfl,
      extract_chars hrest]
  · rw [hchars]
    exact hrule.isSpelled
  · intro n hn
    refine huncut (by rw [hn]; nofun) ?_
    have hspelled : (TokenKind.number n).IsSpelled symbol word := hn ▸ hrule.isSpelled
    exact ⟨_, List.getLast?_eq_some_getLast hne, hspelled.2.1 _ (List.getLast_mem hne)⟩
  · rwa [hchars]

/-- The tokens lie side by side on the line from the cursor on, each where the one before it ends
or behind blanks.  What is left is blank or, behind blanks, a comment, and there the last token
lies. -/
def Tiles (symbol : List Char) (last : Option Token) : Cursor → List (Token × Cursor) → Prop
  | c, (token, after) :: tokens => c.Tile symbol token after ∧ after.Tiles symbol last tokens
  | c, [] => ∃ blanks comment, c.rest = blanks ++ comment ∧ (∀ b ∈ blanks, isBlank b = true)
      ∧ (∀ d ∈ comment.head?, d = '#')
      ∧ ∀ token ∈ last, token.position = (c.advance blanks.length).position

theorem ReadsLine.tiles (h : c.ReadsLine symbol tokens last) : c.Tiles symbol last tokens := by
  -- Each step leaves a cursor from which the other steps tile what is left of the line.
  induction h with
  | ended h hlast => exact (ReadsLine.ended h hlast).rest_of_ended
  | token h hkind _ ih =>
    obtain ⟨gap, word, htakes⟩ := takes_of_nextToken h
    exact ⟨htakes.tile hkind, ih⟩

/-- All tokens of the line, the last one among them, stand on it behind the cursor, each further to
the right than those before it. -/
theorem Tiles.positions (h : c.Tiles symbol last tokens) :
    (∀ token ∈ tokens.map Prod.fst ++ last.toList,
        token.position.line = c.line + 1 ∧ c.column < token.position.column)
      ∧ (tokens.map Prod.fst ++ last.toList).Pairwise fun s t =>
          s.position.column < t.position.column := by
  induction tokens generalizing c with
  | nil =>
    obtain ⟨blanks, -, -, -, -, hlast⟩ := h
    have hposition : ∀ token ∈ last.toList,
        token.position.line = c.line + 1 ∧ c.column < token.position.column := by
      intro token htoken
      rw [hlast token (Option.mem_toList.mp htoken)]
      exact ⟨rfl, Nat.lt_succ_of_le (Nat.le_add_right _ _)⟩
    refine ⟨hposition, ?_⟩
    cases last with
    | none => exact .nil
    | some token => exact List.pairwise_singleton _ _
  | cons first tokens ih =>
    obtain ⟨token, after⟩ := first
    obtain ⟨htile, hrest⟩ := h
    obtain ⟨hpositions, hpairs⟩ := ih hrest
    have hline : after.line = c.line := by rw [htile.stays]
    have hends := htile.ends
    have hstarts := htile.starts
    constructor
    · intro t ht
      rcases List.mem_cons.mp ht with rfl | ht
      · exact ⟨htile.line, hstarts⟩
      · obtain ⟨htline, htcolumn⟩ := hpositions t ht
        exact ⟨htline.trans (by rw [hline]), by omega⟩
    · refine .cons (fun t ht => ?_) hpairs
      have htcolumn := (hpositions t ht).2
      show token.position.column < t.position.column
      omega

end Cursor

/-- **The tokens of a line tile it.**  Where a line is read to its end without a fault, positions
grow from token to token, only blanks lie between the end of one token and the start of the next,
and the characters from the position of a token to the cursor after it are a spelling of its kind.
A number goes on up to its last digit, and a digit directly in front of it can only belong to the
range symbol.  What follows the last token is blank or, behind blanks, a comment. -/
theorem tokens_tile_their_line {c : Cursor} {symbol : List Char} {tokens : List (Token × Cursor)}
    {last : Option Token} (h : c.ReadsLine symbol tokens last) :
    c.Tiles symbol last tokens
      ∧ (∀ token ∈ tokens.map Prod.fst ++ last.toList, token.position.line = c.line + 1)
      ∧ (tokens.map Prod.fst ++ last.toList).Pairwise fun s t =>
          s.position.column < t.position.column := by
  obtain ⟨hpositions, hpairs⟩ := h.tiles.positions
  exact ⟨h.tiles, fun token htoken => (hpositions token htoken).1, hpairs⟩

/-- An assignment with its second sign, a range symbol that ends with a digit, a number directly
behind it, and a comment. -/
theorem tokens_tile_their_line_with_comment :
    let c := Cursor.ofText "x<-.512 # y"
    let tokens : List (Token × Cursor) := [(⟨.identifier "x", 1, 1⟩, c.advance 1),
      (⟨.punctuator .assignment, 1, 2⟩, c.advance 3), (⟨.range ".5", 1, 4⟩, c.advance 5),
      (⟨.number ⟨12, by decide, by decide⟩, 1, 6⟩, c.advance 7)]
    let last : Option Token := some ⟨.endOfLine, 1, 9⟩
    c.ReadsLine ".5".toList tokens last ∧ c.Tiles ".5".toList last tokens := by
  intro c tokens last
  have hover : (c.advance 7).nextToken ".5".toList = (.ok last, c.advance 11) := by decide +kernel
  have hreads : c.ReadsLine ".5".toList tokens last :=
    .token (by decide +kernel) nofun (.token (by decide +kernel) nofun
      (.token (by decide +kernel) nofun (.token (by decide +kernel) nofun
        (.ended hover fun token htoken => by rw [← Option.some.inj htoken]))))
  exact ⟨hreads, (tokens_tile_their_line hreads).1⟩

end Tablica
