import Mathlib.Data.List.Forall2
import Tablica.Proofs.Source.Edits
import Tablica.Proofs.Syntax.Rendering
import Tablica.Proofs.Token.Tiling

/-!
# Lexing undoes spelling

The tokens of a line can be written down again, each in a canonical spelling and with one space
between two of them, and reading that line gives the same kinds again.

     x<-007#…   ──read──▸   x  :=  7   ──write──▸   "x := 7"   ──read──▸   x  :=  7

What stands behind a token is another character now, so the place where it ends has to be the same
for another reason.  A space ends every token, and no spelling holds one before its end, but for a
text, which ends with its own mark.  A name is the one kind that could turn into another: it is
what is left of a word, cut where the range symbol begins, so the range symbol is not in it.

* `TokenKind.IsCanonical` — canonical spellings, `TokenKind.exists_canonical` — that there are some;
* `IsReadAs`, `isReadAs_of_isCanonical` — what a canonical spelling is read as before a space;
* `Cursor.exists_readsLine` — spellings with spaces between them, one after the other;
* `isUnbroken_of_isSpelled` — respelling breaks no line;
* `lexing_undoes_spelling` — the law.
-/

namespace Tablica

open Text Token

/-- A spelling in which a line is written down: numbers are decimal without leading zeros, there is
one sign for an assignment, and a text stands in a quotation mark that it does not hold. -/
structure TokenKind.IsCanonical (kind : TokenKind) (spelling : List Char) : Prop where
  spelled : kind.IsSpelled defaultRange spelling
  decimal : ∀ n, kind = .number n → spelling = n.shown.toList
  sign : kind = .punctuator .assignment → spelling = ":=".toList

namespace TokenKind

variable {kind : TokenKind} {spelling : List Char}

theorem isCanonical_of_isSpelled (h : kind.IsSpelled defaultRange spelling)
    (hnumber : ∀ n, kind ≠ .number n) (hsign : kind ≠ .punctuator .assignment) :
    kind.IsCanonical spelling :=
  ⟨h, fun n hn => absurd hn (hnumber n), fun hkind => absurd hkind hsign⟩

theorem isCanonical_number {n : Number} {k : Nat} (hn : n.val = k) :
    (number n).IsCanonical n.shown.toList := by
  have hspelled : (number n).IsSpelled defaultRange n.shown.toList := by
    rw [toList_shown hn]
    exact isSpelled_of_digits (ofDigits?_toDigits hn)
  refine ⟨hspelled, ?_, ?_⟩
  · rintro _ ⟨⟩
    rfl
  · rintro ⟨⟩

theorem isCanonical_punctuator (p : Punctuator) :
    (punctuator p).IsCanonical p.symbol.toList := by
  refine ⟨.inl rfl, ?_, ?_⟩
  · rintro _ ⟨⟩
  · rintro ⟨⟩
    rfl

/-- What has a spelling has a canonical one. -/
theorem exists_canonical (h : kind.IsSpelled defaultRange spelling) :
    ∃ spelling', kind.IsCanonical spelling' := by
  cases kind with
  | number n => exact ⟨_, isCanonical_number h.2.2⟩
  | punctuator p => exact ⟨_, isCanonical_punctuator p⟩
  | _ => exact ⟨spelling, isCanonical_of_isSpelled h (fun _ => nofun) nofun⟩

end TokenKind

namespace Token

variable {kind : TokenKind} {spelling cs rest : List Char}

/-! ### Each spelling on its own -/

/-- **Read as a kind**: whatever stands behind the spelling, if it is set off by a space. -/
def IsReadAs (kind : TokenKind) (spelling : List Char) : Prop :=
  ∀ tail : List Char, (∀ c ∈ tail.head?, c = ' ') →
    readToken defaultRange (spelling ++ tail) = (.ok kind, tail)

theorem isReadAs_of_isWord (hword : IsWord spelling)
    (hkind : classify defaultRange (String.ofList spelling) = kind) : IsReadAs kind spelling := by
  intro tail htail
  rw [readToken_word hword (endsWord_of_eq_space htail), hkind]

/-- A word that is read off a line starts no range symbol anywhere. -/
theorem not_infix_spanWord (cs : List Char) : ¬ defaultRange <:+: (spanWord defaultRange cs).1 := by
  have hempty : ¬ defaultRange <:+: [] := by decide
  induction cs with
  | nil => exact hempty
  | cons c cs ih =>
    simp only [spanWord]
    split
    · exact hempty
    · rename_i hgoes
      intro hinfix
      rcases List.infix_cons_iff.mp hinfix with hprefix | hinfix
      · have hstarts : startsRange defaultRange (c :: cs) = true := by
          have happend := spanWord_append defaultRange cs
          have hfront : defaultRange <+: c :: cs := by
            rw [← happend]
            exact hprefix.trans (List.prefix_append _ _)
          exact List.isPrefixOf_iff_prefix.mpr hfront
        exact hgoes (by rw [hstarts, Bool.or_true])
      · exact ih hinfix

/-- A name that has been read is a word, and a name wherever it stands alone. -/
theorem isReadAs_of_readBy_identifier {name : String}
    (h : ReadBy defaultRange cs (.identifier name) rest) :
    IsReadAs (.identifier name) name.toList := by
  generalize hkind : TokenKind.identifier name = kind at h
  cases h with
  | @word word _ hstart hspan =>
    obtain rfl := eq_of_classify_eq_identifier hkind.symm
    have hfirst : (spanWord defaultRange (word ++ rest)).1 = word := by rw [hspan]
    have hword : IsWord word := by
      refine ⟨hstart, fun c hc => ?_, ?_⟩
      · exact endsWord_eq_false_of_mem_spanWord (hfirst.symm ▸ hc)
      · exact hfirst ▸ not_infix_spanWord (word ++ rest)
    rw [String.toList_ofList]
    exact isReadAs_of_isWord hword rfl
  | _ => cases hkind

theorem isReadAs_of_isCanonical_text {s : String} (h : (TokenKind.text s).IsCanonical spelling) :
    IsReadAs (.text s) spelling := by
  obtain ⟨quote, hquote, hnot, rfl⟩ := h.spelled
  intro tail _
  rw [List.cons_append, List.append_assoc, List.singleton_append]
  exact readToken_text hquote hnot

/-- **A canonical spelling is read as its kind** where a space or nothing follows, if it is the kind
of a token that has been read. -/
theorem isReadAs_of_isCanonical (h : ReadBy defaultRange cs kind rest) (hkind : kind ≠ .endOfLine)
    (hspelling : kind.IsCanonical spelling) : IsReadAs kind spelling := by
  cases kind with
  | keyword k =>
    have hall : ∀ k ∈ Keyword.all, IsWord k.spelling.toList
        ∧ classify defaultRange (String.ofList k.spelling.toList) = .keyword k := by decide +kernel
    obtain rfl : spelling = k.spelling.toList := hspelling.spelled
    exact isReadAs_of_isWord (hall k k.mem_all).1 (hall k k.mem_all).2
  | identifier name =>
    obtain rfl : spelling = name.toList := hspelling.spelled
    exact isReadAs_of_readBy_identifier h
  | number n =>
    rw [hspelling.decimal n rfl]
    obtain ⟨token, -, -, -, hval⟩ := h.exists_spelling
    intro tail htail
    refine readToken_number (by rw [hval]; exact Int.natCast_nonneg _) fun c hc => ?_
    rw [htail c hc]
    rfl
  | boolean b =>
    obtain rfl : spelling = (TokenKind.spellBoolean b).toList := hspelling.spelled
    exact fun tail htail => readToken_boolean b (endsWord_of_eq_space htail)
  | text s => exact isReadAs_of_isCanonical_text hspelling
  | operator o =>
    obtain rfl : spelling = o.symbol.toList := hspelling.spelled
    exact fun tail htail => readToken_operator o htail
  | punctuator p =>
    cases p with
    | assignment =>
      rw [hspelling.sign rfl]
      exact fun tail _ => rfl
    | _ =>
      obtain rfl := hspelling.spelled.resolve_right nofun
      exact fun tail _ => readToken_punctuator rfl
  | range s =>
    obtain ⟨rfl, rfl⟩ := hspelling.spelled
    exact fun tail _ => rfl
  | endOfLine => exact absurd rfl hkind

/-! ### One after the other -/

/-- The first of several spellings, with whatever stands behind it. -/
theorem exists_intercalate_cons (spelling : List Char) (spellings : List (List Char)) :
    ∃ tail, [' '].intercalate (spelling :: spellings) = spelling ++ tail
      ∧ (∀ c ∈ tail.head?, c = ' ')
      ∧ tail.dropWhile isBlank = ([' '].intercalate spellings).dropWhile isBlank := by
  cases spellings with
  | nil =>
    refine ⟨[], ?_, nofun, rfl⟩
    rw [List.intercalate_singleton, List.append_nil]
  | cons next spellings =>
    refine ⟨' ' :: [' '].intercalate (next :: spellings), ?_, ?_, rfl⟩
    · rw [List.intercalate_cons_cons, List.append_assoc]
      rfl
    · rintro c ⟨⟩
      rfl

theorem mem_intercalate {c : Char} {spellings : List (List Char)}
    (h : c ∈ [' '].intercalate spellings) : c = ' ' ∨ ∃ spelling ∈ spellings, c ∈ spelling := by
  induction spellings with
  | nil => cases h
  | cons spelling spellings ih =>
    cases spellings with
    | nil =>
      rw [List.intercalate_singleton] at h
      exact .inr ⟨spelling, List.mem_cons_self, h⟩
    | cons next spellings =>
      rw [List.intercalate_cons_cons, List.mem_append, List.mem_append, List.mem_singleton] at h
      rcases h with (hfirst | hspace) | hrest
      · exact .inr ⟨spelling, List.mem_cons_self, hfirst⟩
      · exact .inl hspace
      · obtain hspace | ⟨other, hother, hc⟩ := ih hrest
        · exact .inl hspace
        · exact .inr ⟨other, List.mem_cons_of_mem _ hother, hc⟩

/-- What is read as a token starts with no blank. -/
theorem dropWhile_isBlank_of_readToken (h : readToken defaultRange cs = (.ok kind, rest)) :
    cs.dropWhile isBlank = cs := by
  cases cs with
  | nil => rfl
  | cons c cs =>
    exact List.dropWhile_cons_of_neg (Bool.eq_false_iff.mp (isBlank_eq_false_of_readToken h))

end Token

namespace Cursor

variable {c : Cursor} {symbol word tail : List Char} {kind : TokenKind}

/-- A token that can be read behind the blanks is the next one. -/
theorem nextToken_of_readToken (hrest : c.rest.dropWhile isBlank = word)
    (hread : readToken symbol word = (.ok kind, tail)) (hkind : kind ≠ .endOfLine) :
    ∃ token after, c.nextToken symbol = (.ok (some token), after) ∧ token.kind = kind
      ∧ after.rest = tail := by
  have hskip : c.skipBlanks.rest = word := rest_skipBlanks.trans hrest
  have hmore : c.skipBlanks.atEndOfInput = false := by
    rw [atEndOfInput, atEndOfLine, hskip]
    cases word with
    | nil => exact absurd (Except.ok.inj (Prod.mk.inj hread).1).symm hkind
    | cons => rfl
  refine ⟨⟨kind, c.skipBlanks.position⟩, c.skipBlanks.leaving tail, ?_, rfl, ?_⟩
  · rw [nextToken_of_more hmore, hskip, hread]
    rfl
  · refine rest_leaving ?_
    have hsuffix := readToken_suffix symbol word
    rwa [hread, ← hskip] at hsuffix

/-- Where only blanks are left, the line is over. -/
theorem nextToken_of_blank (symbol : List Char) (hrest : c.rest.dropWhile isBlank = []) :
    ∃ last after, c.nextToken symbol = (.ok last, after)
      ∧ ∀ token ∈ last, token.kind = .endOfLine := by
  have hskip : c.skipBlanks.rest = [] := rest_skipBlanks.trans hrest
  cases hend : c.skipBlanks.atEndOfInput with
  | true =>
    refine ⟨none, _, nextToken_of_end hend, ?_⟩
    rintro _ ⟨⟩
  | false =>
    refine ⟨some ⟨.endOfLine, c.skipBlanks.position⟩, c.skipBlanks.leaving [], ?_, ?_⟩
    · rw [nextToken_of_more hend, hskip]
      rfl
    · rintro _ ⟨⟩
      rfl

/-- **Spellings in a row are read one after the other.** -/
theorem exists_readsLine {kinds : List TokenKind} {spellings : List (List Char)}
    (h : List.Forall₂ (fun kind spelling => kind ≠ .endOfLine ∧ IsReadAs kind spelling)
      kinds spellings)
    (hrest : c.rest.dropWhile isBlank = ([' '].intercalate spellings).dropWhile isBlank) :
    ∃ tokens last, c.ReadsLine defaultRange tokens last ∧ tokens.map (·.1.kind) = kinds := by
  -- The invariant: but for blanks in front, what is left of the line is what is left of the
  -- spellings.
  induction h generalizing c with
  | nil =>
    obtain ⟨last, after, hnext, hlast⟩ := nextToken_of_blank defaultRange hrest
    exact ⟨[], last, .ended hnext hlast, rfl⟩
  | @cons kind spelling kinds spellings hfirst _ ih =>
    obtain ⟨hkind, hread⟩ := hfirst
    obtain ⟨tail, hsplit, htail, hblank⟩ := exists_intercalate_cons spelling spellings
    have hread := hread tail htail
    rw [hsplit, dropWhile_isBlank_of_readToken hread] at hrest
    obtain ⟨token, after, hnext, rfl, hafter⟩ := nextToken_of_readToken hrest hread hkind
    obtain ⟨tokens, last, hreads, hkinds⟩ := ih (by rw [hafter, hblank])
    exact ⟨(token, after) :: tokens, last, .token hnext hkind hreads, by rw [List.map_cons, hkinds]⟩

end Cursor

/-! ### The kinds of a line -/

namespace Token

variable {kind : TokenKind} {token spelling line : List Char}

/-- A kind of the line: one that its characters are read as, other than its end. -/
structure IsOnLine (line : List Char) (kind : TokenKind) : Prop where
  goes : kind ≠ .endOfLine
  read : ∃ token rest, ReadBy defaultRange (token ++ rest) kind rest ∧ token ⊆ line

/-- The tokens that are read are kinds of the line. -/
theorem isOnLine_of_readsLine {c : Cursor} {tokens : List (Token × Cursor)} {last : Option Token}
    (h : c.ReadsLine defaultRange tokens last) :
    ∀ kind ∈ tokens.map (·.1.kind), IsOnLine c.rest kind := by
  induction h with
  | ended =>
    intro kind hmem
    cases hmem
  | @token c after token tokens last h hkind _ ih =>
    obtain ⟨gap, word, htakes⟩ := Cursor.takes_of_nextToken h
    have hword : word ⊆ c.rest := by
      rw [htakes.rest]
      exact fun d hd => List.mem_append_right _ (List.mem_append_left _ hd)
    have hafter : after.rest ⊆ c.rest := by
      rw [htakes.rest]
      exact fun d hd => List.mem_append_right _ (List.mem_append_right _ hd)
    intro kind hmem
    rcases List.mem_cons.mp hmem with rfl | hmem
    · exact ⟨hkind, word, after.rest, readBy_of_readToken htakes.read, hword⟩
    · obtain ⟨hgoes, token', rest', hrule, hsubset⟩ := ih kind hmem
      exact ⟨hgoes, token', rest', hrule, List.Subset.trans hsubset hafter⟩

/-- Kinds of a line can be spelled. -/
theorem exists_canonical_spellings {kinds : List TokenKind}
    (h : ∀ kind ∈ kinds, IsOnLine line kind) :
    ∃ spellings, List.Forall₂ TokenKind.IsCanonical kinds spellings := by
  induction kinds with
  | nil => exact ⟨[], .nil⟩
  | cons kind kinds ih =>
    obtain ⟨hfirst, hrest⟩ := List.forall_mem_cons.mp h
    obtain ⟨token, rest, hrule, -⟩ := hfirst.read
    obtain ⟨spelling, hspelling⟩ := TokenKind.exists_canonical hrule.isSpelled
    obtain ⟨spellings, hspellings⟩ := ih hrest
    exact ⟨spelling :: spellings, .cons hspelling hspellings⟩

/-- One spelling holds a line break only if every other one does. -/
theorem isUnbroken_of_isSpelled (hkind : kind ≠ .endOfLine)
    (htoken : kind.IsSpelled defaultRange token) (hspelling : kind.IsSpelled defaultRange spelling)
    (h : ∀ c ∈ token, c ≠ '\n' ∧ c ≠ '\r') : ∀ c ∈ spelling, c ≠ '\n' ∧ c ≠ '\r' := by
  cases kind with
  | number n =>
    intro c hc
    have hdigit := hspelling.2.1 c hc
    constructor
    · rintro rfl
      cases hdigit
    · rintro rfl
      cases hdigit
  | text s =>
    obtain ⟨quote, -, -, rfl⟩ := htoken
    obtain ⟨quote', hquote', -, rfl⟩ := hspelling
    have hmark : quote' ≠ '\n' ∧ quote' ≠ '\r' := by
      rcases hquote' with rfl | rfl <;> decide
    intro c hc
    rcases List.mem_cons.mp hc with rfl | hc
    · exact hmark
    · rcases List.mem_append.mp hc with hs | hlast
      · exact h c (List.mem_cons_of_mem _ (List.mem_append_left _ hs))
      · rwa [List.mem_singleton.mp hlast]
  | punctuator p =>
    rcases hspelling with rfl | ⟨rfl, rfl⟩
    · refine List.all_iff_forall_prop.mp ?_
      cases p <;> decide
    · exact List.all_iff_forall_prop.mp (by decide)
  | range s =>
    obtain ⟨-, rfl⟩ := hspelling
    exact List.all_iff_forall_prop.mp (by decide)
  | endOfLine => exact absurd rfl hkind
  | _ =>
    obtain rfl := htoken.trans hspelling.symm
    exact h

/-- Spellings of kinds of a line make a line. -/
theorem isOneLine_intercalate {kinds : List TokenKind} {spellings : List (List Char)}
    (h : List.Forall₂ (fun kind spelling => IsOnLine line kind ∧ kind.IsCanonical spelling)
      kinds spellings)
    (hline : ∀ c ∈ line, c ≠ '\n' ∧ c ≠ '\r') : IsOneLine ([' '].intercalate spellings) := by
  have hspellings : ∀ spelling ∈ spellings, ∀ c ∈ spelling, c ≠ '\n' ∧ c ≠ '\r' := by
    induction h with
    | nil => nofun
    | @cons kind spelling kinds spellings hfirst _ ih =>
      obtain ⟨⟨hgoes, token, rest, hrule, hsubset⟩, hcanonical⟩ := hfirst
      refine List.forall_mem_cons.mpr ⟨?_, ih⟩
      exact isUnbroken_of_isSpelled hgoes hrule.isSpelled hcanonical.spelled
        fun c hc => hline c (hsubset hc)
  refine .of_forall fun c hc => ?_
  rcases mem_intercalate hc with rfl | ⟨spelling, hspelling, hmem⟩
  · decide
  · exact hspellings spelling hspelling c hmem

end Token

/-- What is left of a line holds no line feed. -/
theorem Cursor.lineFeed_not_mem_rest {c : Cursor} {text : String}
    (hlines : c.lines = Source.lines text) : '\n' ∉ c.rest := by
  have hchars : '\n' ∉ c.chars := by
    unfold chars
    cases hline : c.lines[c.line]? with
    | none => exact List.not_mem_nil
    | some line =>
      have hmem : line ∈ Source.lines text := hlines ▸ List.mem_of_getElem? hline
      exact Source.not_mem_of_mem_lines hmem
  exact fun hmem => hchars (List.mem_of_mem_drop hmem)

/-- **Lexing undoes spelling.**  Where a line without a carriage return is read to its end without a
fault, its tokens have canonical spellings; and with any such spellings, set off by single spaces,
the text is one line that is read to its end without a fault as the same kinds. -/
theorem lexing_undoes_spelling {text : String} {c : Cursor} {tokens : List (Token × Cursor)}
    {last : Option Token} (hlines : c.lines = Source.lines text) (hreturn : '\r' ∉ c.rest)
    (h : c.ReadsLine defaultRange tokens last) :
    (∃ spellings, List.Forall₂ TokenKind.IsCanonical (tokens.map (·.1.kind)) spellings)
      ∧ ∀ spellings, List.Forall₂ TokenKind.IsCanonical (tokens.map (·.1.kind)) spellings →
          let respelled := String.ofList ([' '].intercalate spellings)
          Source.lines respelled = [respelled.toList]
            ∧ ∃ tokens' last', (Cursor.ofText respelled).ReadsLine defaultRange tokens' last'
                ∧ tokens'.map (·.1.kind) = tokens.map (·.1.kind) := by
  have hline : ∀ d ∈ c.rest, d ≠ '\n' ∧ d ≠ '\r' := fun d hd =>
    ⟨fun heq => c.lineFeed_not_mem_rest hlines (heq ▸ hd), fun heq => hreturn (heq ▸ hd)⟩
  have hkinds := isOnLine_of_readsLine h
  generalize tokens.map (·.1.kind) = kinds at hkinds ⊢
  refine ⟨exists_canonical_spellings hkinds, fun spellings hspellings => ?_⟩
  intro respelled
  have hboth := (List.forall₂_and_left _ _).mpr ⟨hkinds, hspellings⟩
  have hone : Source.lines respelled = [respelled.toList] := by
    refine IsOneLine.lines ?_
    rw [String.toList_ofList]
    exact isOneLine_intercalate hboth hline
  have hrest : (Cursor.ofText respelled).rest = [' '].intercalate spellings := by
    show (((Source.lines respelled)[0]?).getD []).drop 0 = _
    rw [hone]
    exact String.toList_ofList
  refine ⟨hone, Cursor.exists_readsLine (hboth.imp fun kind spelling hkind => ?_) (by rw [hrest])⟩
  obtain ⟨⟨hgoes, token, rest, hrule, -⟩, hcanonical⟩ := hkind
  exact ⟨hgoes, isReadAs_of_isCanonical hrule hgoes hcanonical⟩

/-- A text in the other quotation mark, the other sign of an assignment, a number without its
leading zeros, and no comment. -/
theorem lexing_undoes_spelling_of_assignment :
    let c := Cursor.ofText "pisz \"x\"<-007#y"
    let kinds : List TokenKind := [.keyword .pisz, .text "x", .punctuator .assignment,
      .number ⟨7, by decide, by decide⟩]
    (∃ tokens last, c.ReadsLine defaultRange tokens last ∧ tokens.map (·.1.kind) = kinds)
      ∧ ∃ tokens last, (Cursor.ofText "pisz 'x' := 7").ReadsLine defaultRange tokens last
          ∧ tokens.map (·.1.kind) = kinds := by
  intro c kinds
  have hover : (c.advance 13).nextToken defaultRange
      = (.ok (some ⟨.endOfLine, 1, 14⟩), c.advance 15) := by decide +kernel
  have hreads : c.ReadsLine defaultRange [(⟨.keyword .pisz, 1, 1⟩, c.advance 4),
      (⟨.text "x", 1, 6⟩, c.advance 8), (⟨.punctuator .assignment, 1, 9⟩, c.advance 10),
      (⟨.number ⟨7, by decide, by decide⟩, 1, 11⟩, c.advance 13)] (some ⟨.endOfLine, 1, 14⟩) :=
    .token (by decide +kernel) nofun (.token (by decide +kernel) nofun
      (.token (by decide +kernel) nofun (.token (by decide +kernel) nofun
        (.ended hover fun token htoken => by rw [← Option.some.inj htoken]))))
  have hcanonical : List.Forall₂ TokenKind.IsCanonical kinds
      ["pisz".toList, "'x'".toList, ":=".toList, "7".toList] := by
    have hseven : "7" = Number.shown ⟨7, by decide, by decide⟩ := by decide +kernel
    refine .cons (TokenKind.isCanonical_of_isSpelled rfl (fun _ => nofun) nofun) (.cons
      (TokenKind.isCanonical_of_isSpelled ⟨'\'', .inr rfl, by decide, rfl⟩ (fun _ => nofun)
        nofun)
      (.cons (TokenKind.isCanonical_punctuator .assignment) (.cons ?_ .nil)))
    rw [hseven]
    exact TokenKind.isCanonical_number rfl
  have hlines : c.lines = Source.lines "pisz \"x\"<-007#y" := rfl
  obtain ⟨-, hrespelled⟩ := lexing_undoes_spelling hlines (by decide +kernel) hreads
  exact ⟨⟨_, _, hreads, rfl⟩, (hrespelled _ hcanonical).2⟩

end Tablica
