import Mathlib.Data.List.DropRight
import Tablica.Proofs.Descent.Parser
import Tablica.Proofs.Token.Spelling

/-!
# What a descent reads of a line

Wherever the cursor stands, the rest of its line is a row of lexemes.  A token that is read is the
first of them, or else the ending of the row; it leaves the cursor further to the right, unless the
line ends there, and the other lexemes are what is then ahead.

    p ──nextToken──▸ p'          p.lexemes  = ⟨lexeme :: rest, ending⟩
                                 p'.lexemes = ⟨rest, ending⟩

A descent is compared with a result that is computed from those lexemes alone.

* `Follows` — a descent ends, with the fault or the value that was computed, and how it leaves the
  parser;
* `Parser.lexemes` — what is ahead on the line, `Parser.Leaves` — moving right on it;
* `Descent.nextToken_follows`, `Descent.peekToken_follows` — reading a token and looking at one.
-/

namespace Tablica

namespace Descent

variable {α β : Type} {m : Descent α} {k : α → Descent β} {p p' : Parser}

theorem bind_of_ok {a : α} (h : m p = some (.ok (a, p'))) : (m >>= k) p = k a p' := by
  simp only [Bind.bind, StateT.bind, ExceptT.bind, ExceptT.mk, ExceptT.bindCont, h, Option.bind]

theorem bind_of_error {error : SyntaxError} (h : m p = some (.error error)) :
    (m >>= k) p = some (.error error) := by
  simp only [Bind.bind, StateT.bind, ExceptT.bind, ExceptT.mk, ExceptT.bindCont, h, Option.bind]
  rfl

theorem move_eq (f : Cursor → Cursor) (p : Parser) :
    move f p = some (.ok ((), { p with cursor := f p.cursor })) := rfl

theorem get_bind (k : Parser → Descent β) (p : Parser) : (get >>= k) p = k p p := rfl

theorem peekChar_bind (k : Option Char → Descent β) (p : Parser) :
    (peekChar >>= k) p = k (p.cursor.peek 0) p := rfl

theorem fail_eq (fault : Fault) (p : Parser) :
    (fail fault : Descent α) p = some (.error (.ofFault p.cursor.lines fault)) := rfl

end Descent

/-- The descent ends with what `x` says: with the error of its fault, or with an answer and a state
that are related to its value. -/
inductive Follows {α β : Type} (m : Descent α) (p : Parser) (R : β → α → Parser → Prop) :
    Except Fault β → Prop
  | fault {fault : Fault} (h : m p = some (.error (.ofFault p.cursor.lines fault))) :
    Follows m p R (.error fault)
  | value {a : α} {b : β} {p' : Parser} (h : m p = some (.ok (a, p')))
    (hlines : p'.cursor.lines = p.cursor.lines) (hrelated : R b a p') : Follows m p R (.ok b)

namespace Follows

variable {α α' β β' : Type} {m : Descent α} {k : α → Descent α'} {g : β → Except Fault β'}
  {p : Parser} {x : Except Fault β} {R : β → α → Parser → Prop} {R' : β' → α' → Parser → Prop}

theorem pure {a : α} {b : β} (h : R b a p) : Follows (pure a) p R (.ok b) :=
  .value rfl rfl h

theorem fail (e : Fault) : Follows (Descent.fail e) p R (.error e) :=
  .fault rfl

theorem of_except (x : Except Fault α) :
    Follows (Descent.ofExcept x) p (fun b a p' => a = b ∧ p' = p) x := by
  cases x with
  | ok a => exact .value rfl rfl ⟨rfl, rfl⟩
  | error e => exact .fault rfl

theorem bind (h : Follows m p R x)
    (hk : ∀ b a p', x = .ok b → R b a p' → Follows (k a) p' R' (g b)) :
    Follows (m >>= k) p R' (x.bind g) := by
  cases h with
  | fault h => exact .fault (Descent.bind_of_error h)
  | @value a b p' h hlines hrelated =>
    have hnext : Follows (k a) p' R' (g b) := hk b a p' rfl hrelated
    show Follows (m >>= k) p R' (g b)
    generalize g b = y at hnext ⊢
    cases hnext with
    | fault h' => exact .fault (by rw [Descent.bind_of_ok h, h', hlines])
    | value h' hlines' hrelated' =>
      exact .value ((Descent.bind_of_ok h).trans h') (hlines'.trans hlines) hrelated'

/-- Another value is computed from the first. -/
theorem bind_value {R₁ : β' → α → Parser → Prop} (h : Follows m p R x)
    (hg : ∀ b a p', R b a p' → ∃ b', g b = .ok b' ∧ R₁ b' a p') : Follows m p R₁ (x.bind g) := by
  cases h with
  | fault h => exact .fault h
  | @value a b p' h hlines hrelated =>
    obtain ⟨b', hb, hrelated'⟩ := hg b a p' hrelated
    show Follows m p R₁ (g b)
    rw [hb]
    exact .value h hlines hrelated'

/-- A first step that cannot fail. -/
theorem step {a : α} {p' : Parser} {y : Except Fault β'} (hrun : m p = some (.ok (a, p')))
    (hlines : p'.cursor.lines = p.cursor.lines) (h : Follows (k a) p' R' y) :
    Follows (m >>= k) p R' y := by
  cases h with
  | fault h => exact .fault (by rw [Descent.bind_of_ok hrun, h, hlines])
  | value h hlines' hrelated =>
    exact .value ((Descent.bind_of_ok hrun).trans h) (hlines'.trans hlines) hrelated

/-- A step with which the result is determined. -/
theorem bind_ok {R₁ : β → α' → Parser → Prop} (h : Follows m p R x)
    (hk : ∀ b a p', x = .ok b → R b a p' → Follows (k a) p' R₁ (.ok b)) :
    Follows (m >>= k) p R₁ x := by
  have hbind := h.bind (g := .ok) hk
  cases x with
  | ok b => exact hbind
  | error e => exact hbind

theorem of_ok {b : β} (h : Follows m p R (.ok b)) :
    ∃ a p', m p = some (.ok (a, p')) ∧ p'.cursor.lines = p.cursor.lines ∧ R b a p' := by
  cases h with
  | value h hlines hrelated => exact ⟨_, _, h, hlines, hrelated⟩

theorem of_error {fault : Fault} (h : Follows m p R (.error fault)) :
    m p = some (.error (.ofFault p.cursor.lines fault)) := by
  cases h with
  | fault h => exact h

theorem congr {m' : Descent α} (h : Follows m p R x) (hrun : m' p = m p) : Follows m' p R x := by
  cases h with
  | fault h => exact .fault (hrun.trans h)
  | value h hlines hrelated => exact .value (hrun.trans h) hlines hrelated

theorem mono {R₁ : β → α → Parser → Prop} (h : Follows m p R x)
    (hR : ∀ b a p', x = .ok b → R b a p' → R₁ b a p') : Follows m p R₁ x := by
  cases h with
  | fault h => exact .fault h
  | value h hlines hrelated => exact .value h hlines (hR _ _ _ rfl hrelated)

end Follows

/-! ### The cursor on its line -/

/-- Blanks in front of a row of lexemes do not matter. -/
theorem Token.lexemesFrom_dropBlanks (symbol : List Char) (number : Nat) (isLast : Bool)
    (column : Nat) (cs : List Char) :
    lexemesFrom symbol number isLast (column + (cs.length - (cs.dropWhile Text.isBlank).length))
      (cs.dropWhile Text.isBlank) = lexemesFrom symbol number isLast column cs := by
  have hle := length_dropWhile_le Text.isBlank cs
  have hidem : (cs.dropWhile Text.isBlank).dropWhile Text.isBlank = cs.dropWhile Text.isBlank :=
    List.dropWhile_idempotent _ _
  cases hdrop : cs.dropWhile Text.isBlank with
  | nil =>
    rw [lexemesFrom_of_dropWhile_nil hdrop, lexemesFrom_of_dropWhile_nil rfl]
    simp only [List.length_nil, Nat.sub_zero, Nat.add_zero]
  | cons c rest =>
    rw [hdrop] at hidem hle
    simp only [List.length_cons] at hle
    rw [lexemesFrom_of_dropWhile_cons hdrop, lexemesFrom_of_dropWhile_cons hidem]
    simp only [List.length_cons, Nat.sub_self, Nat.add_zero]
    split
    · rename_i hlt
      have hcolumn : column + (cs.length - (rest.length + 1))
          + (rest.length + 1 - (readToken symbol (c :: rest)).2.length)
          = column + (cs.length - (readToken symbol (c :: rest)).2.length) := by omega
      rw [hcolumn]
    · rfl

/-- What is left after a token is an end of what was there before. -/
theorem Token.readToken_suffix (symbol cs : List Char) : (readToken symbol cs).2 <:+ cs := by
  cases cs with
  | nil => exact List.suffix_refl _
  | cons c cs =>
    have htail : cs <:+ c :: cs := List.suffix_cons c cs
    simp only [readToken]
    split
    · exact List.drop_suffix _ _
    · split
      · exact List.nil_suffix
      · split
        · exact htail
        · split
          · rw [readText]
            split
            · exact List.nil_suffix
            · rename_i heq
              have hdrop := List.dropWhile_suffix (l := cs) (· != c)
              rw [heq] at hdrop
              exact ((List.suffix_cons _ _).trans hdrop).trans htail
          · split
            · unfold readNumber
              simp only
              split <;> exact List.dropWhile_suffix _
            · split
              · unfold readOperator
                split
                case h_1 => contradiction
                all_goals
                  rename_i heq
                  rw [heq]
                  simp [List.suffix_cons_iff]
              · split
                · exact ⟨_, spanWord_append symbol (c :: cs)⟩
                · exact List.suffix_refl _

namespace Cursor

variable {c : Cursor} {rest : List Char}

theorem rest_leaving (h : rest <:+ c.rest) : (c.leaving rest).rest = rest := by
  rw [leaving, rest_skip]
  exact (List.suffix_iff_eq_drop.mp h).symm

theorem column_leaving (rest : List Char) :
    (c.leaving rest).column = c.column + (c.rest.length - rest.length) := by
  simp only [leaving, skip]
  omega

end Cursor

namespace Parser

/-- The parser with its cursor in another column of the line. -/
def moved (parser : Parser) (column : Nat) : Parser :=
  { parser with cursor := { parser.cursor with column } }

/-- What is ahead on the line. -/
def lexemes (parser : Parser) : Lexemes :=
  Token.lexemesFrom parser.symbol (parser.cursor.line + 1) parser.cursor.onLastLine
    (parser.cursor.column + 1) parser.cursor.rest

/-- The parser has moved right on its line, to where the lexemes `rest` are ahead. -/
structure Leaves (parser : Parser) (rest : List Lexeme) (parser' : Parser) : Prop where
  moved : parser' = parser.moved parser'.cursor.column
  column : parser.cursor.column ≤ parser'.cursor.column
  lexemes : parser'.lexemes = ⟨rest, parser.lexemes.ending⟩

end Parser

/-- The character directly after the first of the lexemes. -/
def Lexeme.after : List Lexeme → Option Char
  | .token _ next :: _ => next
  | _ => none

/-- Whether the line is over at the stop. -/
def Stop.endsLine (stop : Stop) : Bool :=
  stop.kind? = none ∨ stop.kind? = some .endOfLine

namespace Parser

variable {parser parser' parser'' : Parser} {rest rest' : List Lexeme}

theorem Leaves.refl (parser : Parser) : parser.Leaves parser.lexemes.items parser :=
  ⟨rfl, Nat.le_refl _, rfl⟩

theorem Leaves.lines (h : parser.Leaves rest parser') :
    parser'.cursor.lines = parser.cursor.lines := by
  rw [h.moved]
  rfl

theorem Leaves.trans (h : parser.Leaves rest parser') (h' : parser'.Leaves rest' parser'') :
    parser.Leaves rest' parser'' where
  moved := by rw [h'.moved, h.moved]; rfl
  column := Nat.le_trans h.column h'.column
  lexemes := by rw [h'.lexemes, h.lexemes]

/-- What reading a token does. -/
structure Reads (parser : Parser) (stop : Stop) (parser' : Parser) : Prop where
  leaves : parser.Leaves parser.lexemes.items.tail parser'
  next : parser'.cursor.peek 0 = Lexeme.after parser.lexemes.items
  progress : stop.endsLine ∨ parser.cursor.column < parser'.cursor.column
  line : stop.position.line = parser.cursor.line + 1
  back : (parser.moved (stop.position.column - 1)).lexemes = parser.lexemes

end Parser

/-- The parser at the beginning of the next line or, if there is none, at the end of the last one. -/
def Parser.nextLine (parser : Parser) : Parser :=
  { parser with cursor := parser.cursor.nextLine.2 }

theorem Cursor.lines_nextLine (c : Cursor) : c.nextLine.2.lines = c.lines := by
  unfold nextLine
  split <;> rfl

/-- From where the cursor moves to the next line does not matter. -/
theorem Parser.nextLine_moved (parser : Parser) (column : Nat) :
    (parser.moved column).nextLine = parser.nextLine := by
  have hcursor : (parser.moved column).cursor.nextLine.2 = parser.cursor.nextLine.2 := by
    simp only [Cursor.nextLine, moved, Cursor.onLastLine, Cursor.chars]
    rfl
  rw [nextLine, hcursor]
  rfl

theorem Parser.Leaves.nextLine {parser parser' : Parser} {rest : List Lexeme}
    (h : parser.Leaves rest parser') : parser'.nextLine = parser.nextLine := by
  rw [h.moved, nextLine_moved]

/-! ### Reading a token -/

namespace Cursor

variable {c : Cursor} {symbol : List Char}

theorem rest_skipBlanks : c.skipBlanks.rest = c.rest.dropWhile Text.isBlank :=
  rest_leaving (List.dropWhile_suffix _)

theorem column_skipBlanks : c.skipBlanks.column
    = c.column + (c.rest.length - (c.rest.dropWhile Text.isBlank).length) :=
  column_leaving _

theorem nextToken_of_end (h : c.skipBlanks.atEndOfInput = true) :
    c.nextToken symbol = (.ok none, c.skipBlanks) := by
  simp only [nextToken, h, if_true]

theorem nextToken_of_more (h : c.skipBlanks.atEndOfInput = false) :
    c.nextToken symbol
      = (((Token.readToken symbol c.skipBlanks.rest).1.mapError c.skipBlanks.error).map
          fun kind => some ⟨kind, c.skipBlanks.position⟩,
        c.skipBlanks.leaving (Token.readToken symbol c.skipBlanks.rest).2) := by
  simp only [nextToken, h, Bool.false_eq_true, if_false]
  rfl

end Cursor

namespace Descent

variable {p : Parser} {c : Cursor}

theorem nextToken_of_error {error : SyntaxError}
    (h : p.cursor.nextToken p.symbol = (.error error, c)) :
    nextToken p = some (.error error) := by
  rw [nextToken, get_bind, h]
  rfl

theorem nextToken_of_token {token : Token}
    (h : p.cursor.nextToken p.symbol = (.ok (some token), c)) :
    nextToken p = some (.ok (.ofToken token, { p with cursor := c })) := by
  rw [nextToken, get_bind, h]
  rfl

theorem nextToken_of_none (h : p.cursor.nextToken p.symbol = (.ok none, c)) :
    nextToken p = some (.ok (⟨none, c.position⟩, { p with cursor := c })) := by
  rw [nextToken, get_bind, h]
  rfl

/-- The blanks in front of a token. -/
theorem lexemes_skipBlanks (p : Parser) :
    (p.moved p.cursor.skipBlanks.column).lexemes = p.lexemes := by
  have hrest : (p.moved p.cursor.skipBlanks.column).cursor.rest
      = p.cursor.rest.dropWhile Text.isBlank := Cursor.rest_skipBlanks
  have hcolumn : (p.moved p.cursor.skipBlanks.column).cursor.column + 1
      = p.cursor.column + 1
        + (p.cursor.rest.length - (p.cursor.rest.dropWhile Text.isBlank).length) := by
    rw [Nat.add_right_comm]
    exact congrArg (· + 1) Cursor.column_skipBlanks
  rw [Parser.lexemes, hrest, hcolumn]
  exact Token.lexemesFrom_dropBlanks _ _ _ _ _

/-- What reading a token does, if it is done from behind the blanks in front of it. -/
theorem reads_of_skipBlanks {stop : Stop} {p' : Parser}
    (hposition : stop.position = p.cursor.skipBlanks.position)
    (hmoved : p' = p.moved p'.cursor.column)
    (hlexemes : p'.lexemes = ⟨p.lexemes.items.tail, p.lexemes.ending⟩)
    (hcolumn : p.cursor.column ≤ p'.cursor.column)
    (hprogress : stop.endsLine ∨ p.cursor.column < p'.cursor.column)
    (hnext : p'.cursor.peek 0 = Lexeme.after p.lexemes.items) : p.Reads stop p' where
  leaves := ⟨hmoved, hcolumn, hlexemes⟩
  next := hnext
  progress := hprogress
  line := by rw [hposition]; rfl
  back := by
    rw [hposition]
    exact lexemes_skipBlanks p

/-- Where only blanks are left of the line, its ending is what is ahead. -/
theorem lexemes_of_blank (h : p.cursor.rest.dropWhile Text.isBlank = []) :
    p.lexemes = ⟨[], if p.cursor.onLastLine then .input p.cursor.skipBlanks.position
      else .line p.cursor.skipBlanks.position⟩ := by
  rw [Parser.lexemes, Token.lexemesFrom_of_dropWhile_nil h, Cursor.position,
    Cursor.column_skipBlanks, h, List.length_nil, Nat.sub_zero, Nat.add_right_comm]
  rfl

/-- Where only blanks are left, the line or the program is over. -/
theorem nextToken_follows_of_blank (hdrop : p.cursor.rest.dropWhile Text.isBlank = []) :
    Follows nextToken p (fun stop stop' p' => stop' = stop ∧ p.Reads stop p')
      (Stop.next p.lexemes.ending p.lexemes.items) := by
  have hrest : p.cursor.skipBlanks.rest = [] := Cursor.rest_skipBlanks.trans hdrop
  have hlexemes := lexemes_of_blank hdrop
  have hreads : ∀ {stop : Stop}, stop.position = p.cursor.skipBlanks.position → stop.endsLine →
      p.Reads stop (p.moved p.cursor.skipBlanks.column) := by
    intro stop hposition hends
    refine reads_of_skipBlanks hposition rfl ?_ ?_ (.inl hends) ?_
    · rw [lexemes_skipBlanks, hlexemes]
      rfl
    · exact Nat.le_trans (Nat.le_add_right _ _) Cursor.column_skipBlanks.ge
    · rw [hlexemes]
      show p.cursor.skipBlanks.rest[0]? = none
      rw [hrest]
      rfl
  have hend : p.cursor.skipBlanks.atEndOfInput = p.cursor.onLastLine := by
    rw [Cursor.atEndOfInput, Cursor.atEndOfLine, hrest]
    rfl
  cases hlast : p.cursor.onLastLine with
  | true =>
    have hrun : nextToken p = _ := nextToken_of_none (Cursor.nextToken_of_end (hend.trans hlast))
    have hvalue : Stop.next p.lexemes.ending p.lexemes.items
        = .ok ⟨none, p.cursor.skipBlanks.position⟩ := by
      rw [hlexemes, hlast]
      rfl
    rw [hvalue]
    exact .value hrun rfl ⟨rfl, hreads rfl rfl⟩
  | false =>
    have hread : p.cursor.nextToken p.symbol = _ :=
      Cursor.nextToken_of_more (hend.trans hlast)
    have hleaving : p.cursor.skipBlanks.leaving [] = p.cursor.skipBlanks := by
      simp [Cursor.leaving, Cursor.skip, hrest]
    rw [hrest, Token.readToken, hleaving] at hread
    have hrun := nextToken_of_token hread
    have hvalue : Stop.next p.lexemes.ending p.lexemes.items
        = .ok ⟨some .endOfLine, p.cursor.skipBlanks.position⟩ := by
      rw [hlexemes, hlast]
      rfl
    rw [hvalue]
    exact .value hrun rfl ⟨rfl, hreads rfl rfl⟩

/-- Where something else is left, it starts with a token, with a fault, or with a character that no
token starts with. -/
theorem nextToken_follows_of_filled {c : Char} {rest : List Char}
    (hdrop : p.cursor.rest.dropWhile Text.isBlank = c :: rest) :
    Follows nextToken p (fun stop stop' p' => stop' = stop ∧ p.Reads stop p')
      (Stop.next p.lexemes.ending p.lexemes.items) := by
  have hrest : p.cursor.skipBlanks.rest = c :: rest := Cursor.rest_skipBlanks.trans hdrop
  have hlength : rest.length + 1 ≤ p.cursor.rest.length := by
    have := Token.length_dropWhile_le Text.isBlank p.cursor.rest
    rwa [hdrop] at this
  have hcolumn : p.cursor.skipBlanks.column
      = p.cursor.column + (p.cursor.rest.length - (rest.length + 1)) := by
    rw [Cursor.column_skipBlanks, hdrop, List.length_cons]
  have hposition : p.cursor.skipBlanks.position
      = ⟨p.cursor.line + 1, p.cursor.column + 1 + (p.cursor.rest.length - (rest.length + 1))⟩ := by
    rw [Cursor.position, hcolumn, Nat.add_right_comm]
    rfl
  have hend : p.cursor.skipBlanks.atEndOfInput = false := by
    rw [Cursor.atEndOfInput, Cursor.atEndOfLine, hrest]
    rfl
  have hread : p.cursor.nextToken p.symbol = _ := Cursor.nextToken_of_more hend
  have hlexemes : p.lexemes = _ := Token.lexemesFrom_of_dropWhile_cons hdrop
  have hsuffix := Token.readToken_suffix p.symbol (c :: rest)
  rw [hrest] at hread
  rcases Token.readToken_length_lt p.symbol c rest with hlt | hstuck
  · rw [if_pos hlt] at hlexemes
    generalize Token.readToken p.symbol (c :: rest) = read at hread hlt hlexemes hsuffix
    obtain ⟨outcome, after⟩ := read
    simp only [← hposition] at hlexemes
    cases outcome with
    | error fault =>
      rw [hlexemes]
      exact .fault (nextToken_of_error hread)
    | ok kind =>
      have hafter : (p.cursor.skipBlanks.leaving after).rest = after :=
        Cursor.rest_leaving (hrest ▸ hsuffix)
      have hmoves : (p.cursor.skipBlanks.leaving after).column
          = p.cursor.column + (p.cursor.rest.length - after.length) := by
        rw [Cursor.column_leaving, hrest, hcolumn, List.length_cons]
        simp only [List.length_cons] at hlt
        omega
      simp only at hlexemes
      have hvalue : Stop.next p.lexemes.ending p.lexemes.items
          = .ok (.ofToken ⟨kind, p.cursor.skipBlanks.position⟩) := by
        rw [hlexemes]
        rfl
      rw [hvalue]
      refine .value (nextToken_of_token hread) rfl
        ⟨rfl, reads_of_skipBlanks rfl rfl ?_ (by simp only; omega) (.inr ?_) ?_⟩
      · rw [hlexemes, Parser.lexemes]
        simp only [hafter, hmoves, List.tail_cons, Nat.add_right_comm _ _ 1]
        rfl
      · simp only [List.length_cons] at hlt ⊢
        omega
      · rw [hlexemes]
        show (p.cursor.skipBlanks.leaving after).rest[0]? = _
        rw [hafter, List.head?_eq_getElem?]
        rfl
  · -- no token starts with this character, and both sides stop here with the same fault
    rw [hstuck] at hread hlexemes
    rw [if_neg (Nat.lt_irrefl _), ← hposition] at hlexemes
    rw [hlexemes]
    exact .fault (nextToken_of_error hread)

/-- **The next token** is the first lexeme of the line, or its ending. -/
theorem nextToken_follows (p : Parser) :
    Follows nextToken p (fun stop stop' p' => stop' = stop ∧ p.Reads stop p')
      (Stop.next p.lexemes.ending p.lexemes.items) := by
  cases hdrop : p.cursor.rest.dropWhile Text.isBlank with
  | nil => exact nextToken_follows_of_blank hdrop
  | cons c rest => exact nextToken_follows_of_filled hdrop

/-- **A token that is only looked at** is the same, and nothing moves. -/
theorem peekToken_follows (p : Parser) :
    Follows peekToken p (fun stop stop' p' => stop' = stop ∧ p' = p)
      (Stop.next p.lexemes.ending p.lexemes.items) := by
  refine .congr (m := nextToken >>= _) ?_ (get_bind _ p)
  refine (nextToken_follows p).bind_ok ?_
  rintro stop _ p' - ⟨rfl, hreads⟩
  have hback : { p' with cursor := p'.cursor.restore p.cursor.position } = p := by
    rw [hreads.leaves.moved]
    simp only [Parser.moved, Cursor.restore_position]
  have hrun : move (·.restore p.cursor.position) p' = some (.ok ((), p)) := by
    rw [move_eq, hback]
  refine .step hrun ?_ (.pure ⟨rfl, rfl⟩)
  rw [hreads.leaves.moved]
  rfl

section Cases

variable {stop : Stop} {fault : Fault}

theorem nextToken_of_ok (h : Stop.next p.lexemes.ending p.lexemes.items = .ok stop) :
    ∃ p', nextToken p = some (.ok (stop, p')) ∧ p.Reads stop p' := by
  have hfollows := nextToken_follows p
  rw [h] at hfollows
  obtain ⟨_, p', hrun, -, rfl, hreads⟩ := hfollows.of_ok
  exact ⟨p', hrun, hreads⟩

theorem nextToken_of_fault (h : Stop.next p.lexemes.ending p.lexemes.items = .error fault) :
    nextToken p = some (.error (.ofFault p.cursor.lines fault)) := by
  have hfollows := nextToken_follows p
  rw [h] at hfollows
  exact hfollows.of_error

theorem peekToken_of_ok (h : Stop.next p.lexemes.ending p.lexemes.items = .ok stop) :
    peekToken p = some (.ok (stop, p)) := by
  have hfollows := peekToken_follows p
  rw [h] at hfollows
  obtain ⟨_, _, hrun, -, rfl, rfl⟩ := hfollows.of_ok
  exact hrun

theorem peekToken_of_error (h : Stop.next p.lexemes.ending p.lexemes.items = .error fault) :
    peekToken p = some (.error (.ofFault p.cursor.lines fault)) := by
  have hfollows := peekToken_follows p
  rw [h] at hfollows
  exact hfollows.of_error

end Cases

/-- The line ends at a stop, or the stop is refused. -/
theorem endLine_follows (stop : Stop) (p : Parser) :
    Follows (endLine stop) p (fun _ _ p' => p' = p.nextLine) stop.endLine := by
  refine (Follows.of_except stop.endLine).bind_ok ?_
  rintro _ _ _ - ⟨rfl, rfl⟩
  exact .value rfl (Cursor.lines_nextLine _) rfl

theorem finishLine_follows (p : Parser) :
    Follows finishLine p (fun _ _ p' => p' = p.nextLine)
      (Form.finishLine p.lexemes.ending p.lexemes.items) := by
  refine (nextToken_follows p).bind ?_
  rintro _ stop p' - ⟨rfl, hreads⟩
  rw [← hreads.leaves.nextLine]
  exact endLine_follows stop p'

end Descent

end Tablica
