import Tablica.Proofs.Descent.Statements

/-!
# A descent through blocks ends

Every round of reading a block either is the last one or ends on a later line than it began, or at
the end of the text, where the next round is the last one:

    if T[1] > 0 to        ◂─ a round begins
        pisz 1            ◂─ rounds of the block inside
    wpp                   ◂─ measured by that block, left, measured and searched for `wpp`
        pisz 2
    pisz 3                ◂─ the round ends, after the line was measured and left twice

The cursor goes back in between, but never to a line on which a round has begun.  This is so
wherever the cursor stands at first, in whatever column and with whatever unit of indentation.

* `Descent.Ends` — a descent ends, and how it leaves the parser;
* `Cursor.ahead` — how many lines are ahead, `Cursor.Later`, `Cursor.NotBack` — fewer and no more;
* `IndentUnit.measured`, `Descent.measure_follows` — the depth of a line, as it is computed;
* `Descent.pass_ends` — a round, `Descent.body_ends` — all rounds.
-/

namespace Tablica

/-- The descent ends.  If it ends without an error, the answer and the parser are related. -/
def Descent.Ends {α : Type} (m : Descent α) (p : Parser) (R : α → Parser → Prop) : Prop :=
  ∃ result, m p = some result ∧ ∀ a p', result = .ok (a, p') → R a p'

namespace Descent.Ends

variable {α β : Type} {m : Descent α} {k : α → Descent β} {p : Parser} {R : α → Parser → Prop}
  {R' : β → Parser → Prop}

theorem pure {a : α} (h : R a p) : Ends (pure a) p R :=
  ⟨_, rfl, fun _ _ heq => by cases heq; exact h⟩

theorem fail (fault : Fault) : Ends (Descent.fail fault) p R :=
  ⟨_, rfl, fun _ _ heq => nomatch heq⟩

theorem of_ok {a : α} {p' : Parser} (h : m p = some (.ok (a, p'))) (hR : R a p') : Ends m p R :=
  ⟨_, h, fun _ _ heq => by cases heq; exact hR⟩

theorem get {k : Parser → Descent β} (h : Ends (k p) p R') : Ends (get >>= k) p R' := h

theorem bind (h : Ends m p R) (hk : ∀ a p', R a p' → Ends (k a) p' R') : Ends (m >>= k) p R' := by
  obtain ⟨result, hrun, hR⟩ := h
  cases result with
  | error error => exact ⟨_, Descent.bind_of_error hrun, fun _ _ heq => nomatch heq⟩
  | ok found =>
    obtain ⟨result', hrun', hR'⟩ := hk found.1 found.2 (hR _ _ rfl)
    exact ⟨result', (Descent.bind_of_ok hrun).trans hrun', hR'⟩

theorem congr {m' : Descent α} (hrun : m' p = m p) (h : Ends m p R) : Ends m' p R :=
  h.imp fun _ h => ⟨hrun.trans h.1, h.2⟩

theorem mono {R₁ : α → Parser → Prop} (h : Ends m p R) (hR : ∀ a p', R a p' → R₁ a p') :
    Ends m p R₁ :=
  h.imp fun _ h => ⟨h.1, fun a p' heq => hR a p' (h.2 a p' heq)⟩

end Descent.Ends

theorem Follows.ends {α β : Type} {m : Descent α} {p : Parser} {R : β → α → Parser → Prop}
    {x : Except Fault β} (h : Follows m p R x) :
    Descent.Ends m p fun a p' => ∃ b, x = .ok b ∧ R b a p' := by
  cases h with
  | fault h => exact ⟨_, h, fun _ _ heq => nomatch heq⟩
  | value h _ hrelated => exact .of_ok h ⟨_, rfl, hrelated⟩

/-! ### The lines ahead -/

namespace Cursor

variable {c c' c'' : Cursor}

/-- How many lines are ahead, the one under the cursor among them.  None is if the text is over. -/
def ahead (c : Cursor) : Nat :=
  if c.atEndOfInput then 0 else c.lines.length - c.line

/-- The cursor is on a later line, or at the end of the text. -/
structure Later (c c' : Cursor) : Prop where
  lines : c'.lines = c.lines
  later : c.line < c'.line ∨ c'.atEndOfInput = true

/-- No more lines are ahead than there were. -/
structure NotBack (c c' : Cursor) : Prop where
  lines : c'.lines = c.lines
  ahead : c'.ahead ≤ c.ahead

theorem ahead_of_end (h : c.atEndOfInput = true) : c.ahead = 0 := if_pos h

theorem ahead_of_more (h : c.atEndOfInput = false) : c.ahead = c.lines.length - c.line :=
  if_neg (by rw [h]; exact Bool.false_ne_true)

theorem onLastLine_iff : c.onLastLine = true ↔ c.lines.length ≤ c.line + 1 := decide_eq_true_iff

/-- Behind the last line there is nothing. -/
theorem line_lt (h : c.atEndOfInput = false) : c.line < c.lines.length := by
  by_contra hle
  have hrest : c.rest = [] := by
    rw [rest, chars, List.getElem?_eq_none (by omega)]
    exact List.drop_nil
  have hlast : c.onLastLine = true := onLastLine_iff.mpr (by omega)
  rw [atEndOfInput, atEndOfLine, hrest, hlast] at h
  cases h

theorem ahead_pos (h : c.atEndOfInput = false) : 0 < c.ahead := by
  have := line_lt h
  rw [ahead_of_more h]
  omega

theorem line_of_end (h : c.atEndOfInput = true) : c.lines.length ≤ c.line + 1 := by
  rw [atEndOfInput, Bool.and_eq_true] at h
  exact onLastLine_iff.mp h.2

theorem NotBack.refl (c : Cursor) : c.NotBack c := ⟨rfl, Nat.le_refl _⟩

theorem NotBack.trans (h : c.NotBack c') (h' : c'.NotBack c'') : c.NotBack c'' :=
  ⟨h'.lines.trans h.lines, Nat.le_trans h'.ahead h.ahead⟩

theorem Later.notBack (h : c.Later c') : c.NotBack c' := by
  refine ⟨h.lines, ?_⟩
  cases hend' : c'.atEndOfInput with
  | true => simp only [ahead_of_end hend', Nat.zero_le]
  | false =>
    have hlt' := line_lt hend'
    rw [h.lines] at hlt'
    have hline : c.line < c'.line := h.later.resolve_right (by rw [hend']; exact Bool.false_ne_true)
    have hend : c.atEndOfInput = false := by
      by_contra hend
      have := line_of_end (by simpa using hend)
      omega
    rw [ahead_of_more hend, ahead_of_more hend', h.lines]
    omega

theorem Later.ahead_lt {count : Nat} (h : c.Later c') (hcount : c.ahead ≤ count)
    (hpos : 0 < count) : c'.ahead < count := by
  cases hend' : c'.atEndOfInput with
  | true => rwa [ahead_of_end hend']
  | false =>
    have hlt' := line_lt hend'
    rw [h.lines] at hlt'
    have hline : c.line < c'.line := h.later.resolve_right (by rw [hend']; exact Bool.false_ne_true)
    have hend : c.atEndOfInput = false := by
      by_contra hend
      have := line_of_end (by simpa using hend)
      omega
    rw [ahead_of_more hend] at hcount
    rw [ahead_of_more hend', h.lines]
    omega

theorem Later.trans (h : c.Later c') (h' : c'.NotBack c'') : c.Later c'' := by
  refine ⟨h'.lines.trans h.lines, ?_⟩
  cases hend'' : c''.atEndOfInput with
  | true => exact .inr rfl
  | false =>
    have hahead := h'.ahead
    have hlt'' := line_lt hend''
    rw [ahead_of_more hend'', h'.lines] at hahead
    rw [h'.lines] at hlt''
    refine .inl ?_
    cases hend' : c'.atEndOfInput with
    | true =>
      rw [ahead_of_end hend'] at hahead
      omega
    | false =>
      rw [ahead_of_more hend'] at hahead
      have hline : c.line < c'.line :=
        h.later.resolve_right (by rw [hend']; exact Bool.false_ne_true)
      omega

theorem later_nextLine (c : Cursor) : c.Later c.nextLine.2 := by
  refine ⟨c.lines_nextLine, ?_⟩
  cases hlast : c.onLastLine with
  | true =>
    refine .inr ?_
    have hnext : c.nextLine.2 = { c with column := c.chars.length } := by
      rw [nextLine, if_pos hlast]
    have hrest : c.chars.drop c.chars.length = [] := List.drop_length
    rw [hnext, atEndOfInput, atEndOfLine, rest]
    exact Bool.and_eq_true_iff.mpr ⟨List.isEmpty_iff.mpr hrest, hlast⟩
  | false =>
    refine .inl ?_
    rw [nextLine, if_neg (by rw [hlast]; exact Bool.false_ne_true)]
    exact Nat.lt_succ_self _

/-- Moving to the right on a line is no way back, and on a line of which something is left, moving to
the left is none either. -/
theorem notBack_column {column : Nat} (h : c.column ≤ column ∨ c.atEndOfInput = false) :
    c.NotBack { c with column } := by
  refine ⟨rfl, ?_⟩
  cases hend : c.atEndOfInput with
  | false =>
    rw [ahead_of_more hend, ahead]
    split
    · exact Nat.zero_le _
    · exact Nat.le_refl _
  | true =>
    have hle : c.column ≤ column := h.resolve_right (by rw [hend]; exact Bool.true_eq_false.mp)
    rw [atEndOfInput, Bool.and_eq_true, atEndOfLine, List.isEmpty_iff] at hend
    have hrest : c.chars.drop column = [] := by
      rw [rest, List.drop_eq_nil_iff] at hend
      exact List.drop_eq_nil_of_le (Nat.le_trans hend.1 hle)
    have hend' : ({ c with column } : Cursor).atEndOfInput = true := by
      rw [atEndOfInput, atEndOfLine, rest]
      exact Bool.and_eq_true_iff.mpr ⟨List.isEmpty_iff.mpr hrest, hend.2⟩
    rw [ahead_of_end hend']
    exact Nat.zero_le _

end Cursor

theorem Parser.Leaves.notBack {parser parser' : Parser} {rest : List Lexeme}
    (h : parser.Leaves rest parser') : parser.cursor.NotBack parser'.cursor := by
  rw [h.moved]
  exact Cursor.notBack_column (.inl h.column)

/-- Where no token is left, the text is over. -/
theorem Parser.Reads.atEndOfInput {parser parser' : Parser} {stop : Stop}
    (h : parser.Reads stop parser')
    (hnext : Stop.next parser.lexemes.ending parser.lexemes.items = .ok stop)
    (hkind : stop.kind? = none) : parser'.cursor.atEndOfInput = true := by
  have hlexemes := h.leaves.lexemes
  have hpeek := h.next
  rcases hitems : parser.lexemes.items with _ | ⟨token | fault, rest⟩
  · rw [hitems] at hnext hpeek hlexemes
    have hrest : parser'.cursor.rest = [] := List.head?_eq_none_iff.mp
      (List.head?_eq_getElem?.trans hpeek)
    rw [Parser.lexemes, Token.lexemesFrom_of_dropWhile_nil (by rw [hrest]; rfl)] at hlexemes
    have hending := congrArg Lexemes.ending hlexemes
    rw [Cursor.atEndOfInput, Cursor.atEndOfLine, hrest]
    cases hlast : parser'.cursor.onLastLine with
    | true => rfl
    | false =>
      rw [hlast] at hending
      rw [← hending] at hnext
      cases hnext
      cases hkind
  · rw [hitems] at hnext
    cases hnext
    cases hkind
  · rw [hitems] at hnext
    cases hnext

/-! ### The depth of a line -/

namespace IndentUnit

variable {number level depth : Nat} {cs : List Char}

/-- The unit that is known, or that the line fixes. -/
def known (number level : Nat) (cs : List Char) :
    Option IndentUnit → Except Fault (Option IndentUnit)
  | some unit => .ok (some unit)
  | none => discover number level cs

/-- The depth of a line inside an open block, and the unit that is known then.  A line that fixes no
unit is not indented. -/
def depthIn (number level : Nat) (cs : List Char) :
    Option IndentUnit → Except Fault (Nat × Option IndentUnit)
  | some unit => (unit.depth number level cs).bind fun depth => .ok (depth, some unit)
  | none => .ok (0, none)

/-- The depth of a line while blocks up to the given level are open, and the unit that is known
then. -/
def measured (number level : Nat) (unit : Option IndentUnit) (cs : List Char) :
    Except Fault (Nat × Option IndentUnit) :=
  if level = 0 then
    if cs.head?.any Text.isBlank then .error ⟨.unexpectedIndentation, ⟨number, 1⟩⟩
    else .ok (0, unit)
  else (known number level cs unit).bind (depthIn number level cs)

/-- How many characters indent a line of the given depth. -/
def indent (depth : Nat) : Option IndentUnit → Nat
  | some unit => unit.width * depth
  | none => 0

/-- A line that has a depth starts with so many units, is not too deep, and goes on with what is not
blank. -/
theorem of_depth {unit : IndentUnit} (h : unit.depth number level cs = .ok depth) :
    leadingRun unit.character cs = unit.width * depth ∧ depth ≤ level
      ∧ (cs[leadingRun unit.character cs]?).any Text.isBlank = false := by
  unfold IndentUnit.depth at h
  simp only at h
  split at h
  · cases h
  · rename_i hfits
    cases h
    simp only [not_or, Nat.not_lt, Bool.not_eq_true, Decidable.not_not] at hfits
    obtain ⟨hlevel, hmixed, hwhole⟩ := hfits
    exact ⟨(Nat.mul_div_cancel' (Nat.dvd_of_mod_eq_zero hwhole)).symm,
      Nat.div_le_of_le_mul hlevel, hmixed⟩

end IndentUnit

/-- What the measuring of a line finds, and where the parser is then: in a block of the level the
indentation is passed. -/
structure Parser.Measured (p : Parser) (level : Nat) (found : Nat × Option IndentUnit)
    (goesOn : Bool) (p' : Parser) : Prop where
  goesOn_eq : goesOn = decide (level ≤ found.1)
  le : found.1 ≤ level
  state : p' = { p with
    unit := found.2, cursor := { p.cursor with column := p'.cursor.column } }
  passes : goesOn = true → p'.cursor.column = p.cursor.column + IndentUnit.indent level found.2
  stays : goesOn = false → p.cursor.column = 0 → p'.cursor.column = 0

namespace Descent

variable {p : Parser} {depth level : Nat}

theorem knownUnit_follows (level : Nat) (p : Parser) :
    Follows (knownUnit level) p (fun unit unit' p' => unit' = unit ∧ p' = p)
      (IndentUnit.known (p.cursor.line + 1) level p.cursor.rest p.unit) := by
  refine .congr ?_ (get_bind _ p)
  cases p.unit with
  | some unit => exact .pure ⟨rfl, rfl⟩
  | none => exact .of_except _

/-- The depth of a line inside an open block is compared with the level of the block. -/
theorem depthIn_follows (hlevel : level ≠ 0) (unit : IndentUnit) (p : Parser) :
    Follows (modify (fun parser => { parser with unit := some unit }) >>= fun _ =>
        ofExcept (unit.depth (p.cursor.line + 1) level p.cursor.rest) >>= fun depth =>
          if depth < level then move Cursor.rewindLine >>= fun _ => pure false
          else move (·.skip (unit.width * level)) >>= fun _ => pure true) p (p.Measured level)
      (IndentUnit.depthIn (p.cursor.line + 1) level p.cursor.rest (some unit)) := by
  have hmodify : (modify fun parser => { parser with unit := some unit } : Descent PUnit) p
      = some (.ok ((), { p with unit := some unit })) := rfl
  refine .step hmodify rfl ?_
  refine (Follows.of_except _).bind fun depth _ p' hdepth hfound => ?_
  obtain ⟨rfl, rfl⟩ := hfound
  obtain ⟨hrun, hle, -⟩ := IndentUnit.of_depth hdepth
  split
  · rename_i hlt
    refine .step (move_eq _ _) rfl (.pure ⟨?_, hle, rfl, fun h => (nomatch h), fun _ _ => rfl⟩)
    exact (decide_eq_false (Nat.not_le_of_lt hlt)).symm
  · rename_i hlt
    obtain rfl := Nat.le_antisymm hle (Nat.le_of_not_lt hlt)
    refine .step (move_eq _ _) rfl (.pure
      ⟨(decide_eq_true (Nat.le_refl _)).symm, hle, rfl, fun _ => ?_, fun h => (nomatch h)⟩)
    have hlength : IndentUnit.leadingRun unit.character p.cursor.rest ≤ p.cursor.rest.length :=
      (List.takeWhile_prefix _).length_le
    rw [hrun] at hlength
    exact congrArg (p.cursor.column + ·) (Nat.min_eq_left hlength)

/-- **The depth of a line** is measured as it is computed. -/
theorem measure_follows (level : Nat) (p : Parser) :
    Follows (measure level) p (p.Measured level)
      (IndentUnit.measured (p.cursor.line + 1) level p.unit p.cursor.rest) := by
  unfold IndentUnit.measured
  refine .congr ?_ (get_bind _ p)
  by_cases hlevel : level = 0
  · subst hlevel
    rw [if_pos rfl, if_pos rfl]
    split
    · exact .fail _
    · refine .pure ⟨rfl, Nat.le_refl _, rfl, fun _ => ?_, fun _ h => h⟩
      cases p.unit <;> rfl
  · rw [if_neg hlevel, if_neg hlevel]
    refine (knownUnit_follows level p).bind fun _ unit p' hknown hunit => ?_
    obtain ⟨rfl, rfl⟩ := hunit
    cases unit with
    | none =>
      have hunit : p'.unit = none := by
        cases hunit : p'.unit with
        | none => rfl
        | some unit =>
          rw [hunit] at hknown
          cases hknown
      have hzero : false = decide (level ≤ 0) := by simp [hlevel]
      exact .pure ⟨hzero, Nat.zero_le _, by rw [← hunit], fun h => (nomatch h), fun _ h => h⟩
    | some unit => exact depthIn_follows hlevel unit p'

/-! ### Blocks -/

theorem nextToken_ends (p : Parser) : Ends nextToken p fun stop p' =>
    Stop.next p.lexemes.ending p.lexemes.items = .ok stop ∧ p.Reads stop p' := by
  refine (nextToken_follows p).ends.mono fun stop p' h => ?_
  obtain ⟨_, hnext, rfl, hreads⟩ := h
  exact ⟨hnext, hreads⟩

theorem measure_ends (level : Nat) (p : Parser) : Ends (measure level) p fun _ p' =>
    p'.cursor = { p.cursor with column := p'.cursor.column } := by
  refine (measure_follows level p).ends.mono fun _ p' h => ?_
  obtain ⟨_, -, hmeasured⟩ := h
  rw [hmeasured.state]

theorem enter_ends (heading : Heading) (p : Parser) :
    Ends (enter heading) p fun _ p' => p'.cursor = p.cursor :=
  .of_ok rfl rfl

theorem leave_ends (heading : Heading) (p : Parser) :
    Ends (leave heading) p fun _ p' => p'.cursor = p.cursor :=
  .of_ok rfl rfl

/-- A line is searched for `wpp` without leaving it. -/
theorem findAlternative_ends (level : Nat) (p : Parser) :
    Ends (findAlternative level) p fun _ p' => p.cursor.NotBack p'.cursor := by
  have hback : ∀ {p'}, p'.cursor = { p.cursor with column := p'.cursor.column } →
      Ends (move (·.restore p.cursor.position) >>= fun _ => pure false) p'
        fun _ p'' => p.cursor.NotBack p''.cursor := by
    intro p' hline
    have hrestore : p'.cursor.restore p.cursor.position = p.cursor := by
      rw [hline, Cursor.restore_position]
    have hmove := move_eq (·.restore p.cursor.position) p'
    refine ⟨_, bind_of_ok hmove, fun _ p'' heq => ?_⟩
    cases heq
    rw [hrestore]
    exact .refl _
  refine .get ?_
  simp only
  cases hend : p.cursor.atEndOfInput with
  | true => exact .pure (.refl _)
  | false =>
    refine (measure_ends level p).bind fun goesOn p₁ hline => ?_
    split
    · refine (peekToken_follows p₁).ends.bind fun stop p₂ hpeek => ?_
      obtain ⟨_, -, -, rfl⟩ := hpeek
      split
      · refine .pure ?_
        rw [hline]
        exact Cursor.notBack_column (.inr hend)
      · exact hback hline
    · exact hback hline

/-- Blocks end within every depth below the bound that is deep enough for the lines ahead.  Each of
these lines is read within the depth `width`. -/
def BodyEnds (width bound : Nat) : Prop :=
  ∀ depth < bound, ∀ (level : Nat) (nodes : List Node) (p : Parser),
    Source.Fits width p.cursor.lines → 6 * p.cursor.ahead + width + 6 ≤ depth →
      Ends (body depth level nodes) p fun _ p' => p.cursor.NotBack p'.cursor

section Rounds

variable {width bound : Nat}

theorem block_ends (hbody : BodyEnds width bound) (hbound : depth ≤ bound) (level : Nat)
    (hfits : Source.Fits width p.cursor.lines) (hdepth : 6 * p.cursor.ahead + width + 7 ≤ depth) :
    Ends (block depth level) p fun _ p' => p.cursor.NotBack p'.cursor := by
  obtain ⟨depth, rfl⟩ : ∃ depth', depth = depth' + 1 := ⟨depth - 1, by omega⟩
  rw [block]
  refine .get ?_
  refine (hbody depth (by omega) level [] p hfits (by omega)).bind fun nodes p' hback => ?_
  split
  · exact .bind (R := fun _ _ => False) (.fail _) fun _ _ h => h.elim
  · exact .pure hback

theorem alternative_ends (hbody : BodyEnds width bound) (hbound : depth ≤ bound) (level : Nat)
    (hfits : Source.Fits width p.cursor.lines) (hdepth : 6 * p.cursor.ahead + width + 8 ≤ depth) :
    Ends (alternative depth level) p fun _ p' => p.cursor.NotBack p'.cursor := by
  obtain ⟨depth, rfl⟩ : ∃ depth', depth = depth' + 1 := ⟨depth - 1, by omega⟩
  rw [alternative]
  refine (findAlternative_ends level p).bind fun found p₁ hback => ?_
  split
  · refine (nextToken_ends p₁).bind fun stop p₂ hstop => ?_
    obtain ⟨-, hreads⟩ := hstop
    refine (finishLine_follows p₂).ends.bind fun _ p₃ hended => ?_
    obtain ⟨_, -, rfl⟩ := hended
    have hlater : p₂.cursor.Later p₂.nextLine.cursor := Cursor.later_nextLine p₂.cursor
    have hback₃ := hback.trans (hreads.leaves.notBack.trans hlater.notBack)
    have hahead := hback₃.ahead
    refine (block_ends hbody (by omega) (level + 1) (hback₃.lines ▸ hfits) (by omega)).bind
      fun nodes p₄ hback₄ => .pure (hback₃.trans hback₄)
  · exact .pure hback

theorem headed_ends {block : Descent (List Node)} {alternative : Descent (Option (List Node))}
    (line : SourceLine) (heading : Heading)
    (hblock : ∀ p', p'.cursor = p.cursor →
      Ends block p' fun _ p'' => p.cursor.NotBack p''.cursor)
    (halternative : ∀ p', p.cursor.NotBack p'.cursor →
      Ends alternative p' fun _ p'' => p.cursor.NotBack p''.cursor) :
    Ends (headed block alternative line heading) p fun _ p' => p.cursor.NotBack p'.cursor := by
  refine (enter_ends heading p).bind fun _ p₁ hcursor₁ => ?_
  refine (hblock p₁ hcursor₁).bind fun nodes p₂ hback₂ => ?_
  refine (leave_ends heading p₂).bind fun _ p₃ hcursor₃ => ?_
  rw [← hcursor₃] at hback₂
  cases heading with
  | condition test => exact (halternative p₃ hback₂).bind fun _ _ hback => .pure hback
  | _ => exact .pure hback₂

/-- Behind a statement a later line is ahead, or the end of the text. -/
theorem statement_ends (hbody : BodyEnds width bound) (hbound : depth ≤ bound) (level : Nat)
    (hfits : Source.Fits width p.cursor.lines) {count : Nat} (hcount : p.cursor.ahead ≤ count)
    (hpos : 0 < count) (hdepth : 6 * count + width + 4 ≤ depth) :
    Ends (statement depth level) p fun _ p' => p.cursor.Later p'.cursor := by
  obtain ⟨depth, rfl⟩ : ∃ depth', depth = depth' + 1 := ⟨depth - 1, by omega⟩
  rw [statement]
  refine .get ?_
  refine (nextToken_ends p).bind fun stop p₁ hstop => ?_
  obtain ⟨hnext, hreads⟩ := hstop
  have hlines₁ : p₁.cursor.lines = p.cursor.lines := hreads.leaves.lines
  cases hkind : stop.kind? with
  | none => exact .pure ⟨hlines₁, .inr (hreads.atEndOfInput hnext hkind)⟩
  | some kind =>
    have hform : Follows (form depth p.cursor.currentLine stop.position kind) p₁ _ _ :=
      form_follows (hfits.mono (by omega)) _ hnext hkind hreads decide_eq_true_iff
    refine hform.ends.bind fun form p₂ hended => ?_
    obtain ⟨_, -, -, rfl⟩ := hended
    have hlater : p.cursor.Later p₁.nextLine.cursor := by
      rw [hreads.leaves.nextLine]
      exact Cursor.later_nextLine p.cursor
    cases form with
    | simple node => exact .pure hlater
    | heading heading =>
      have hahead := hlater.ahead_lt hcount hpos
      have hheaded : Ends (headed (block depth (level + 1)) (alternative depth level)
          p.cursor.currentLine heading) p₁.nextLine
          fun _ p' => p₁.nextLine.cursor.NotBack p'.cursor := by
        refine headed_ends _ heading (fun p₂ hcursor => ?_) fun p₂ hback => ?_
        · rw [← hcursor] at hlater hahead ⊢
          exact block_ends hbody (by omega) (level + 1) (hlater.lines ▸ hfits) (by omega)
        · have hahead₂ := hback.ahead
          have hlines₂ := hback.lines.trans hlater.lines
          exact (alternative_ends hbody (by omega) level (hlines₂ ▸ hfits) (by omega)).mono
            fun _ _ hback' => hback.trans hback'
      exact hheaded.mono fun _ _ hback => hlater.trans hback

/-- **A round** ends, and either it is the last one or a later line is ahead, or the end of the
text. -/
theorem pass_ends_of_bodyEnds (hbody : BodyEnds width bound) (hbound : depth ≤ bound) (level : Nat)
    (nodes : List Node) (hfits : Source.Fits width p.cursor.lines)
    (hdepth : 6 * p.cursor.ahead + width + 5 ≤ depth) :
    Ends (pass depth level nodes) p fun round p' => p.cursor.NotBack p'.cursor
      ∧ (round.1 = true → p.cursor.Later p'.cursor ∧ p.cursor.atEndOfInput = false) := by
  obtain ⟨depth, rfl⟩ : ∃ depth', depth = depth' + 1 := ⟨depth - 1, by omega⟩
  rw [pass]
  refine .get ?_
  simp only
  cases hend : p.cursor.atEndOfInput with
  | true => exact .pure ⟨.refl _, fun h => absurd h Bool.false_ne_true⟩
  | false =>
    rw [if_neg Bool.false_ne_true]
    split
    · have hlater := Cursor.later_nextLine p.cursor
      exact .bind (.of_ok (move_eq _ p) hlater) fun _ _ h => .pure ⟨h.notBack, fun _ => ⟨h, rfl⟩⟩
    · refine (measure_ends level p).bind fun goesOn p₁ hline => ?_
      -- behind the indentation the text may be over, so the lines are counted from before it
      have hback : p.cursor.NotBack p₁.cursor := by
        rw [hline]
        exact Cursor.notBack_column (.inr hend)
      split
      · refine (statement_ends hbody (by omega) level (hback.lines ▸ hfits) hback.ahead
          (Cursor.ahead_pos hend) (by omega)).bind fun nodes' p₂ hlater => ?_
        have hlater₂ : p.cursor.Later p₂.cursor := by
          rw [hline] at hlater
          exact ⟨hlater.lines, hlater.later⟩
        exact .pure ⟨hlater₂.notBack, fun _ => ⟨hlater₂, rfl⟩⟩
      · exact .pure ⟨hback, fun h => absurd h Bool.false_ne_true⟩

/-- As long as the block goes on, fewer lines are ahead. -/
theorem body_ends_succ (hbody : BodyEnds width (depth + 1)) (level : Nat) (nodes : List Node)
    (hfits : Source.Fits width p.cursor.lines) (hdepth : 6 * p.cursor.ahead + width + 5 ≤ depth) :
    Ends (body (depth + 1) level nodes) p fun _ p' => p.cursor.NotBack p'.cursor := by
  rw [body]
  refine (pass_ends_of_bodyEnds hbody (Nat.le_succ depth) level nodes hfits hdepth).bind
    fun round p' hround => ?_
  obtain ⟨goesOn, nodes'⟩ := round
  obtain ⟨hback, hlater⟩ := hround
  cases goesOn with
  | false => exact .pure hback
  | true =>
    obtain ⟨hlater, hend⟩ := hlater rfl
    have hless := hlater.ahead_lt (Nat.le_refl _) (Cursor.ahead_pos hend)
    exact (hbody depth (Nat.lt_succ_self _) level nodes' p' (hback.lines ▸ hfits) (by omega)).mono
      fun _ _ hback' => hback.trans hback'

theorem bodyEnds (width bound : Nat) : BodyEnds width bound := by
  -- each round and each block inside it costs depth, and a round that goes on gains a line
  induction bound with
  | zero => exact fun _ h => absurd h (Nat.not_lt_zero _)
  | succ bound ih =>
    intro depth hbound level nodes p hfits hdepth
    rcases Nat.lt_succ_iff_lt_or_eq.mp hbound with hlt | rfl
    · exact ih depth hlt level nodes p hfits hdepth
    · obtain ⟨depth', rfl⟩ : ∃ depth', depth = depth' + 1 := ⟨depth - 1, by omega⟩
      exact body_ends_succ ih level nodes hfits (by omega)

/-- **All rounds** of reading a block end, wherever the parser is. -/
theorem body_ends (p : Parser) : ∃ enough, ∀ depth ≥ enough, ∀ level nodes,
    Ends (body depth level nodes) p fun _ p' => p.cursor.NotBack p'.cursor := by
  obtain ⟨width, hfits⟩ := Source.exists_fits p.cursor.lines
  exact ⟨_, fun depth hdepth level nodes =>
    bodyEnds width _ depth (Nat.lt_succ_self _) level nodes p hfits hdepth⟩

theorem pass_ends (p : Parser) : ∃ enough, ∀ depth ≥ enough, ∀ level nodes,
    Ends (pass depth level nodes) p fun round p' => round.1 = true → p.cursor.Later p'.cursor := by
  obtain ⟨width, hfits⟩ := Source.exists_fits p.cursor.lines
  exact ⟨_, fun depth hdepth level nodes =>
    (pass_ends_of_bodyEnds (bodyEnds width depth) (Nat.le_refl _) level nodes hfits hdepth).mono
      fun _ _ h hgoesOn => (h.2 hgoesOn).1⟩

end Rounds

end Descent

end Tablica
