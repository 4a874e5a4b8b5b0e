import Tablica.Proofs.Descent.Blocks

/-!
# The rounds of a descent end further on

An expression is read in a loop, and so are the arguments of a call, the indices of a variable and the
rows of a block.  A round that is not the last one ends further on than it began:

    x[1][2] + f(a, b)      item        x[1][2], +, f(a, b)
                           index        [1], [2]
                           argument                  a,   but not b)

The first three stay on their line, and so they end further right.  Neither the tokens that are looked
at in between and left in place nor the blanks in front of a token matter here, and it does not
matter what the range symbol is.  At the end of a line and at the end of the text a token may be read
without moving at all, but no loop goes on with such a token.

* `Parser.Right` — further right on the line;
* `Descent.nextToken_right` — a token;
* `Descent.item_ends`, `Descent.argument_ends`, `Descent.index_ends` — the rounds;
* `Descent.Progresses` — all of it together.
-/

namespace Tablica

/-- The parser has moved right on its line, and nothing else has changed. -/
structure Parser.Right (p p' : Parser) : Prop where
  moved : p' = p.moved p'.cursor.column
  column : p.cursor.column < p'.cursor.column

namespace Parser

variable {p p' p'' : Parser} {rest : List Lexeme} {stop : Stop}

theorem Leaves.right (h : p.Leaves rest p') (hcolumn : p.cursor.column < p'.cursor.column) :
    p.Right p' :=
  ⟨h.moved, hcolumn⟩

theorem Right.trans (h : p.Right p') (h' : p'.Leaves rest p'') : p.Right p'' where
  moved := by rw [h'.moved, h.moved]; rfl
  column := Nat.lt_of_lt_of_le h.column h'.column

/-- A token behind which the line is not over. -/
theorem Reads.right (h : p.Reads stop p') (hends : stop.endsLine = false) : p.Right p' :=
  h.leaves.right (h.progress.resolve_left (by rw [hends]; exact Bool.false_ne_true))

/-- An expression behind which the line is not over. -/
theorem Took.right {o : Reader.Outcome} {node : Node} (h : p.Took o node stop p')
    (hends : stop.endsLine = false) : p.Right p' :=
  h.leaves.right (h.progress.resolve_left (by rw [hends]; exact Bool.false_ne_true))

end Parser

theorem Stop.endsLine_of_kind {stop : Stop} {kind : TokenKind} (h : stop.kind? = some kind)
    (hne : kind ≠ .endOfLine) : stop.endsLine = false := by
  simpa [endsLine, h] using hne

theorem Stop.endsLine_of_is {stop : Stop} {kind : TokenKind} (h : stop.is kind = true)
    (hne : kind ≠ .endOfLine) : stop.endsLine = false :=
  endsLine_of_kind (by simpa [Stop.is] using h) hne

namespace Descent

variable {p : Parser} {depth : Nat}

/-- **A token** that is read is the end of a line or of the text, or the cursor moves right. -/
theorem nextToken_right (p : Parser) :
    Ends nextToken p fun stop p' => stop.endsLine = false → p.Right p' :=
  (nextToken_ends p).mono fun _ _ h => h.2.right

/-- **An item** of an expression. -/
theorem item_ends (hfits : Source.Fits depth p.cursor.lines) (line : SourceLine) :
    Ends (item (expression depth line []) (reference depth line)) p
      fun found p' => found.isLeft = true → p.Right p' := by
  refine (nextToken_ends p).bind fun stop p₁ hstop => ?_
  obtain ⟨-, hreads⟩ := hstop
  have hfits₁ : Source.Fits depth p₁.cursor.lines := hreads.leaves.lines ▸ hfits
  cases hkind : stop.kind? with
  | none => exact .pure fun h => nomatch h
  | some kind =>
    have hright : kind ≠ .endOfLine → p.Right p₁ := fun hne =>
      hreads.right (Stop.endsLine_of_kind hkind hne)
    cases kind with
    | number | boolean | text | operator =>
      exact .pure fun _ => hright TokenKind.noConfusion
    | identifier name =>
      obtain ⟨_, hreference, -⟩ := reference_supplies (expressionFollows line depth) (Nat.le_refl _)
        name p₁ (Parser.length_lexemes hfits₁)
      refine hreference.ends.bind fun node p₂ hnode => .pure fun _ => ?_
      obtain ⟨_, -, -, hleaves⟩ := hnode
      exact (hright TokenKind.noConfusion).trans hleaves
    | punctuator punctuator =>
      have hmoved := hright TokenKind.noConfusion
      cases punctuator with
      | assignment | openBracket => exact .fail _
      | openParenthesis =>
        refine (expression_follows_of_fits hfits₁ line).ends.bind fun found p₂ hfound => ?_
        obtain ⟨_, -, htook⟩ := hfound
        show Ends (if found.2.is _ then _ else _) p₂ _
        split
        · exact .pure fun _ => hmoved.trans htook.leaves
        · exact .fail _
      | _ => exact .pure fun h => nomatch h
    | range | endOfLine => exact .pure fun h => nomatch h
    | keyword keyword =>
      show Ends (if keyword.isTerminator then _ else _) p₁ _
      split
      · exact .pure fun h => nomatch h
      · exact .fail _

/-- **An argument** of a call. -/
theorem argument_ends (hfits : Source.Fits depth p.cursor.lines) (line : SourceLine) :
    Ends (argument (expression depth line [])) p fun round p' => round.1 = true → p.Right p' := by
  refine (expression_follows_of_fits hfits line).ends.bind fun found p' hfound => ?_
  obtain ⟨_, -, htook⟩ := hfound
  show Ends (if found.2.is _ then _ else _) p' _
  split
  · rename_i hcomma
    exact .pure fun _ => htook.right (Stop.endsLine_of_is hcomma TokenKind.noConfusion)
  · split
    · exact .pure fun h => nomatch h
    · exact .fail _

/-- **An index** of a variable. -/
theorem index_ends (hfits : Source.Fits depth p.cursor.lines) (line : SourceLine) :
    Ends (index (expression depth line [])) p
      fun found p' => found.isSome = true → p.Right p' := by
  refine .congr (peekChar_bind _ p) ?_
  split
  · refine (nextToken_ends p).bind fun stop p₁ hstop => ?_
    obtain ⟨-, hreads⟩ := hstop
    refine (expression_follows_of_fits (hreads.leaves.lines ▸ hfits) line).ends.bind
      fun found p₂ hfound => ?_
    obtain ⟨_, -, htook⟩ := hfound
    show Ends (if found.2.is _ then _ else _) p₂ _
    split
    · rename_i hclose
      have hright := htook.right (Stop.endsLine_of_is hclose TokenKind.noConfusion)
      refine .pure fun _ => (hreads.leaves.trans htook.leaves).right ?_
      exact Nat.lt_of_le_of_lt hreads.leaves.column hright.column
    · exact .fail _
  · exact .pure fun h => nomatch h

/-- Within the depth every round that begins here ends, and if its loop goes on, further on: in a row
further right, and in a block on a later line or at the end of the text. -/
structure Progresses (depth : Nat) (p : Parser) : Prop where
  item : ∀ line, Ends (item (expression depth line []) (reference depth line)) p
    fun found p' => found.isLeft = true → p.Right p'
  argument : ∀ line, Ends (argument (expression depth line [])) p
    fun round p' => round.1 = true → p.Right p'
  index : ∀ line, Ends (index (expression depth line [])) p
    fun found p' => found.isSome = true → p.Right p'
  pass : ∀ level nodes, Ends (pass depth level nodes) p
    fun round p' => round.1 = true → p.cursor.Later p'.cursor

/-- **Every round** ends, wherever the parser is. -/
theorem exists_progresses (p : Parser) : ∃ enough, ∀ depth ≥ enough, Progresses depth p := by
  obtain ⟨width, hfits⟩ := Source.exists_fits p.cursor.lines
  obtain ⟨enough, hpass⟩ := pass_ends p
  refine ⟨max width enough, fun depth hdepth => ?_⟩
  have hwide := hfits.mono (Nat.le_trans (Nat.le_max_left _ _) hdepth)
  exact {
    item := item_ends hwide
    argument := argument_ends hwide
    index := index_ends hwide
    pass := hpass depth (Nat.le_trans (Nat.le_max_right _ _) hdepth) }

end Descent

end Tablica
