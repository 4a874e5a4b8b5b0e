import Tablica.Proofs.Descent.Nesting
import Tablica.Proofs.Descent.Tokens

/-!
# A descent reads expressions

The functions that read expressions call one another in a circle, and each of them may look at a
token without taking it.  But before the circle closes a token has been taken: the lexemes that are
ahead when `expression` is called again are fewer.  At most four calls lie between, so four times as
many calls as there are lexemes are deep enough, and what they come to is what the reader comes to
that goes along the lexemes once, with the open brackets on a stack.

    expression  ▸ takes a token  ▸ reference  ▸ arguments  ▸ expression
                                              ▸ indices    ▸ expression
                ▸ takes a token  ▸ expression

* `Parser.Took` — how an expression leaves the parser;
* `Descent.Supplies` — a descent that reads what stands behind a name;
* `Descent.indices_supplies`, `Descent.arguments_supplies` — indices and arguments;
* `Descent.expression_follows` — every expression is read to its end;
* `Source.Fits`, `Parser.length_lexemes` — a depth for all lines of a text.
-/

namespace Tablica

/-- What an expression comes to, and the parser is behind its stop. -/
structure Parser.Took (p : Parser) (o : Reader.Outcome) (node : Node) (stop : Stop) (p' : Parser) :
    Prop where
  node_eq : node = o.node
  stop_eq : stop = o.stop
  leaves : p.Leaves o.rest p'
  next : p'.cursor.peek 0 = o.next
  progress : stop.endsLine ∨ p.cursor.column < p'.cursor.column

theorem Parser.Took.trans {p p' p'' : Parser} {rest : List Lexeme} {o : Reader.Outcome}
    {node : Node} {stop : Stop} (h : p.Leaves rest p') (h' : p'.Took o node stop p'') :
    p.Took o node stop p'' where
  node_eq := h'.node_eq
  stop_eq := h'.stop_eq
  leaves := h.trans h'.leaves
  next := h'.next
  progress := h'.progress.imp id (Nat.lt_of_le_of_lt h.column)

namespace Reader

variable {line : SourceLine} {isStatement : Bool} {ending : Ending} {reader : Reader}
  {items : List Lexeme}

/-- A fault ahead is met by every reader. -/
theorem outcome_of_error {fault : Fault} (h : Stop.next ending items = .error fault) :
    reader.outcome line isStatement ending items = .error fault := by
  rcases items with _ | ⟨_ | _, items⟩
  · rw [outcome, h]
    rfl
  · cases h
  · cases h
    rfl

/-- The bracket that was announced is taken, whatever stands there. -/
theorem outcome_opening {stop : Stop} {run : List Item} {opened : List (Bracket × List Item)}
    (h : Stop.next ending items = .ok stop) :
    outcome line isStatement ending ⟨run, opened, true⟩ items
      = outcome line isStatement ending ⟨run, opened, false⟩ items.tail := by
  rcases items with _ | ⟨_ | _, items⟩
  · rfl
  · rfl
  · cases h

/-- An expression that is not empty takes a lexeme. -/
theorem length_lt_of_outcome {o : Outcome}
    (h : outcome line isStatement ending {} items = .ok o) : o.rest.length < items.length := by
  have hle := length_of_outcome h
  cases items with
  | nil =>
    rw [outcome] at h
    cases hstop : Stop.next ending [] with
    | error fault =>
      rw [hstop] at h
      cases h
    | ok stop =>
      rw [hstop] at h
      cases h
  | cons lexeme items => exact Nat.lt_succ_of_le hle

end Reader

/-- A token that is not the end of the line is the first of the lexemes. -/
theorem Stop.token_of_next {ending : Ending} {items : List Lexeme} {stop : Stop} {kind : TokenKind}
    (h : Stop.next ending items = .ok stop) (hkind : stop.is kind = true) (hne : kind ≠ .endOfLine) :
    ∃ token next, items = .token token next :: items.tail ∧ token.kind = kind := by
  simp only [Stop.is, beq_iff_eq] at hkind
  rcases items with _ | ⟨⟨token, next⟩ | fault, items⟩
  · cases ending with
    | line position =>
      cases h
      exact absurd (Option.some.inj hkind).symm hne
    | input position =>
      cases h
      cases hkind
    | stuck fault => cases h
  · cases h
    exact ⟨token, next, rfl, Option.some.inj hkind⟩
  · cases h

namespace Descent

variable {line : SourceLine} {p : Parser}

/-- Expressions are read to their end within every depth below the bound that is deep enough for the
lexemes ahead. -/
def ExpressionFollows (line : SourceLine) (bound : Nat) : Prop :=
  ∀ depth < bound, ∀ (p : Parser) (run : List Item), 4 * p.lexemes.items.length + 1 ≤ depth →
    Follows (expression depth line run) p (fun o a p' => p.Took o a.1 a.2 p')
      (Reader.outcome line false p.lexemes.ending { run } p.lexemes.items)

/-- The descent reads what stands behind a name.  A reader that is `prepared` for it goes on with
the operand that is made of it. -/
def Supplies (line : SourceLine) (m : Descent (List Node)) (p : Parser)
    (prepared : String → Position → List Item → List (Bracket × List Item) → Reader)
    (made : String → List Node → Node) : Prop :=
  ∃ x : Except Fault (List Node × List Lexeme),
    Follows m p (fun found nodes p' => nodes = found.1 ∧ p.Leaves found.2 p') x
      ∧ (∀ found, x = .ok found → found.2.length ≤ p.lexemes.items.length)
      ∧ ∀ isStatement name position run opened,
        (prepared name position run opened).outcome line isStatement p.lexemes.ending p.lexemes.items
          = x.bind fun found => Reader.outcome line isStatement p.lexemes.ending
            { run := .operand (made name found.1) position :: run, opened } found.2

namespace Supplies

variable {m m' : Descent (List Node)} {p' : Parser} {made : String → List Node → Node}
  {prepared prepared' : String → Position → List Item → List (Bracket × List Item) → Reader}

theorem of_error {fault : Fault} (hrun : m p = some (.error (.ofFault p.cursor.lines fault)))
    (hread : ∀ isStatement name position run opened,
      (prepared name position run opened).outcome line isStatement p.lexemes.ending p.lexemes.items
        = .error fault) : Supplies line m p prepared made :=
  ⟨.error fault, .fault hrun, fun _ h => absurd h.symm (by simp), hread⟩

theorem of_ok {nodes : List Node} {rest : List Lexeme} (hrun : m p = some (.ok (nodes, p')))
    (hleaves : p.Leaves rest p') (hlength : rest.length ≤ p.lexemes.items.length)
    (hread : ∀ isStatement name position run opened,
      (prepared name position run opened).outcome line isStatement p.lexemes.ending p.lexemes.items
        = Reader.outcome line isStatement p.lexemes.ending
          { run := .operand (made name nodes) position :: run, opened } rest) :
    Supplies line m p prepared made := by
  refine ⟨.ok (nodes, rest), .value hrun ?_ ⟨rfl, hleaves⟩, fun found h => ?_, hread⟩
  · rw [hleaves.moved]
    rfl
  · cases h
    exact hlength

/-- Some lexemes are passed first. -/
theorem of_later {rest : List Lexeme} (hrun : m p = m' p') (hleaves : p.Leaves rest p')
    (hlength : rest.length ≤ p.lexemes.items.length)
    (hread : ∀ isStatement name position run opened,
      (prepared name position run opened).outcome line isStatement p.lexemes.ending p.lexemes.items
        = (prepared' name position run opened).outcome line isStatement p.lexemes.ending rest)
    (h : Supplies line m' p' prepared' made) : Supplies line m p prepared made := by
  obtain ⟨x, hfollows, hx, hread'⟩ := h
  have hlines : p'.cursor.lines = p.cursor.lines := by
    rw [hleaves.moved]
    rfl
  rw [hleaves.lexemes] at hx hread'
  refine ⟨x, ?_, fun found h => Nat.le_trans (hx found h) hlength,
    fun _ _ _ _ _ => (hread _ _ _ _ _).trans (hread' _ _ _ _ _)⟩
  cases hfollows with
  | fault h => exact .fault (by rw [hrun, h, hlines])
  | value h hlines' hrelated =>
    exact .value (hrun.trans h) (hlines'.trans hlines) ⟨hrelated.1, hleaves.trans hrelated.2⟩

/-- An expression is read in a bracket, and the bracket takes it. -/
theorem of_expression {bound depth : Nat} {rest : List Lexeme} {bracket : String → Position → Bracket}
    {k : Node × Stop → Descent (List Node)} (hexpression : ExpressionFollows line bound)
    (hbound : depth < bound) (hdepth : 4 * rest.length + 1 ≤ depth) (hleaves : p.Leaves rest p')
    (hrun : m p = (expression depth line [] >>= k) p')
    (hread : ∀ isStatement name position run opened,
      (prepared name position run opened).outcome line isStatement p.lexemes.ending p.lexemes.items
        = (Reader.outcome line false p.lexemes.ending {} rest).bind fun o =>
          (Reader.resumeIn line (bracket name position) run opened o.node o.stop o.next).bind
            fun reader => reader.outcome line isStatement p.lexemes.ending o.rest)
    (hk : ∀ (o : Reader.Outcome) (p₂ : Parser), p.Leaves o.rest p₂ → o.rest.length < rest.length →
      p₂.cursor.peek 0 = o.next → m p = k (o.node, o.stop) p₂ →
      (∀ isStatement name position run opened,
        (prepared name position run opened).outcome line isStatement p.lexemes.ending p.lexemes.items
          = (Reader.resumeIn line (bracket name position) run opened o.node o.stop o.next).bind
            fun reader => reader.outcome line isStatement p.lexemes.ending o.rest) →
      Supplies line m p prepared made) : Supplies line m p prepared made := by
  have hinner := hexpression depth hbound p' [] (by rw [hleaves.lexemes]; exact hdepth)
  rw [hleaves.lexemes] at hinner
  cases houtcome : Reader.outcome line false p.lexemes.ending {} rest with
  | error fault =>
    rw [houtcome] at hinner hread
    rw [bind_of_error hinner.of_error, hleaves.lines] at hrun
    exact .of_error hrun hread
  | ok o =>
    rw [houtcome] at hinner hread
    obtain ⟨⟨node, stop⟩, p₂, hinner, -, htook⟩ := hinner.of_ok
    obtain ⟨rfl, rfl, hleaves', hpeek, -⟩ := htook
    rw [bind_of_ok hinner] at hrun
    exact hk o p₂ (hleaves.trans hleaves') (Reader.length_lt_of_outcome houtcome) hpeek hrun hread

/-- The expression is refused. -/
theorem of_expected {wanted : Wanted} {stop : Stop} {rest : List Lexeme} (hleaves : p.Leaves rest p')
    (hrun : m p = expected wanted stop p')
    (hread : ∀ isStatement name position run opened,
      (prepared name position run opened).outcome line isStatement p.lexemes.ending p.lexemes.items
        = .error ⟨.expected wanted stop.found, stop.position⟩) : Supplies line m p prepared made := by
  rw [expected, fail_eq, hleaves.lines] at hrun
  exact .of_error hrun hread

end Supplies

/-- The reader that is prepared for indices. -/
def indexing (next : Option Char) (before : List Node) (name : String) (position : Position)
    (run : List Item) (opened : List (Bracket × List Item)) : Reader :=
  if next = some '[' then
    { opened := (.index name position before, run) :: opened, opening := true }
  else { run := .operand (.var name before.reverse) position :: run, opened }

theorem indices_of_bracket {depth : Nat} {before : List Node} (h : p.cursor.peek 0 = some '[') :
    indices (depth + 1) line before p
      = (nextToken >>= fun _ => expression depth line [] >>= fun found =>
        if found.2.is (.punctuator .closeBracket) then indices depth line (found.1 :: before)
        else expected .closeBracket found.2) p := by
  rw [indices, index, bind_assoc, peekChar_bind, if_pos h]
  simp only [bind_assoc]
  refine congrArg (fun k : Stop → Descent (List Node) => (nextToken >>= k) p) (funext fun _ => ?_)
  refine congrArg (_ >>= ·) (funext fun found => ?_)
  obtain ⟨node, stop⟩ := found
  simp only
  split
  · rfl
  · rfl

theorem indices_of_other {depth : Nat} {before : List Node} (h : p.cursor.peek 0 ≠ some '[') :
    indices (depth + 1) line before p = some (.ok (before.reverse, p)) := by
  rw [indices, index, bind_assoc, peekChar_bind, if_neg h]
  rfl

/-- **Indices** are read to their end. -/
theorem indices_supplies {bound depth : Nat} (hexpression : ExpressionFollows line bound)
    (hbound : depth ≤ bound) (before : List Node) (p : Parser)
    (hdepth : 4 * p.lexemes.items.length + 2 ≤ depth) :
    Supplies line (indices depth line before) p (indexing (p.cursor.peek 0) before) .var := by
  induction depth generalizing p before with
  | zero => omega
  | succ depth ih =>
    by_cases hpeek : p.cursor.peek 0 = some '['
    · have hindexing : indexing (p.cursor.peek 0) before = fun name position run opened =>
          { opened := (.index name position before, run) :: opened, opening := true } := by
        funext name position run opened
        rw [indexing, if_pos hpeek]
      rw [hindexing]
      have hrun : indices (depth + 1) line before p = _ := indices_of_bracket hpeek
      cases hnext : Stop.next p.lexemes.ending p.lexemes.items with
      | error fault =>
        exact .of_error (hrun.trans (bind_of_error (nextToken_of_fault hnext))) fun _ _ _ _ _ =>
          Reader.outcome_of_error hnext
      | ok stop =>
        obtain ⟨p₁, htoken, hreads⟩ := nextToken_of_ok hnext
        rw [bind_of_ok htoken] at hrun
        have htail : p.lexemes.items.tail.length ≤ p.lexemes.items.length := by simp
        have hread : ∀ isStatement name position run opened,
            Reader.outcome line isStatement p.lexemes.ending
                { opened := (.index name position before, run) :: opened, opening := true }
                p.lexemes.items
              = (Reader.outcome line false p.lexemes.ending {} p.lexemes.items.tail).bind fun o =>
                (Reader.resumeIn line (.index name position before) run opened o.node o.stop
                  o.next).bind fun reader =>
                  reader.outcome line isStatement p.lexemes.ending o.rest := by
          intro isStatement name position run opened
          rw [Reader.outcome_opening hnext]
          refine Reader.outcome_bracket fun _ _ _ _ hends => ?_
          obtain ⟨-, -, _, _, _, _, heq⟩ := hends
          cases heq
        refine .of_expression hexpression (by omega) (by omega) hreads.leaves hrun hread
          fun o p₂ hleaves hless hnext₂ hrun hread => ?_
        cases hclose : o.stop.is (.punctuator .closeBracket) with
        | true =>
          rw [if_pos hclose] at hrun
          refine .of_later hrun hleaves (by omega) (fun isStatement name position run opened => ?_)
            (ih (by omega) (o.node :: before) p₂ (by rw [hleaves.lexemes]; simp only; omega))
          rw [hread, hnext₂]
          simp only [Reader.resumeIn, hclose, if_true]
          rfl
        | false =>
          rw [if_neg (by rw [hclose]; exact Bool.false_ne_true)] at hrun
          refine .of_expected hleaves hrun fun isStatement name position run opened => ?_
          rw [hread]
          simp only [Reader.resumeIn, hclose, Bool.false_eq_true, if_false]
          rfl
    · refine .of_ok (indices_of_other hpeek) (.refl p) (Nat.le_refl _) fun _ _ _ _ _ => ?_
      rw [indexing, if_neg hpeek]

/-- The reader that is prepared for arguments. -/
def calling (before : List Node) (name : String) (position : Position) (run : List Item)
    (opened : List (Bracket × List Item)) : Reader :=
  { opened := (.arguments name position before, run) :: opened }

/-- The operand of a call. -/
def call (line : SourceLine) (name : String) (arguments : List Node) : Node :=
  .call name arguments line

theorem argumentList_eq {depth : Nat} {before : List Node} :
    argumentList (depth + 1) line before = (expression depth line [] >>= fun found =>
      if found.2.is (.punctuator .comma) then argumentList depth line (found.1 :: before)
      else if found.2.is (.punctuator .closeParenthesis) then
        pure (found.1 :: before).reverse
      else expected .commaOrCloseParenthesis found.2) := by
  rw [argumentList, argument, bind_assoc]
  refine congrArg (_ >>= ·) (funext fun found => ?_)
  obtain ⟨node, stop⟩ := found
  simp only
  split
  · rfl
  · split <;> rfl

/-- **Arguments**, of which there is at least one, are read to their end. -/
theorem argumentList_supplies {bound depth : Nat} (hexpression : ExpressionFollows line bound)
    (hbound : depth ≤ bound) (before : List Node) (p : Parser)
    (hdepth : 4 * p.lexemes.items.length + 2 ≤ depth)
    (hbefore : before = [] → ∀ token next rest, p.lexemes.items = .token token next :: rest →
      token.kind ≠ .punctuator .closeParenthesis) :
    Supplies line (argumentList depth line before) p (calling before) (call line) := by
  induction depth generalizing p before with
  | zero => omega
  | succ depth ih =>
    have hread : ∀ isStatement name position run opened,
        (calling before name position run opened).outcome line isStatement p.lexemes.ending
            p.lexemes.items
          = (Reader.outcome line false p.lexemes.ending {} p.lexemes.items).bind fun o =>
            (Reader.resumeIn line (.arguments name position before) run opened o.node o.stop
              o.next).bind fun reader =>
              reader.outcome line isStatement p.lexemes.ending o.rest := by
      intro isStatement name position run opened
      refine Reader.outcome_bracket fun token next rest hitems hends => ?_
      obtain ⟨-, hkind, _, _, _, _, heq⟩ := hends
      cases heq
      exact hbefore rfl token next rest hitems hkind
    have hrun : argumentList (depth + 1) line before p = _ := congrFun argumentList_eq p
    refine .of_expression hexpression (by omega) (by omega) (.refl p) hrun hread
      fun o p' hleaves hless _ hrun hread => ?_
    cases hcomma : o.stop.is (.punctuator .comma) with
    | true =>
      rw [if_pos hcomma] at hrun
      refine .of_later hrun hleaves (by omega) (fun isStatement name position run opened => ?_)
        (ih (by omega) (o.node :: before) p' (by rw [hleaves.lexemes]; simp only; omega)
          (absurd · (List.cons_ne_nil _ _)))
      rw [hread]
      simp only [Reader.resumeIn, hcomma, if_true]
      rfl
    | false =>
      rw [if_neg (by rw [hcomma]; exact Bool.false_ne_true)] at hrun
      cases hclose : o.stop.is (.punctuator .closeParenthesis) with
      | true =>
        rw [if_pos hclose] at hrun
        refine .of_ok hrun hleaves (by omega) fun isStatement name position run opened => ?_
        rw [hread]
        simp only [Reader.resumeIn, hcomma, hclose, Bool.false_eq_true, if_false, if_true]
        rfl
      | false =>
        rw [if_neg (by rw [hclose]; exact Bool.false_ne_true)] at hrun
        refine .of_expected hleaves hrun fun isStatement name position run opened => ?_
        rw [hread]
        simp only [Reader.resumeIn, hcomma, hclose, Bool.false_eq_true, if_false]
        rfl

theorem arguments_eq {depth : Nat} : arguments (depth + 1) line = (peekToken >>= fun stop =>
    if stop.is (.punctuator .closeParenthesis) then nextToken >>= fun _ => pure []
    else argumentList depth line []) := by
  rw [arguments]

/-- **The arguments of a call** are read to their end. -/
theorem arguments_supplies {bound depth : Nat} (hexpression : ExpressionFollows line bound)
    (hbound : depth ≤ bound) (p : Parser) (hdepth : 4 * p.lexemes.items.length + 3 ≤ depth) :
    Supplies line (arguments depth line) p (calling []) (call line) := by
  obtain ⟨depth, rfl⟩ : ∃ depth', depth = depth' + 1 := ⟨depth - 1, by omega⟩
  have hrun : arguments (depth + 1) line p = _ := congrFun arguments_eq p
  cases hnext : Stop.next p.lexemes.ending p.lexemes.items with
  | error fault =>
    exact .of_error (hrun.trans (bind_of_error (peekToken_of_error hnext))) fun _ _ _ _ _ =>
      Reader.outcome_of_error hnext
  | ok stop =>
    rw [bind_of_ok (peekToken_of_ok hnext)] at hrun
    cases hclose : stop.is (.punctuator .closeParenthesis) with
    | true =>
      obtain ⟨p', htoken, hreads⟩ := nextToken_of_ok hnext
      rw [if_pos hclose, bind_of_ok htoken] at hrun
      refine .of_ok hrun hreads.leaves (by simp) fun isStatement name position run opened => ?_
      obtain ⟨token, next, hitems, hkind⟩ := Stop.token_of_next hnext hclose (by simp)
      rw [hitems]
      obtain ⟨kind, _⟩ := token
      cases hkind
      rfl
    | false =>
      rw [if_neg (by rw [hclose]; exact Bool.false_ne_true)] at hrun
      refine .of_later hrun (.refl p) (Nat.le_refl _) (fun _ _ _ _ _ => rfl)
        (argumentList_supplies hexpression (by omega) [] p (by omega)
          fun _ token next rest hitems hkind => ?_)
      rw [hitems] at hnext
      cases hnext
      simp [Stop.is, Stop.ofToken, hkind] at hclose

/-- The reader behind a name, before the character `next`. -/
def referring (next : Option Char) (name : String) (position : Position) (run : List Item)
    (opened : List (Bracket × List Item)) : Reader :=
  if next = some '(' then
    { opened := (.arguments name position [], run) :: opened, opening := true }
  else indexing next [] name position run opened

/-- A name in an expression. -/
theorem step_identifier (isStatement : Bool) (ending : Ending) (name : String) (position : Position)
    (next : Option Char) (run : List Item) (rest : List Lexeme) :
    (Reader.step line isStatement { run } ⟨.identifier name, position⟩ next).bind
        (Reader.goOn line isStatement ending next rest)
      = (referring next name position run []).outcome line isStatement ending rest := by
  simp only [Reader.step, referring, indexing, Bool.false_eq_true, if_false]
  split
  · rfl
  · split <;> rfl

/-- What is made of what stands behind a name. -/
theorem Supplies.made {m : Descent (List Node)} {made : String → List Node → Node}
    {prepared : String → Position → List Item → List (Bracket × List Item) → Reader}
    (h : Supplies line m p prepared made) (name : String) :
    ∃ x : Except Fault (Node × List Lexeme),
      Follows (m >>= fun nodes => pure (made name nodes)) p
          (fun found node p' => node = found.1 ∧ p.Leaves found.2 p') x
        ∧ (∀ found, x = .ok found → found.2.length ≤ p.lexemes.items.length)
        ∧ ∀ isStatement position run opened,
          (prepared name position run opened).outcome line isStatement p.lexemes.ending
              p.lexemes.items
            = x.bind fun found => Reader.outcome line isStatement p.lexemes.ending
              { run := .operand found.1 position :: run, opened } found.2 := by
  obtain ⟨x, hfollows, hlength, hread⟩ := h
  refine ⟨x.bind fun found => .ok (made name found.1, found.2), ?_, fun found h => ?_,
    fun isStatement position run opened => ?_⟩
  · refine hfollows.bind fun found nodes p' _ hfound => ?_
    obtain ⟨rfl, hleaves⟩ := hfound
    exact .pure ⟨rfl, hleaves⟩
  · cases x with
    | error fault => cases h
    | ok found' =>
      cases h
      exact hlength found' rfl
  · rw [hread]
    cases x <;> rfl

theorem reference_of_call {depth : Nat} {name : String} (h : p.cursor.peek 0 = some '(') :
    reference (depth + 1) line name p = ((nextToken >>= fun _ => arguments depth line) >>=
      fun nodes => pure (call line name nodes)) p := by
  rw [reference, peekChar_bind, if_pos h, bind_assoc]
  rfl

theorem reference_of_variable {depth : Nat} {name : String} (h : p.cursor.peek 0 ≠ some '(') :
    reference (depth + 1) line name p
      = (indices depth line [] >>= fun nodes => pure (.var name nodes)) p := by
  rw [reference, peekChar_bind, if_neg h]

/-- **What stands behind a name** is read to its end. -/
theorem reference_supplies {bound depth : Nat} (hexpression : ExpressionFollows line bound)
    (hbound : depth ≤ bound) (name : String) (p : Parser)
    (hdepth : 4 * p.lexemes.items.length + 4 ≤ depth) :
    ∃ x : Except Fault (Node × List Lexeme),
      Follows (reference depth line name) p
          (fun found node p' => node = found.1 ∧ p.Leaves found.2 p') x
        ∧ (∀ found, x = .ok found → found.2.length ≤ p.lexemes.items.length)
        ∧ ∀ isStatement position run opened,
          (referring (p.cursor.peek 0) name position run opened).outcome line isStatement
              p.lexemes.ending p.lexemes.items
            = x.bind fun found => Reader.outcome line isStatement p.lexemes.ending
              { run := .operand found.1 position :: run, opened } found.2 := by
  obtain ⟨depth, rfl⟩ : ∃ depth', depth = depth' + 1 := ⟨depth - 1, by omega⟩
  by_cases hpeek : p.cursor.peek 0 = some '('
  · have hcall : Supplies line (nextToken >>= fun _ => arguments depth line) p
        (referring (p.cursor.peek 0)) (call line) := by
      have hreferring : referring (p.cursor.peek 0) = fun name position run opened =>
          { opened := (.arguments name position [], run) :: opened, opening := true } := by
        funext name position run opened
        rw [referring, if_pos hpeek]
      rw [hreferring]
      cases hnext : Stop.next p.lexemes.ending p.lexemes.items with
      | error fault =>
        exact .of_error (bind_of_error (nextToken_of_fault hnext)) fun _ _ _ _ _ =>
          Reader.outcome_of_error hnext
      | ok stop =>
        obtain ⟨p', htoken, hreads⟩ := nextToken_of_ok hnext
        have hlexemes := hreads.leaves.lexemes
        refine .of_later (bind_of_ok htoken) hreads.leaves (by simp) (fun _ _ _ _ _ => ?_)
          (arguments_supplies hexpression (by omega) p' ?_)
        · exact Reader.outcome_opening hnext
        · rw [hlexemes, List.length_tail]
          omega
    obtain ⟨x, hfollows, hread⟩ := hcall.made name
    exact ⟨x, hfollows.congr (reference_of_call hpeek), hread⟩
  · have hreferring : referring (p.cursor.peek 0) = indexing (p.cursor.peek 0) [] := by
      funext name position run opened
      rw [referring, if_neg hpeek]
    have hindices : Supplies line (indices depth line []) p _ _ :=
      indices_supplies hexpression (by omega) [] p (by omega)
    obtain ⟨x, hfollows, hread⟩ := hindices.made name
    rw [hreferring]
    exact ⟨x, hfollows.congr (reference_of_variable hpeek), hread⟩

/-- The expression is over, and its tree is found. -/
theorem tree_follows {p' : Parser} {run : List Item} {stop : Stop} {rest : List Lexeme}
    {next : Option Char} (hleaves : p.Leaves rest p') (hnext : p'.cursor.peek 0 = next)
    (hprogress : stop.endsLine ∨ p.cursor.column < p'.cursor.column) :
    Follows (ofExcept (Reader.tree line { run } stop) >>= fun node => pure (node, stop)) p'
      (fun o a p'' => p.Took o a.1 a.2 p'')
      ((Reader.tree line { run } stop).bind fun node => .ok ⟨node, stop, next, rest⟩) := by
  refine (Follows.of_except _).bind fun node _ _ _ hnode => ?_
  obtain ⟨rfl, rfl⟩ := hnode
  exact .pure ⟨rfl, rfl, hleaves, hnext, hprogress⟩

/-- Where no lexeme is left. -/
theorem expression_follows_nil {depth : Nat} {run : List Item} (hitems : p.lexemes.items = []) :
    Follows (expression (depth + 1) line run) p (fun o a p' => p.Took o a.1 a.2 p')
      (Reader.outcome line false p.lexemes.ending { run } []) := by
  rw [expression, item, bind_assoc]
  cases hnext : Stop.next p.lexemes.ending p.lexemes.items with
  | error fault =>
    rw [Reader.outcome_of_error (hitems ▸ hnext)]
    exact .fault (bind_of_error (nextToken_of_fault hnext))
  | ok stop =>
    obtain ⟨p', htoken, hreads⟩ := nextToken_of_ok hnext
    have hleaves : p.Leaves [] p' := by
      have := hreads.leaves
      rwa [hitems] at this
    have hpeek : p'.cursor.peek 0 = none := by rw [hreads.next, hitems]; rfl
    have hvalue : Reader.outcome line false p.lexemes.ending { run } []
        = (Reader.tree line { run } stop).bind fun node => .ok ⟨node, stop, none, []⟩ := by
      rw [Reader.outcome, ← hitems, hnext]
      simp only [Except.bind, Reader.finish]
      cases Reader.tree line { run } stop <;> rfl
    rw [hvalue]
    refine .step htoken hleaves.lines ?_
    have htree : Follows (ofExcept (Reader.tree line { run } stop) >>= fun node =>
        pure (node, stop)) p' _ _ := tree_follows hleaves hpeek hreads.progress
    rw [hitems] at hnext
    cases hending : p.lexemes.ending with
    | line position =>
      rw [hending] at hnext
      cases hnext
      exact htree
    | input position =>
      rw [hending] at hnext
      cases hnext
      exact htree
    | stuck fault =>
      rw [hending] at hnext
      cases hnext

section Token

variable {depth : Nat} {run : List Item} {rest : List Lexeme} {next : Option Char}
  {position : Position} {p' : Parser}

/-- What is read further on is read of what is ahead there. -/
theorem ExpressionFollows.again (hexpression : ExpressionFollows line (depth + 1))
    (hleaves : p.Leaves rest p') (hdepth : 4 * rest.length + 1 ≤ depth) (run : List Item) :
    Follows (expression depth line run) p' (fun o a p'' => p.Took o a.1 a.2 p'')
      (Reader.outcome line false p.lexemes.ending { run } rest) := by
  have hrest := hexpression depth (Nat.lt_succ_self _) p' run (by rw [hleaves.lexemes]; exact hdepth)
  rw [hleaves.lexemes] at hrest
  exact hrest.mono fun _ _ _ _ htook => .trans hleaves htook

/-- An expression ends at a token. -/
theorem close_follows {kind : TokenKind} (hleaves : p.Leaves rest p')
    (hpeek : p'.cursor.peek 0 = next) (hreads : p.Reads ⟨some kind, position⟩ p') :
    Follows (ofExcept (Reader.tree line { run } ⟨some kind, position⟩) >>= fun node =>
        pure (node, ⟨some kind, position⟩)) p' (fun o a p'' => p.Took o a.1 a.2 p'')
      ((Reader.close line { run } ⟨kind, position⟩ next).bind
        (Reader.goOn line false p.lexemes.ending next rest)) := by
  have hclose : ¬Reader.EndsArguments run [] kind := by
    rintro ⟨-, -, _, _, _, _, heq⟩
    cases heq
  have hvalue : (Reader.close line { run } ⟨kind, position⟩ next).bind
        (Reader.goOn line false p.lexemes.ending next rest)
      = (Reader.tree line { run } ⟨some kind, position⟩).bind fun node =>
        .ok ⟨node, ⟨some kind, position⟩, next, rest⟩ := by
    rw [Reader.close_eq hclose]
    show ((Reader.tree line { run } ⟨some kind, position⟩).bind _).bind _ = _
    cases Reader.tree line { run } ⟨some kind, position⟩ <;> rfl
  rw [hvalue]
  exact tree_follows hleaves hpeek hreads.progress

/-- An expression goes on with a name. -/
theorem identifier_follows (hexpression : ExpressionFollows line (depth + 1)) (name : String)
    (hleaves : p.Leaves rest p') (hpeek : p'.cursor.peek 0 = next)
    (hdepth : 4 * rest.length + 4 ≤ depth) :
    Follows (reference depth line name >>= fun node =>
        expression depth line (.operand node position :: run)) p'
      (fun o a p'' => p.Took o a.1 a.2 p'')
      ((Reader.step line false { run } ⟨.identifier name, position⟩ next).bind
        (Reader.goOn line false p.lexemes.ending next rest)) := by
  obtain ⟨x, hreference, hlength, hread⟩ :=
    reference_supplies hexpression (Nat.le_succ depth) name p' (by rw [hleaves.lexemes]; exact hdepth)
  rw [hleaves.lexemes, hpeek] at hread
  rw [step_identifier, hread]
  refine hreference.bind fun found node p'' hfound hnode => ?_
  obtain ⟨rfl, hleaves'⟩ := hnode
  have hless : found.2.length ≤ rest.length := by
    have hle := hlength found hfound
    rwa [hleaves.lexemes] at hle
  exact hexpression.again (hleaves.trans hleaves') (by omega) _

/-- An expression goes on with another one in parentheses. -/
theorem parenthesis_follows (hexpression : ExpressionFollows line (depth + 1))
    (hleaves : p.Leaves rest p') (hdepth : 4 * rest.length + 4 ≤ depth) :
    Follows (expression depth line [] >>= fun found =>
        if found.2.is (.punctuator .closeParenthesis) then
          expression depth line (.operand found.1 position :: run)
        else expected .closeParenthesis found.2) p' (fun o a p'' => p.Took o a.1 a.2 p'')
      ((Reader.step line false { run } ⟨.punctuator .openParenthesis, position⟩ next).bind
        (Reader.goOn line false p.lexemes.ending next rest)) := by
  have hvalue : (Reader.step line false { run } ⟨.punctuator .openParenthesis, position⟩ next).bind
        (Reader.goOn line false p.lexemes.ending next rest)
      = (Reader.outcome line false p.lexemes.ending {} rest).bind fun o =>
        (Reader.resumeIn line (.parenthesis position) run [] o.node o.stop o.next).bind
          fun reader => reader.outcome line false p.lexemes.ending o.rest := by
    refine Reader.outcome_bracket fun _ _ _ _ hends => ?_
    obtain ⟨-, -, _, _, _, _, heq⟩ := hends
    cases heq
  rw [hvalue]
  refine (hexpression.again hleaves (by omega) []).bind fun o a p'' ho htook => ?_
  obtain ⟨node, stop⟩ := a
  obtain ⟨rfl, rfl, hleaves', -, -⟩ := htook
  have hless := Reader.length_lt_of_outcome ho
  simp only [Reader.resumeIn]
  split
  · exact hexpression.again hleaves' (by omega) _
  · exact .fail _

/-- A token is taken, and then fewer lexemes are ahead. -/
theorem expression_follows_token {token : Token} (hexpression : ExpressionFollows line (depth + 1))
    (hitems : p.lexemes.items = .token token next :: rest) (hdepth : 4 * rest.length + 4 ≤ depth) :
    Follows (expression (depth + 1) line run) p (fun o a p' => p.Took o a.1 a.2 p')
      ((Reader.step line false { run } token next).bind
        (Reader.goOn line false p.lexemes.ending next rest)) := by
  have hnext : Stop.next p.lexemes.ending p.lexemes.items = .ok (.ofToken token) := by
    rw [hitems]
    rfl
  obtain ⟨p', htoken, hreads⟩ := nextToken_of_ok hnext
  have hpeek : p'.cursor.peek 0 = next := by rw [hreads.next, hitems]; rfl
  have hleaves : p.Leaves rest p' := by
    have := hreads.leaves
    rwa [hitems] at this
  rw [expression, item, bind_assoc]
  refine .step htoken hleaves.lines ?_
  obtain ⟨kind, position⟩ := token
  cases kind with
  | number | boolean | text | operator => exact hexpression.again hleaves (by omega) _
  | identifier name =>
    show Follows ((reference depth line name >>= fun node =>
      pure (Sum.inl (Item.operand node position))) >>= _) p' _ _
    rw [bind_assoc]
    exact identifier_follows hexpression name hleaves hpeek hdepth
  | punctuator punctuator =>
    cases punctuator with
    | assignment | openBracket => exact .fail _
    | openParenthesis =>
      refine .congr (parenthesis_follows hexpression hleaves hdepth) ?_
      show ((expression depth line [] >>= fun found =>
        if found.2.is (.punctuator .closeParenthesis) then
          pure (Sum.inl (Item.operand found.1 position))
        else expected .closeParenthesis found.2) >>= _) p' = _
      rw [bind_assoc]
      refine congrArg (fun k => (expression depth line [] >>= k) p') (funext fun found => ?_)
      split <;> rfl
    | _ => exact close_follows hleaves hpeek hreads
  | range | endOfLine => exact close_follows hleaves hpeek hreads
  | keyword keyword =>
    cases hterminator : keyword.isTerminator with
    | true =>
      simp only [Reader.step, Stop.ofToken, hterminator, Bool.false_eq_true, if_false, if_true]
      exact close_follows hleaves hpeek hreads
    | false =>
      simp only [Reader.step, Stop.ofToken, hterminator, Bool.false_eq_true, if_false]
      exact .fail _

end Token

/-- An expression is read to its end within the next depth, too. -/
theorem expression_follows_succ {depth : Nat} (hexpression : ExpressionFollows line (depth + 1))
    (p : Parser) (run : List Item) (hdepth : 4 * p.lexemes.items.length ≤ depth) :
    Follows (expression (depth + 1) line run) p (fun o a p' => p.Took o a.1 a.2 p')
      (Reader.outcome line false p.lexemes.ending { run } p.lexemes.items) := by
  cases hitems : p.lexemes.items with
  | nil => exact expression_follows_nil hitems
  | cons lexeme rest =>
    rw [hitems, List.length_cons] at hdepth
    cases lexeme with
    | fault fault =>
      rw [expression, item, bind_assoc]
      exact .fault (bind_of_error (nextToken_of_fault (by rw [hitems]; rfl)))
    | token token next =>
      rw [Reader.outcome_token]
      exact expression_follows_token hexpression hitems (by omega)

theorem expressionFollows (line : SourceLine) (bound : Nat) : ExpressionFollows line bound := by
  -- on the bound, not on the depth: an expression in brackets is read several calls further in
  induction bound with
  | zero => exact fun _ h => absurd h (Nat.not_lt_zero _)
  | succ bound ih =>
    intro depth hbound p run hdepth
    rcases Nat.lt_succ_iff_lt_or_eq.mp hbound with hlt | rfl
    · exact ih depth hlt p run hdepth
    · obtain ⟨depth', rfl⟩ : ∃ depth', depth = depth' + 1 := ⟨depth - 1, by omega⟩
      exact expression_follows_succ ih p run (by omega)

/-- **Every expression is read to its end**, and comes to what the reader comes to that goes along
the lexemes once. -/
theorem expression_follows {depth : Nat} (line : SourceLine) (run : List Item) (p : Parser)
    (hdepth : 4 * p.lexemes.items.length + 1 ≤ depth) :
    Follows (expression depth line run) p (fun o a p' => p.Took o a.1 a.2 p')
      (Reader.outcome line false p.lexemes.ending { run } p.lexemes.items) :=
  expressionFollows line _ depth (Nat.lt_succ_self _) p run hdepth

end Descent

/-! ### Depth enough -/

/-- A row has no more lexemes than characters. -/
theorem Token.length_lexemesFrom (symbol : List Char) (number : Nat) (isLast : Bool) (column : Nat)
    (cs : List Char) :
    (lexemesFrom symbol number isLast column cs).items.length ≤ cs.length := by
  induction hlength : cs.length using Nat.strong_induction_on generalizing column cs with
  | _ length ih =>
    subst hlength
    have hle := length_dropWhile_le Text.isBlank cs
    cases hdrop : cs.dropWhile Text.isBlank with
    | nil =>
      rw [lexemesFrom_of_dropWhile_nil hdrop]
      exact Nat.zero_le _
    | cons c rest =>
      rw [hdrop, List.length_cons] at hle
      rw [lexemesFrom_of_dropWhile_cons hdrop]
      split
      · rename_i hlt
        simp only [List.length_cons] at hlt
        have htail : ∀ column', (lexemesFrom symbol number isLast column'
            (readToken symbol (c :: rest)).2).items.length ≤ (readToken symbol (c :: rest)).2.length :=
          fun column' => ih _ (by omega) column' _ rfl
        have hitems := htail (column + (cs.length - (readToken symbol (c :: rest)).2.length))
        simp only
        split
        all_goals
          simp only [List.length_cons]
          omega
      · exact Nat.zero_le _

/-- The depth is enough for every line. -/
def Source.Fits (depth : Nat) (lines : List (List Char)) : Prop :=
  ∀ number : Nat, 4 * ((lines[number]?).getD []).length + 4 ≤ depth

theorem Source.Fits.mono {depth depth' : Nat} {lines : List (List Char)} (h : Fits depth lines)
    (hle : depth ≤ depth') : Fits depth' lines :=
  fun number => Nat.le_trans (h number) hle

theorem Source.exists_fits (lines : List (List Char)) : ∃ depth, Fits depth lines := by
  induction lines with
  | nil => exact ⟨4, fun _ => Nat.le_refl _⟩
  | cons line lines ih =>
    obtain ⟨depth, h⟩ := ih
    refine ⟨max depth (4 * line.length + 4), fun number => ?_⟩
    cases number with
    | zero => exact Nat.le_max_right _ _
    | succ number => exact Nat.le_trans (h number) (Nat.le_max_left _ _)

theorem Parser.length_lexemes {depth : Nat} {parser : Parser}
    (h : Source.Fits depth parser.cursor.lines) : 4 * parser.lexemes.items.length + 4 ≤ depth := by
  have hlength : parser.lexemes.items.length ≤ parser.cursor.rest.length :=
    Token.length_lexemesFrom _ _ _ _ _
  have hrest : parser.cursor.rest.length ≤ parser.cursor.chars.length := by
    rw [Cursor.rest, List.length_drop]
    exact Nat.sub_le _ _
  have hfits : 4 * parser.cursor.chars.length + 4 ≤ depth := h parser.cursor.line
  omega

theorem Descent.expression_follows_of_fits {depth : Nat} {p : Parser}
    (h : Source.Fits depth p.cursor.lines) (line : SourceLine) :
    Follows (expression depth line []) p (fun o a p' => p.Took o a.1 a.2 p')
      (Reader.outcome line false p.lexemes.ending {} p.lexemes.items) := by
  have hlength := Parser.length_lexemes h
  exact expression_follows line [] p (by omega)

end Tablica
