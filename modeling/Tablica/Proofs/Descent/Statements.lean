import Tablica.Proofs.Descent.Expressions

/-!
# A descent reads statements

A statement is read from its second token on, and the cursor is then on the next line:

    pisz T[1] + 2
         ▴ p              ──form──▸             p.nextLine

What is read of it is what is computed from the lexemes of the line.  The two differ in how they
look ahead.  A descent asks for a token where the computation looks at the front of a list, and
meets a fault there a step earlier; the same fault is then met by the computation, since there is
no other way on.  A name is read up to where an assignment sign might stand, and if there is none
the descent goes back to the name.

* `Parser.Ended`, `Parser.Passed` — where a phrase leaves the parser;
* `Form.rangeHeading_eq`, `Form.routineHeading_eq`, `Form.ofKeyword_zwroc` — the computation, with
  its faults where the descent meets them;
* `Descent.ofKeyword_follows` — the statements that a keyword opens;
* `Descent.target_targets`, `Descent.reread_follows` — the search for an assignment sign;
* `Descent.form_follows` — a statement.
-/

namespace Tablica

/-- The answer is the computed value, and the parser is at the next line. -/
def Parser.Ended {α : Type} (p : Parser) (b a : α) (p' : Parser) : Prop :=
  a = b ∧ p' = p.nextLine

/-- The answer is the computed value, and the parser is where the lexemes that were computed with it
are ahead. -/
def Parser.Passed {α : Type} (p : Parser) (found : α × List Lexeme) (a : α) (p' : Parser) : Prop :=
  a = found.1 ∧ p.Leaves found.2 p'

namespace Form

variable {line : SourceLine} {ending : Ending} {items : List Lexeme}

theorem expressionToEnd_eq : expressionToEnd line ending items
    = (Reader.outcome line false ending {} items).bind fun o =>
      o.stop.endLine.bind fun _ => .ok o.node :=
  Reader.read_bind {} items fun node stop _ => stop.endLine.bind fun _ => .ok node

theorem headingExpression_eq (closing : Keyword) : headingExpression closing line ending items
    = (Reader.outcome line false ending {} items).bind fun o =>
      if o.stop.is (.keyword closing) then (finishLine ending o.rest).bind fun _ => .ok o.node
      else .error ⟨.expectedKeyword closing o.stop.found, o.stop.position⟩ :=
  Reader.read_bind {} items fun node stop rest =>
    if stop.is (.keyword closing) then (finishLine ending rest).bind fun _ => .ok node
    else .error ⟨.expectedKeyword closing stop.found, stop.position⟩

/-- The lexemes without a comma at their front.  There has to be something to look at. -/
def passComma (ending : Ending) (items : List Lexeme) : Except Fault (List Lexeme) :=
  (Stop.next ending items).bind fun _ => .ok (dropComma items)

/-- Passes the range symbol and looks at what stands behind it. -/
def passRange (ending : Ending) (stop : Stop) (items : List Lexeme) : Except Fault (List Lexeme) :=
  if stop.isRange then passComma ending items
  else if stop.is (.punctuator .comma) then
    (Stop.next ending items).bind fun stop =>
      if stop.isRange then passComma ending items.tail
      else .error ⟨.expected .rangeSymbol stop.found, stop.position⟩
  else .error ⟨.expected .rangeSymbol stop.found, stop.position⟩

/-- A token that is no comma is left. -/
theorem dropComma_of_next {stop : Stop} (h : Stop.next ending items = .ok stop)
    (hcomma : stop.is (.punctuator .comma) = false) : dropComma items = items := by
  unfold dropComma
  split
  · cases h
    cases hcomma
  · rfl

/-- A fault behind the range symbol is met later, if it is not met where it is looked at. -/
theorem passComma_bind {α : Type} (k : List Lexeme → Except Fault α)
    (hk : ∀ items fault, Stop.next ending items = .error fault → k items = .error fault) :
    (passComma ending items).bind k = k (dropComma items) := by
  rw [passComma]
  cases hnext : Stop.next ending items with
  | ok stop => rfl
  | error fault =>
    have hdrop : dropComma items = items := by
      rcases items with _ | ⟨_ | _, items⟩
      · rfl
      · cases hnext
      · rfl
    rw [hdrop, hk items fault hnext]
    rfl

theorem takeRange_bind {α : Type} (stop : Stop) (k : List Lexeme → Except Fault α)
    (hk : ∀ items fault, Stop.next ending items = .error fault → k items = .error fault) :
    (takeRange ending stop items).bind k = (passRange ending stop items).bind k := by
  unfold takeRange passRange
  split
  · exact (passComma_bind k hk).symm
  · split
    · show ((Stop.next ending items).bind _).bind k = ((Stop.next ending items).bind _).bind k
      cases Stop.next ending items with
      | error fault => rfl
      | ok stop' =>
        cases hrange : stop'.isRange with
        | true =>
          simp only [Except.bind, hrange, if_true]
          exact (passComma_bind k hk).symm
        | false =>
          simp only [Except.bind, hrange, Bool.false_eq_true, if_false]
          rfl
    · rfl

theorem headingExpression_of_error {closing : Keyword} {fault : Fault}
    (h : Stop.next ending items = .error fault) :
    headingExpression closing line ending items = .error fault := by
  rw [headingExpression_eq, Reader.outcome_of_error h]
  rfl

theorem rangeHeading_eq : rangeHeading line ending items
    = (takeName .dla ending items).bind fun (name, items) =>
      (takePunctuator .assignment .assignment ending items).bind fun items =>
        (Reader.outcome line false ending {} items).bind fun o =>
          (passRange ending o.stop o.rest).bind fun items =>
            (headingExpression .wykonuj line ending items).bind fun last =>
              .ok (.range name o.node last) := by
  unfold rangeHeading
  show (takeName .dla ending items).bind _ = _
  refine congrArg _ (funext fun found => ?_)
  show (takePunctuator .assignment .assignment ending found.2).bind _ = _
  refine congrArg _ (funext fun items => ?_)
  refine (Reader.read_bind {} items fun first stop rest => (takeRange ending stop rest).bind
    fun items => (headingExpression .wykonuj line ending items).bind fun last =>
      .ok (Heading.range found.1 first last)).trans ?_
  refine congrArg _ (funext fun o => ?_)
  refine takeRange_bind o.stop _ fun items fault hnext => ?_
  rw [headingExpression_of_error hnext]
  rfl

/-- A name is a lexeme. -/
theorem length_lt_of_takeName {place : NamePlace} {found : String × List Lexeme}
    (h : takeName place ending items = .ok found) : found.2.length < items.length := by
  rcases items with _ | ⟨⟨⟨kind, position⟩, next⟩ | fault, items⟩
  · cases ending <;> cases h
  · cases kind with
    | identifier name =>
      cases h
      exact Nat.lt_succ_self _
    | _ => cases h
  · cases h

/-- Parameters one by one. -/
theorem takeParameters_eq : takeParameters ending items
    = (takeName .parameter ending items).bind fun (name, rest) =>
      (Stop.next ending rest).bind fun stop =>
        if stop.is (.punctuator .comma) then
          (takeParameters ending rest.tail).bind fun (names, rest) => .ok (name :: names, rest)
        else if stop.is (.punctuator .closeParenthesis) then .ok ([name], rest.tail)
        else .error ⟨.expected .commaOrCloseParenthesis stop.found, stop.position⟩ := by
  conv_lhs => unfold takeParameters
  split
  · rename_i rest
    show (takeParameters ending rest).map _ = (takeParameters ending rest).bind _
    cases takeParameters ending rest <;> rfl
  · rfl
  · rename_i rest hcomma hclose
    show (Stop.next ending rest).bind _ = (Stop.next ending rest).bind _
    cases hnext : Stop.next ending rest with
    | error fault => rfl
    | ok stop =>
      have hnot : ∀ punctuator : Punctuator, (∀ position next rest', rest
          ≠ .token ⟨.punctuator punctuator, position⟩ next :: rest') →
          stop.is (.punctuator punctuator) = false := by
        intro punctuator hne
        by_contra his
        obtain ⟨⟨kind, position⟩, next, hitems, hkind⟩ :=
          Stop.token_of_next hnext (by simpa using his) (by simp)
        obtain rfl : kind = _ := hkind
        exact hne _ _ _ hitems
      simp only [Except.bind, hnot .comma hcomma, hnot .closeParenthesis hclose,
        Bool.false_eq_true, if_false]
  · rename_i hcomma hclose hname
    rw [takeName]
    show (Stop.next ending items).bind _ = ((Stop.next ending items).bind _).bind _
    cases hnext : Stop.next ending items with
    | error fault => rfl
    | ok stop =>
      obtain ⟨kind?, position⟩ := stop
      rcases kind? with _ | kind
      · rfl
      · cases kind with
        | identifier name =>
          have his : Stop.is ⟨some (.identifier name), position⟩ (.identifier name) = true := by
            simp [Stop.is]
          obtain ⟨⟨kind, position'⟩, next, hitems, hkind⟩ :=
            Stop.token_of_next hnext his (by simp)
          obtain rfl : kind = _ := hkind
          exact absurd hitems (hname _ _ _ _)
        | _ => rfl

theorem takeParameters_of_error {fault : Fault} (h : Stop.next ending items = .error fault) :
    takeParameters ending items = .error fault := by
  rw [takeParameters_eq, takeName, h]
  rfl

/-- The parameters behind an opening parenthesis, and the closing one. -/
def parameterList (ending : Ending) (items : List Lexeme) :
    Except Fault (List String × List Lexeme) :=
  (Stop.next ending items).bind fun stop =>
    if stop.is (.punctuator .closeParenthesis) then .ok ([], items.tail)
    else takeParameters ending items

/-- The value that `zwróć` gives back, if there is one. -/
def returnedValue (line : SourceLine) (ending : Ending) (items : List Lexeme) :
    Except Fault (Option Node) :=
  (Stop.next ending items).bind fun stop =>
    if stop.endsLine then .ok none
    else (expressionToEnd line ending items).bind fun node => .ok (some node)

theorem ofKeyword_zwroc (inRoutine : Bool) (position : Position) :
    ofKeyword line inRoutine position ending items .zwroc
      = if inRoutine then
          (returnedValue line ending items).bind fun value => .ok (.simple (.giveBack value line))
        else .error ⟨.returnOutsideFunction, position⟩ := by
  cases inRoutine with
  | false => rfl
  | true =>
    simp only [ofKeyword, returnedValue, if_true]
    show (Stop.next ending items).bind _ = _
    cases Stop.next ending items with
    | error fault => rfl
    | ok stop =>
      obtain ⟨kind?, position⟩ := stop
      have hvalue : (expressionToEnd line ending items).bind
            (fun node => .ok (.simple (.giveBack (some node) line)))
          = ((expressionToEnd line ending items).bind fun node => .ok (some node)).bind
            fun value => .ok (Form.simple (.giveBack value line)) := by
        cases expressionToEnd line ending items <;> rfl
      rcases kind? with _ | kind
      · rfl
      · cases kind with
        | endOfLine => rfl
        | _ => exact hvalue

theorem routineHeading_eq (isProcedure : Bool) : routineHeading isProcedure ending items
    = (takeName (if isProcedure then .procedura else .funkcja) ending items).bind
      fun (name, items) =>
        (takePunctuator .openParenthesis .openParenthesis ending items).bind fun items =>
          (parameterList ending items).bind fun (names, items) =>
            (finishLine ending items).bind fun _ => .ok (.routine name names isProcedure) := by
  unfold routineHeading
  refine congrArg (Except.bind _) (funext fun found => ?_)
  refine congrArg (Except.bind _) (funext fun rest => ?_)
  unfold parameterList
  simp only
  split
  · rfl
  · rename_i hclose
    cases hnext : Stop.next ending rest with
    | error fault =>
      rw [takeParameters_of_error hnext]
      rfl
    | ok stop =>
      cases his : stop.is (.punctuator .closeParenthesis) with
      | true =>
        obtain ⟨⟨kind, position⟩, next, hitems, hkind⟩ := Stop.token_of_next hnext his (by simp)
        obtain rfl : kind = _ := hkind
        exact absurd hitems (hclose _ _ _)
      | false =>
        simp only [Except.bind, his, Bool.false_eq_true, if_false]
        rfl

/-! Three things can become of a statement that starts with a name. -/

theorem ofName_of_error {fault : Fault}
    (h : Reader.outcome line true ending {} items = .error fault) :
    ofName line ending items = .error fault := by
  unfold ofName
  simp only [Reader.read_of_error h]
  rfl

theorem ofName_of_assignment {name : String} {indices : List Node} {stop : Stop}
    {next : Option Char} {rest : List Lexeme}
    (h : Reader.outcome line true ending {} items = .ok ⟨.var name indices, stop, next, rest⟩)
    (hstop : stop.is (.punctuator .assignment) = true) :
    ofName line ending items = (expressionToEnd line ending rest).bind fun node =>
      .ok (.simple (.assignment name indices node false line)) := by
  obtain ⟨kind?, position⟩ := stop
  obtain rfl : kind? = _ := beq_iff_eq.mp hstop
  unfold ofName
  simp only [Reader.read_of_outcome h]
  rfl

theorem ofName_of_expression
    (h : Reader.outcome line true ending {} items = Reader.outcome line false ending {} items) :
    ofName line ending items
      = (expressionToEnd line ending items).bind fun node => .ok (.simple node) := by
  rw [expressionToEnd_eq]
  cases houtcome : Reader.outcome line false ending {} items with
  | error fault => exact ofName_of_error (h.trans houtcome)
  | ok o =>
    have hstop := Reader.stop_of_outcome houtcome
    unfold ofName
    simp only [Reader.read_of_outcome (h.trans houtcome), bind, Except.bind, hstop]
    cases o.stop.endLine <;> rfl

end Form

namespace Descent

variable {depth : Nat} {line : SourceLine} {p : Parser}

theorem expressionToEnd_follows (hfits : Source.Fits depth p.cursor.lines) (line : SourceLine) :
    Follows (expressionToEnd depth line) p p.Ended
      (Form.expressionToEnd line p.lexemes.ending p.lexemes.items) := by
  rw [Form.expressionToEnd_eq]
  refine (expression_follows_of_fits hfits line).bind fun o a p' _ htook => ?_
  obtain ⟨node, stop⟩ := a
  obtain ⟨rfl, rfl, hleaves, -, -⟩ := htook
  refine (endLine_follows o.stop p').bind fun _ _ p'' _ hend => ?_
  exact .pure ⟨rfl, hend.trans hleaves.nextLine⟩

theorem headingExpression_follows (hfits : Source.Fits depth p.cursor.lines) (closing : Keyword)
    (line : SourceLine) : Follows (headingExpression depth closing line) p p.Ended
      (Form.headingExpression closing line p.lexemes.ending p.lexemes.items) := by
  rw [Form.headingExpression_eq]
  refine (expression_follows_of_fits hfits line).bind fun o a p' _ htook => ?_
  obtain ⟨node, stop⟩ := a
  obtain ⟨rfl, rfl, hleaves, -, -⟩ := htook
  simp only
  split
  · have hfinish := finishLine_follows p'
    rw [hleaves.lexemes] at hfinish
    refine hfinish.bind fun _ _ p'' _ hend => ?_
    exact .pure ⟨rfl, hend.trans hleaves.nextLine⟩
  · exact .fail _

theorem takeName_follows (place : NamePlace) (p : Parser) :
    Follows (takeName place) p p.Passed
      (Form.takeName place p.lexemes.ending p.lexemes.items) := by
  refine (nextToken_follows p).bind fun _ stop p' _ hreads => ?_
  obtain ⟨rfl, hreads⟩ := hreads
  obtain ⟨kind?, position⟩ := stop
  rcases kind? with _ | kind
  · exact .fail _
  · cases kind with
    | identifier name => exact .pure ⟨rfl, hreads.leaves⟩
    | _ => exact .fail _

theorem takePunctuator_follows (punctuator : Punctuator) (wanted : Wanted) (p : Parser) :
    Follows (takePunctuator punctuator wanted) p (fun rest _ p' => p.Leaves rest p')
      (Form.takePunctuator punctuator wanted p.lexemes.ending p.lexemes.items) := by
  refine (nextToken_follows p).bind fun stop _ p' _ hreads => ?_
  obtain ⟨rfl, hreads⟩ := hreads
  split
  · exact .pure hreads.leaves
  · exact .fail _

theorem skipComma_follows (p : Parser) :
    Follows skipComma p (fun rest _ p' => p.Leaves rest p')
      (Form.passComma p.lexemes.ending p.lexemes.items) := by
  refine (peekToken_follows p).bind fun _ stop p' hnext hpeek => ?_
  obtain ⟨rfl, rfl⟩ := hpeek
  cases hcomma : stop.is (.punctuator .comma) with
  | true =>
    obtain ⟨p'', htoken, hreads⟩ := nextToken_of_ok hnext
    obtain ⟨token, next, hitems, hkind⟩ := Stop.token_of_next hnext hcomma (by simp)
    refine .step htoken hreads.leaves.lines (.pure ?_)
    have hdrop : Form.dropComma p'.lexemes.items = p'.lexemes.items.tail := by
      rw [hitems]
      obtain ⟨kind, position⟩ := token
      cases hkind
      rfl
    rw [hdrop]
    exact hreads.leaves
  | false =>
    rw [Form.dropComma_of_next hnext hcomma]
    exact .pure (.refl p')

theorem takeRange_follows (stop : Stop) (p : Parser) :
    Follows (takeRange stop) p (fun rest _ p' => p.Leaves rest p')
      (Form.passRange p.lexemes.ending stop p.lexemes.items) := by
  unfold takeRange Form.passRange
  split
  · exact skipComma_follows p
  · split
    · refine (nextToken_follows p).bind fun stop _ p' _ hreads => ?_
      obtain ⟨rfl, hreads⟩ := hreads
      split
      · have hskip := skipComma_follows p'
        rw [hreads.leaves.lexemes] at hskip
        exact hskip.mono fun _ _ _ _ h => hreads.leaves.trans h
      · exact .fail _
    · exact .fail _

theorem rangeHeading_follows (hfits : Source.Fits depth p.cursor.lines) (line : SourceLine) :
    Follows (rangeHeading depth line) p p.Ended
      (Form.rangeHeading line p.lexemes.ending p.lexemes.items) := by
  rw [Form.rangeHeading_eq]
  refine (takeName_follows .dla p).bind fun found name p₁ _ hname => ?_
  obtain ⟨rfl, hleaves⟩ := hname
  have hassignment := takePunctuator_follows .assignment .assignment p₁
  rw [hleaves.lexemes] at hassignment
  refine hassignment.bind fun rest _ p₂ _ hleaves₂ => ?_
  have hlines₂ : p₂.cursor.lines = p.cursor.lines := hleaves₂.lines.trans hleaves.lines
  have hfirst := expression_follows_of_fits (hlines₂ ▸ hfits) line
  rw [hleaves₂.lexemes, hleaves.lexemes] at hfirst
  refine hfirst.bind fun o a p₃ _ htook => ?_
  obtain ⟨first, stop⟩ := a
  obtain ⟨rfl, rfl, hleaves₃, -, -⟩ := htook
  have hrange := takeRange_follows o.stop p₃
  rw [hleaves₃.lexemes, hleaves₂.lexemes, hleaves.lexemes] at hrange
  refine hrange.bind fun rest' _ p₄ _ hleaves₄ => ?_
  have hlines₄ : p₄.cursor.lines = p.cursor.lines :=
    hleaves₄.lines.trans (hleaves₃.lines.trans hlines₂)
  have hlast := headingExpression_follows (hlines₄ ▸ hfits) .wykonuj line
  rw [hleaves₄.lexemes, hleaves₃.lexemes, hleaves₂.lexemes, hleaves.lexemes] at hlast
  refine hlast.bind fun last _ p₅ _ hended => ?_
  obtain ⟨rfl, hended⟩ := hended
  refine .pure ⟨rfl, hended.trans ?_⟩
  rw [hleaves₄.nextLine, hleaves₃.nextLine, hleaves₂.nextLine, hleaves.nextLine]

theorem parameters_eq (depth : Nat) (before : List String) : parameters (depth + 1) before
    = (takeName .parameter >>= fun name => nextToken >>= fun stop =>
      if stop.is (.punctuator .comma) then parameters depth (name :: before)
      else if stop.is (.punctuator .closeParenthesis) then pure (name :: before).reverse
      else expected .commaOrCloseParenthesis stop) := by
  rw [parameters]

/-- Parameters are read to their end: before the next one is read, a name and a comma are taken. -/
theorem parameters_follows (before : List String) (p : Parser)
    (hdepth : p.lexemes.items.length < depth) :
    Follows (parameters depth before) p
      (fun found names p' => names = before.reverse ++ found.1 ∧ p.Leaves found.2 p')
      (Form.takeParameters p.lexemes.ending p.lexemes.items) := by
  induction depth generalizing p before with
  | zero => exact absurd hdepth (Nat.not_lt_zero _)
  | succ depth ih =>
    rw [parameters_eq, Form.takeParameters_eq]
    refine (takeName_follows .parameter p).bind fun found name p₁ hfound hname => ?_
    obtain ⟨rfl, hleaves⟩ := hname
    have hlength := Form.length_lt_of_takeName hfound
    have htoken := nextToken_follows p₁
    rw [hleaves.lexemes] at htoken
    refine htoken.bind fun _ stop p₂ _ hreads => ?_
    obtain ⟨rfl, hreads⟩ := hreads
    have hleaves₂ := hreads.leaves
    rw [hleaves.lexemes] at hleaves₂
    split
    · have hmore := ih (found.1 :: before) p₂
        (by rw [hleaves₂.lexemes, List.length_tail]; simp only; omega)
      rw [hleaves₂.lexemes, hleaves.lexemes] at hmore
      refine hmore.bind_value fun found' names p₃ hnames => ?_
      obtain ⟨rfl, hleaves₃⟩ := hnames
      exact ⟨(found.1 :: found'.1, found'.2), rfl, by simp,
        hleaves.trans (hleaves₂.trans hleaves₃)⟩
    · split
      · exact .pure ⟨by simp, hleaves.trans hleaves₂⟩
      · exact .fail _

theorem parameterList_follows (hfits : Source.Fits depth p.cursor.lines) :
    Follows (parameterList depth) p p.Passed
      (Form.parameterList p.lexemes.ending p.lexemes.items) := by
  have hlength := Parser.length_lexemes hfits
  refine (peekToken_follows p).bind fun _ stop p' hnext hpeek => ?_
  obtain ⟨rfl, rfl⟩ := hpeek
  split
  · obtain ⟨p'', htoken, hreads⟩ := nextToken_of_ok hnext
    exact .step htoken hreads.leaves.lines (.pure ⟨rfl, hreads.leaves⟩)
  · exact (parameters_follows [] p' (by omega)).mono fun _ _ _ _ h => h

theorem routineHeading_follows (hfits : Source.Fits depth p.cursor.lines) (isProcedure : Bool) :
    Follows (routineHeading depth isProcedure) p p.Ended
      (Form.routineHeading isProcedure p.lexemes.ending p.lexemes.items) := by
  rw [Form.routineHeading_eq]
  refine (takeName_follows _ p).bind fun found name p₁ _ hname => ?_
  obtain ⟨rfl, hleaves⟩ := hname
  have hopen := takePunctuator_follows .openParenthesis .openParenthesis p₁
  rw [hleaves.lexemes] at hopen
  refine hopen.bind fun rest _ p₂ _ hleaves₂ => ?_
  have hlines₂ : p₂.cursor.lines = p.cursor.lines := hleaves₂.lines.trans hleaves.lines
  have hnames := parameterList_follows (hlines₂ ▸ hfits)
  rw [hleaves₂.lexemes, hleaves.lexemes] at hnames
  refine hnames.bind fun found' names p₃ _ hnames => ?_
  obtain ⟨rfl, hleaves₃⟩ := hnames
  have hfinish := finishLine_follows p₃
  rw [hleaves₃.lexemes, hleaves₂.lexemes, hleaves.lexemes] at hfinish
  refine hfinish.bind fun _ _ p₄ _ hended => .pure ⟨rfl, hended.trans ?_⟩
  rw [hleaves₃.nextLine, hleaves₂.nextLine, hleaves.nextLine]

theorem returnedValue_follows (hfits : Source.Fits depth p.cursor.lines) (line : SourceLine) :
    Follows (returnedValue depth line) p p.Ended
      (Form.returnedValue line p.lexemes.ending p.lexemes.items) := by
  refine (peekToken_follows p).bind fun _ stop p' hnext hpeek => ?_
  obtain ⟨rfl, rfl⟩ := hpeek
  have hnothing : stop.endLine = .ok () →
      Follows (finishLine >>= fun _ => pure (none : Option Node)) p' p'.Ended (.ok none) := by
    intro hend
    have hfinish := finishLine_follows p'
    rw [Form.finishLine, hnext] at hfinish
    replace hfinish : Follows finishLine p' (fun _ _ p'' => p'' = p'.nextLine) stop.endLine := hfinish
    rw [hend] at hfinish
    exact hfinish.bind fun _ _ p'' _ hended => .pure ⟨rfl, hended⟩
  have hsomething : Follows (expressionToEnd depth line >>= fun node => pure (some node)) p' p'.Ended
      ((Form.expressionToEnd line p'.lexemes.ending p'.lexemes.items).bind fun node =>
        .ok (some node)) :=
    (expressionToEnd_follows hfits line).bind fun node _ p'' _ hended =>
      .pure ⟨congrArg some hended.1, hended.2⟩
  obtain ⟨kind?, position⟩ := stop
  rcases kind? with _ | kind
  · exact hnothing rfl
  · cases kind with
    | endOfLine => exact hnothing rfl
    | _ => exact hsomething

/-- **The statement of a keyword** is read to the end of its line. -/
theorem ofKeyword_follows {inRoutine : Bool} (hfits : Source.Fits depth p.cursor.lines)
    (line : SourceLine) (position : Position) (keyword : Keyword)
    (hroutines : inRoutine = true ↔ p.routines ≠ 0) :
    Follows (ofKeyword depth line position keyword) p p.Ended
      (Form.ofKeyword line inRoutine position p.lexemes.ending p.lexemes.items keyword) := by
  have hsimple : ∀ make : Node → Form,
      Follows (expressionToEnd depth line >>= fun node => pure (make node)) p p.Ended
        ((Form.expressionToEnd line p.lexemes.ending p.lexemes.items).bind fun node =>
          .ok (make node)) := fun make =>
    (expressionToEnd_follows hfits line).bind fun node _ p' _ hended =>
      .pure ⟨congrArg make hended.1, hended.2⟩
  have hheading : ∀ (closing : Keyword) (make : Node → Form),
      Follows (headingExpression depth closing line >>= fun node => pure (make node)) p p.Ended
        ((Form.headingExpression closing line p.lexemes.ending p.lexemes.items).bind fun node =>
          .ok (make node)) := fun closing make =>
    (headingExpression_follows hfits closing line).bind fun node _ p' _ hended =>
      .pure ⟨congrArg make hended.1, hended.2⟩
  cases keyword with
  | pisz => exact hsimple fun node => .simple (.command .print (some node) line)
  | czytaj => exact hsimple fun node => .simple (.command .read (some node) line)
  | koniec =>
    exact (finishLine_follows p).bind fun _ _ p' _ hended => .pure ⟨rfl, hended⟩
  | jezeli => exact hheading .to fun node => .heading (.condition node)
  | dopoki => exact hheading .wykonuj fun node => .heading (.whileLoop node)
  | dla =>
    exact (rangeHeading_follows hfits line).bind fun heading _ p' _ hended =>
      .pure ⟨congrArg Form.heading hended.1, hended.2⟩
  | funkcja =>
    exact (routineHeading_follows hfits false).bind fun heading _ p' _ hended =>
      .pure ⟨congrArg Form.heading hended.1, hended.2⟩
  | procedura =>
    exact (routineHeading_follows hfits true).bind fun heading _ p' _ hended =>
      .pure ⟨congrArg Form.heading hended.1, hended.2⟩
  | zwroc =>
    rw [Form.ofKeyword_zwroc]
    refine .congr ?_ (get_bind _ p)
    cases inRoutine with
    | true =>
      have hsome : p.routines ≠ 0 := hroutines.mp rfl
      rw [if_pos rfl, if_neg hsome]
      exact (returnedValue_follows hfits line).bind fun value _ p' _ hended =>
        .pure ⟨congrArg (Form.simple <| Node.giveBack · line) hended.1, hended.2⟩
    | false =>
      have hnone : p.routines = 0 := by
        by_contra hsome
        exact Bool.false_ne_true (hroutines.mpr hsome)
      rw [if_neg Bool.false_ne_true, if_pos hnone]
      exact .fault rfl
  | wpp | «to» | wykonuj => exact .fail _

/-! ### Statements that start with a name -/

/-- What looking for the target of an assignment behind a name comes to, and what this means for the
statement, whose lexemes are `items`. -/
inductive Targets (depth : Nat) (line : SourceLine) (p : Parser) (name : String)
    (items : List Lexeme) : Prop
  | fault {fault : Fault} (hrun : target depth line p = some (.error (.ofFault p.cursor.lines fault)))
    (hread : Reader.outcome line true p.lexemes.ending {} items = .error fault)
  | assignment {nodes : List Node} {stop : Stop} {next : Option Char} {rest : List Lexeme}
    {p' : Parser} (hrun : target depth line p = some (.ok (some nodes, p')))
    (hleaves : p.Leaves rest p')
    (hread : Reader.outcome line true p.lexemes.ending {} items
      = .ok ⟨.var name nodes, stop, next, rest⟩)
    (hstop : stop.is (.punctuator .assignment) = true)
  | expression {rest : List Lexeme} {p' : Parser}
    (hrun : target depth line p = some (.ok (none, p'))) (hleaves : p.Leaves rest p')
    (hread : Reader.outcome line true p.lexemes.ending {} items
      = Reader.outcome line false p.lexemes.ending {} items)

theorem target_of_call (h : p.cursor.peek 0 = some '(') :
    target depth line p = some (.ok (none, p)) := by
  rw [target, peekChar_bind, if_pos h]
  rfl

theorem target_of_other (h : p.cursor.peek 0 ≠ some '(') :
    target depth line p = (indices depth line [] >>= fun nodes => peekToken >>= fun stop =>
      if stop.is (.punctuator .assignment) then nextToken >>= fun _ => pure (some nodes)
      else pure none) p := by
  rw [target, peekChar_bind, if_neg h]

/-- **The target of an assignment** is looked for behind a name, and the search ends. -/
theorem target_targets (hfits : Source.Fits depth p.cursor.lines) (line : SourceLine)
    (name : String) (position : Position) : Targets depth line p name
      (.token ⟨.identifier name, position⟩ (p.cursor.peek 0) :: p.lexemes.items) := by
  have hread : ∀ isStatement, Reader.outcome line isStatement p.lexemes.ending {}
        (.token ⟨.identifier name, position⟩ (p.cursor.peek 0) :: p.lexemes.items)
      = (referring (p.cursor.peek 0) name position [] []).outcome line isStatement
        p.lexemes.ending p.lexemes.items := by
    intro isStatement
    rw [Reader.outcome_token, step_identifier]
  by_cases hpeek : p.cursor.peek 0 = some '('
  · refine .expression (target_of_call hpeek) (.refl p) ?_
    rw [hread, hread, referring, if_pos hpeek]
    exact Reader.outcome_of_settled (.inr rfl)
  · have hreferring : referring (p.cursor.peek 0) name position [] []
        = indexing (p.cursor.peek 0) [] name position [] [] := by rw [referring, if_neg hpeek]
    have hlength := Parser.length_lexemes hfits
    obtain ⟨x, hindices, -, hread'⟩ := indices_supplies (expressionFollows line depth)
      (Nat.le_refl _) [] p (by omega)
    have hvalue := fun isStatement => (hread isStatement).trans
      (hreferring ▸ hread' isStatement name position [] [])
    have hrun : target depth line p = _ := target_of_other hpeek
    cases x with
    | error fault => exact .fault (hrun.trans (bind_of_error hindices.of_error)) (hvalue true)
    | ok found =>
      obtain ⟨_, p₁, hindices, hlines, rfl, hleaves⟩ := hindices.of_ok
      rw [bind_of_ok hindices] at hrun
      cases hnext : Stop.next p.lexemes.ending found.2 with
      | error fault =>
        have hpeekToken := peekToken_of_error (p := p₁) (by rw [hleaves.lexemes]; exact hnext)
        rw [bind_of_error hpeekToken, hlines] at hrun
        exact .fault hrun ((hvalue true).trans (Reader.outcome_of_error hnext))
      | ok stop =>
        have hnext₁ : Stop.next p₁.lexemes.ending p₁.lexemes.items = .ok stop := by
          rw [hleaves.lexemes]
          exact hnext
        rw [bind_of_ok (peekToken_of_ok hnext₁)] at hrun
        cases hstop : stop.is (.punctuator .assignment) with
        | true =>
          obtain ⟨p₂, htoken, hreads⟩ := nextToken_of_ok hnext₁
          rw [if_pos hstop, bind_of_ok htoken] at hrun
          have hleaves₂ := hreads.leaves
          rw [hleaves.lexemes] at hleaves₂
          obtain ⟨⟨kind, position'⟩, next, hitems, hkind⟩ :=
            Stop.token_of_next hnext hstop (by simp)
          obtain rfl : kind = _ := hkind
          have hassignment : Reader.outcome line true p.lexemes.ending {}
                (.token ⟨.identifier name, position⟩ (p.cursor.peek 0) :: p.lexemes.items)
              = .ok ⟨.var name found.1, ⟨some (.punctuator .assignment), position'⟩, next,
                found.2.tail⟩ := by
            rw [hvalue]
            show Reader.outcome line true p.lexemes.ending _ found.2 = _
            rw [hitems]
            rfl
          exact .assignment hrun (hleaves.trans hleaves₂) hassignment rfl
        | false =>
          rw [if_neg (by rw [hstop]; exact Bool.false_ne_true)] at hrun
          refine .expression hrun hleaves ?_
          rw [hvalue, hvalue]
          exact Reader.outcome_of_variable hnext hstop

/-- **A statement is read again** from its first token on, from wherever the parser is on the line. -/
theorem reread_follows {p₀ p' : Parser} {stop : Stop} {rest : List Lexeme}
    (hfits : Source.Fits depth p₀.cursor.lines) (line : SourceLine) (hreads : p₀.Reads stop p)
    (hleaves : p.Leaves rest p') :
    Follows (move (·.restore stop.position) >>= fun _ =>
        expressionToEnd depth line >>= fun node => pure (Form.simple node)) p' p'.Ended
      ((Form.expressionToEnd line p₀.lexemes.ending p₀.lexemes.items).bind fun node =>
        .ok (.simple node)) := by
  have hmoved : p' = p₀.moved p'.cursor.column := (hreads.leaves.trans hleaves).moved
  have hback : { p' with cursor := p'.cursor.restore stop.position }
      = p₀.moved (stop.position.column - 1) := by
    rw [hmoved]
    simp only [Parser.moved, Cursor.restore, hreads.line, Nat.add_sub_cancel]
  refine .step (move_eq _ p') rfl ?_
  rw [hback]
  have hfits' : Source.Fits depth (p₀.moved (stop.position.column - 1)).cursor.lines := hfits
  have hagain := expressionToEnd_follows hfits' line
  rw [hreads.back] at hagain
  refine hagain.bind fun node _ p'' _ hended => .pure ⟨congrArg Form.simple hended.1, ?_⟩
  rw [hended.2, hmoved, Parser.nextLine_moved, Parser.nextLine_moved]

/-- A statement that starts with a name. -/
theorem named_follows {p₀ : Parser} {name : String} {position : Position} {next : Option Char}
    {rest : List Lexeme} (hfits : Source.Fits depth p₀.cursor.lines) (line : SourceLine)
    (hitems : p₀.lexemes.items = .token ⟨.identifier name, position⟩ next :: rest)
    (hreads : p₀.Reads (.ofToken ⟨.identifier name, position⟩) p) :
    Follows (form depth line position (.identifier name)) p p.Ended
      (Form.ofName line p₀.lexemes.ending p₀.lexemes.items) := by
  have hlexemes : p.lexemes = ⟨rest, p₀.lexemes.ending⟩ := by
    rw [hreads.leaves.lexemes, hitems]
    rfl
  have hpeek : p.cursor.peek 0 = next := by
    rw [hreads.next, hitems]
    rfl
  have hlines : p.cursor.lines = p₀.cursor.lines := hreads.leaves.lines
  have htargets := target_targets (hlines ▸ hfits) line name position
  rw [hpeek] at htargets
  cases htargets with
  | fault hrun hread =>
    rw [hlexemes, ← hitems] at hread
    rw [Form.ofName_of_error hread]
    exact .fault (bind_of_error hrun)
  | @assignment nodes stop _ rest' p' hrun hleaves hread hstop =>
    rw [hlexemes, ← hitems] at hread
    rw [Form.ofName_of_assignment hread hstop]
    refine .step hrun hleaves.lines ?_
    have hlines' : p'.cursor.lines = p₀.cursor.lines := hleaves.lines.trans hlines
    have hvalue := expressionToEnd_follows (hlines' ▸ hfits) line
    rw [hleaves.lexemes, hlexemes] at hvalue
    exact hvalue.bind fun node _ p'' _ hended =>
      .pure ⟨congrArg (fun node => Form.simple (.assignment name nodes node false line)) hended.1,
        hended.2.trans hleaves.nextLine⟩
  | expression hrun hleaves hread =>
    rw [hlexemes, ← hitems] at hread
    rw [Form.ofName_of_expression hread]
    refine .step hrun hleaves.lines ?_
    exact (reread_follows hfits line hreads hleaves).mono fun _ _ _ _ hended =>
      ⟨hended.1, hended.2.trans hleaves.nextLine⟩

/-- **A statement** is read to the end of its line. -/
theorem form_follows {p₀ : Parser} {stop : Stop} {kind : TokenKind} {inRoutine : Bool}
    (hfits : Source.Fits depth p₀.cursor.lines) (line : SourceLine)
    (hnext : Stop.next p₀.lexemes.ending p₀.lexemes.items = .ok stop) (hkind : stop.kind? = some kind)
    (hreads : p₀.Reads stop p) (hroutines : inRoutine = true ↔ p.routines ≠ 0) :
    Follows (form depth line stop.position kind) p p.Ended (readForm line inRoutine p₀.lexemes) := by
  have hlines : p.cursor.lines = p₀.cursor.lines := hreads.leaves.lines
  have hagain := reread_follows hfits line hreads (.refl p)
  unfold readForm
  rcases hitems : p₀.lexemes.items with _ | ⟨⟨⟨kind', position⟩, next⟩ | fault, rest⟩
  · rw [hitems] at hnext hagain
    cases hending : p₀.lexemes.ending with
    | line position =>
      rw [hending] at hnext hagain
      cases hnext
      cases hkind
      exact hagain
    | input position =>
      rw [hending] at hnext
      cases hnext
      cases hkind
    | stuck fault =>
      rw [hending] at hnext
      cases hnext
  · rw [hitems] at hnext hagain
    cases hnext
    cases hkind
    cases kind' with
    | keyword keyword =>
      have hkeyword := ofKeyword_follows (hlines ▸ hfits) line position keyword hroutines
      rw [hreads.leaves.lexemes, hitems] at hkeyword
      exact hkeyword
    | identifier name =>
      have hname := named_follows hfits line hitems hreads
      rw [hitems] at hname
      exact hname
    | _ => exact hagain
  · rw [hitems] at hnext
    cases hnext

end Descent

end Tablica
