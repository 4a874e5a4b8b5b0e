import Tablica.Syntax.Statement

/-!
# An expression inside a bracket

The brackets that are open around an expression have no influence on how it is read.  They matter
when it is over: then the innermost of them makes of its tree an operand, an argument or an index,
and the reading goes on under the brackets that are left.

    read (extra ++ base) items   =   read extra items  >>=  resume base  >>=  read …

So what stands between two brackets can be read on its own, as a descent does.  The one exception is
an argument list that ends at once: there no expression is read at all.

A statement is read like an expression until an assignment sign may follow.  Once it cannot become
an assignment any more, it is `Settled`, and both are the same from there on.

* `Reader.Outcome`, `Reader.outcome` — what reading an expression comes to;
* `Reader.resume` — what the innermost bracket makes of a tree;
* `Reader.outcome_under` — an expression inside brackets;
* `Reader.outcome_of_settled` — a statement that is no assignment.
-/

namespace Tablica

/-- Whether the bracket stands behind the name of a call. -/
def Bracket.isCall : Bracket → Bool
  | .arguments _ _ _ => true
  | _ => false

namespace Reader

/-- A tree, the stop behind it, the character directly after the stop and what is left. -/
structure Outcome where
  node : Node
  stop : Stop
  next : Option Char
  rest : List Lexeme

variable (line : SourceLine) (isStatement : Bool) (ending : Ending)

/-- What reading lexemes up to the stop comes to. -/
def outcome (reader : Reader) : List Lexeme → Except Fault Outcome
  | [] =>
    (Stop.next ending []).bind fun stop =>
      (reader.finish line stop).map fun (node, stop) => ⟨node, stop, none, []⟩
  | .fault fault :: _ => .error fault
  | .token token next :: rest =>
    (reader.step line isStatement token next).bind fun
      | .more reader => reader.outcome rest
      | .done node stop => .ok ⟨node, stop, next, rest⟩

/-- What a bracket makes of a tree that ended at the stop; `next` is the character after the stop,
`run` what the bracket interrupted and `opened` the brackets around it. -/
def resumeIn (bracket : Bracket) (run : List Item) (opened : List (Bracket × List Item))
    (node : Node) (stop : Stop) (next : Option Char) : Except Fault Reader :=
  match bracket with
  | .parenthesis position =>
    if stop.is (.punctuator .closeParenthesis) then
      .ok { run := .operand node position :: run, opened }
    else .error ⟨.expected .closeParenthesis stop.found, stop.position⟩
  | .arguments name position before =>
    if stop.is (.punctuator .comma) then
      .ok { opened := (.arguments name position (node :: before), run) :: opened }
    else if stop.is (.punctuator .closeParenthesis) then
      .ok { run := .operand (.call name (node :: before).reverse line) position :: run, opened }
    else .error ⟨.expected .commaOrCloseParenthesis stop.found, stop.position⟩
  | .index name position before =>
    if stop.is (.punctuator .closeBracket) then
      .ok (if next = some '[' then
        { opened := (.index name position (node :: before), run) :: opened, opening := true }
        else { run := .operand (.var name (node :: before).reverse) position :: run, opened })
    else .error ⟨.expected .closeBracket stop.found, stop.position⟩

/-- What the innermost bracket makes of a tree.  If there is none, the reading is over. -/
def resume (opened : List (Bracket × List Item)) (node : Node) (stop : Stop)
    (next : Option Char) : Except Fault Step :=
  match opened with
  | [] => .ok (.done node stop)
  | (bracket, run) :: opened => (resumeIn line bracket run opened node stop next).map .more

variable {line isStatement ending}

/-- What is done with the answer of the reader. -/
theorem read_bind {α : Type} (reader : Reader) (items : List Lexeme)
    (k : Node → Stop → List Lexeme → Except Fault α) :
    ((reader.read line isStatement ending items).1.bind fun found =>
        k found.1 found.2 (reader.read line isStatement ending items).2)
      = (reader.outcome line isStatement ending items).bind fun o => k o.node o.stop o.rest := by
  induction items generalizing reader with
  | nil =>
    simp only [read, outcome]
    cases Stop.next ending [] with
    | error fault => rfl
    | ok stop =>
      simp only [Except.bind]
      cases reader.finish line stop <;> rfl
  | cons lexeme items ih =>
    cases lexeme with
    | fault fault => rfl
    | token token next =>
      simp only [read, outcome]
      cases reader.step line isStatement token next with
      | error fault => rfl
      | ok step =>
        cases step with
        | more reader => exact ih reader
        | done node stop => rfl

theorem read_of_outcome {reader : Reader} {items : List Lexeme} {o : Outcome}
    (h : reader.outcome line isStatement ending items = .ok o) :
    reader.read line isStatement ending items = (.ok (o.node, o.stop), o.rest) := by
  have hbind : (reader.read line isStatement ending items).1.bind _ = _ :=
    read_bind reader items fun node stop rest => .ok (node, stop, rest)
  rw [h] at hbind
  generalize reader.read line isStatement ending items = result at hbind ⊢
  obtain ⟨found, rest⟩ := result
  obtain ⟨node, stop, next, rest'⟩ := o
  cases found with
  | error fault => cases hbind
  | ok found =>
    obtain ⟨node', stop'⟩ := found
    cases hbind
    rfl

theorem read_of_error {reader : Reader} {items : List Lexeme} {fault : Fault}
    (h : reader.outcome line isStatement ending items = .error fault) :
    (reader.read line isStatement ending items).1 = .error fault := by
  have hbind : (reader.read line isStatement ending items).1.bind _ = _ :=
    read_bind reader items fun node stop rest => .ok (node, stop, rest)
  rw [h] at hbind
  cases hread : (reader.read line isStatement ending items).1 with
  | error fault' =>
    rw [hread] at hbind
    exact congrArg Except.error (Except.error.inj hbind)
  | ok found =>
    rw [hread] at hbind
    cases hbind

/-- An expression takes a lexeme, if there is one. -/
theorem length_of_outcome {reader : Reader} {items : List Lexeme} {o : Outcome}
    (h : reader.outcome line isStatement ending items = .ok o) :
    o.rest.length ≤ items.tail.length := by
  induction items generalizing reader with
  | nil =>
    simp only [outcome] at h
    cases hstop : Stop.next ending [] with
    | error fault =>
      rw [hstop] at h
      cases h
    | ok stop =>
      rw [hstop] at h
      simp only [Except.bind] at h
      cases hfinish : reader.finish line stop with
      | error fault =>
        rw [hfinish] at h
        cases h
      | ok found =>
        rw [hfinish] at h
        cases h
        exact Nat.le_refl _
  | cons lexeme items ih =>
    cases lexeme with
    | fault fault => cases h
    | token token next =>
      simp only [outcome] at h
      cases hstep : reader.step line isStatement token next with
      | error fault =>
        rw [hstep] at h
        cases h
      | ok step =>
        rw [hstep] at h
        cases step with
        | more reader =>
          have hle : o.rest.length ≤ _ := ih h
          simp only [List.length_tail, List.tail_cons] at hle ⊢
          omega
        | done node stop =>
          cases h
          exact Nat.le_refl _

/-! ### Brackets around an expression -/

/-- The token ends an argument list that has no argument. -/
def EndsArguments (run : List Item) (opened : List (Bracket × List Item)) (kind : TokenKind) :
    Prop :=
  run = [] ∧ kind = .punctuator .closeParenthesis
    ∧ ∃ name position run' opened', opened = (.arguments name position [], run') :: opened'

/-- **The end of an expression**: its tree is found, and the innermost bracket takes it. -/
theorem close_eq {reader : Reader} {token : Token} {next : Option Char}
    (h : ¬EndsArguments reader.run reader.opened token.kind) :
    reader.close line token next = (reader.tree line (.ofToken token)).bind fun node =>
      resume line reader.opened node (.ofToken token) next := by
  obtain ⟨run, opened, opening⟩ := reader
  obtain ⟨kind, position⟩ := token
  unfold close finish
  simp only at h ⊢
  generalize htree : tree line ⟨run, opened, opening⟩ (.ofToken ⟨kind, position⟩) = x
  split
  · exact absurd ⟨rfl, rfl, _, _, _, _, rfl⟩ h
  · cases x <;> rfl
  · cases x <;> rfl
  · cases x <;> rfl
  · cases x with
    | error fault => rfl
    | ok node =>
      show _ = Except.ok (Step.more (if _ then _ else _))
      split <;> rfl
  · -- no bracket takes the tree
    rename_i harguments hcomma hparenthesis hindex _
    cases x with
    | error fault => rfl
    | ok node =>
      rcases opened with _ | ⟨⟨bracket, run'⟩, opened⟩
      · rfl
      · have hnot : ∀ {kind' : TokenKind}, kind ≠ kind' →
            (Stop.ofToken ⟨kind, position⟩).is kind' = false := fun hne => by
          simpa [Stop.is, Stop.ofToken] using hne
        cases bracket with
        | parenthesis =>
          have hclose := hnot fun heq => hparenthesis _ _ _ heq rfl
          simp [resume, resumeIn, hclose, Except.map, Except.bind, Bracket.wanted]
        | arguments =>
          have hclose := hnot fun heq => harguments _ _ _ _ _ heq rfl
          have hmore := hnot fun heq => hcomma _ _ _ _ _ heq rfl
          simp [resume, resumeIn, hclose, hmore, Except.map, Except.bind, Bracket.wanted]
        | index =>
          have hclose := hnot fun heq => hindex _ _ _ _ _ heq rfl
          simp [resume, resumeIn, hclose, Except.map, Except.bind, Bracket.wanted]

/-- The reader with further brackets around it. -/
def under (base : List (Bracket × List Item)) (reader : Reader) : Reader :=
  { reader with opened := reader.opened ++ base }

/-- What becomes of a step with further brackets around it. -/
def Step.under (line : SourceLine) (base : List (Bracket × List Item)) (next : Option Char) :
    Step → Except Fault Step
  | .more reader => .ok (.more (reader.under base))
  | .done node stop => resume line base node stop next

variable {base : List (Bracket × List Item)} {reader reader' : Reader} {token : Token}
  {next : Option Char} {items : List Lexeme}

theorem resume_append (entry : Bracket × List Item) (extra : List (Bracket × List Item))
    (node : Node) (stop : Stop) :
    resume line (entry :: extra ++ base) node stop next
      = (resume line (entry :: extra) node stop next).bind (Step.under line base next) := by
  obtain ⟨bracket, run⟩ := entry
  cases bracket with
  | parenthesis =>
    simp only [resume, List.cons_append, resumeIn]
    split <;> rfl
  | arguments =>
    simp only [resume, List.cons_append, resumeIn]
    split
    · rfl
    · split <;> rfl
  | index =>
    simp only [resume, List.cons_append, resumeIn]
    split
    · split <;> rfl
    · rfl

theorem close_under (h : reader.opened = [] → ¬EndsArguments reader.run base token.kind) :
    (reader.under base).close line token next
      = (reader.close line token next).bind (Step.under line base next) := by
  obtain ⟨run, opened, opening⟩ := reader
  rcases opened with _ | ⟨⟨bracket, run'⟩, extra⟩
  · have hends : ¬EndsArguments run [] token.kind := by
      rintro ⟨-, -, _, _, _, _, heq⟩
      cases heq
    have hunder : (under base ⟨run, [], opening⟩).close line token next = _ := close_eq (h rfl)
    rw [hunder, close_eq hends]
    show (tree line ⟨run, [], opening⟩ (.ofToken token)).bind _ = _
    cases tree line ⟨run, [], opening⟩ (.ofToken token) <;> rfl
  · by_cases hends : EndsArguments run ((bracket, run') :: extra) token.kind
    · obtain ⟨rfl, hkind, name, position, _, _, heq⟩ := hends
      cases heq
      obtain ⟨kind, _⟩ := token
      cases hkind
      rfl
    · have hends' : ¬EndsArguments run ((bracket, run') :: extra ++ base) token.kind := by
        rintro ⟨hrun, hkind, name, position, _, _, heq⟩
        exact hends ⟨hrun, hkind, name, position, _, _, congrArg (· :: extra) (List.cons.inj heq).1⟩
      have hunder : (under base ⟨run, (bracket, run') :: extra, opening⟩).close line token next
          = _ := close_eq hends'
      rw [hunder, close_eq hends]
      show (tree line ⟨run, [], opening⟩ (.ofToken token)).bind _
        = ((tree line ⟨run, [], opening⟩ (.ofToken token)).bind _).bind _
      cases tree line ⟨run, [], opening⟩ (.ofToken token) with
      | error fault => rfl
      | ok node => exact resume_append (bracket, run') extra node (.ofToken token)

/-- What is left when a bracket takes a tree: an operand in place of the bracket, or the bracket
itself, which waits for another tree.  The operand of a call is no variable. -/
inductive Taken (bracket : Bracket) (run : List Item) (opened : List (Bracket × List Item)) :
    Reader → Prop
  | operand (node : Node) (position : Position)
    (h : bracket.isCall = true → node.isVariable = false) :
    Taken bracket run opened { run := .operand node position :: run, opened }
  | bracket (bracket' : Bracket) (opening : Bool) (h : bracket'.isCall = bracket.isCall) :
    Taken bracket run opened { opened := (bracket', run) :: opened, opening }

theorem resumeIn_taken {bracket : Bracket} {run : List Item} {opened : List (Bracket × List Item)}
    {node : Node} {stop : Stop}
    (h : resumeIn line bracket run opened node stop next = .ok reader') :
    Taken bracket run opened reader' := by
  cases bracket with
  | parenthesis position =>
    simp only [resumeIn] at h
    split at h <;> cases h
    exact .operand node position (absurd · Bool.false_ne_true)
  | arguments name position before =>
    simp only [resumeIn] at h
    split at h
    · cases h
      exact .bracket _ _ rfl
    · split at h <;> cases h
      exact .operand _ _ fun _ => rfl
  | index name position before =>
    simp only [resumeIn] at h
    split at h
    · split at h <;> cases h
      · exact .bracket _ _ rfl
      · exact .operand _ _ (absurd · Bool.false_ne_true)
    · cases h

theorem close_taken (h : reader.close line token next = .ok (.more reader')) :
    ∃ bracket run opened, reader.opened = (bracket, run) :: opened
      ∧ Taken bracket run opened reader' := by
  by_cases hends : EndsArguments reader.run reader.opened token.kind
  · obtain ⟨run, opened, opening⟩ := reader
    obtain ⟨kind, position⟩ := token
    obtain ⟨rfl, rfl, name, position', run', opened', rfl⟩ := hends
    cases h
    exact ⟨_, _, _, rfl, .operand _ _ fun _ => rfl⟩
  · rw [close_eq hends] at h
    cases htree : reader.tree line (.ofToken token) with
    | error fault =>
      rw [htree] at h
      cases h
    | ok node =>
      rw [htree] at h
      cases hopened : reader.opened with
      | nil =>
        rw [hopened] at h
        cases h
      | cons entry opened =>
        obtain ⟨bracket, run⟩ := entry
        rw [hopened] at h
        cases hresume : resumeIn line bracket run opened node (.ofToken token) next with
        | error fault =>
          simp [Except.bind, resume, hresume, Except.map] at h
        | ok reader'' =>
          simp only [Except.bind, resume, hresume, Except.map] at h
          cases h
          exact ⟨bracket, run, opened, rfl, resumeIn_taken hresume⟩

/-- What a token that does not end the expression does. -/
inductive Advanced (reader : Reader) : Reader → Prop
  | opening (h : reader.opening = true) : Advanced reader { reader with opening := false }
  | push (item : Item) (h : reader.opening = false) : Advanced reader (reader.push item)
  | open (bracket : Bracket) (opening : Bool) :
    Advanced reader { opened := (bracket, reader.run) :: reader.opened, opening }
  | close {bracket : Bracket} {run : List Item} {opened : List (Bracket × List Item)}
    {reader' : Reader} (h : reader.opened = (bracket, run) :: opened)
    (htaken : Taken bracket run opened reader') : Advanced reader reader'

theorem step_advanced (h : reader.step line isStatement token next = .ok (.more reader')) :
    Advanced reader reader' := by
  have hclose : reader.close line token next = .ok (.more reader') → Advanced reader reader' := by
    intro hclose
    obtain ⟨bracket, run, opened, hopened, htaken⟩ := close_taken hclose
    exact .close hopened htaken
  obtain ⟨kind, position⟩ := token
  cases hopening : reader.opening with
  | true =>
    simp only [step, hopening, if_true] at h
    cases h
    exact .opening hopening
  | false =>
    simp only [step, hopening, Bool.false_eq_true, if_false] at h
    cases kind with
    | number | boolean | text | operator =>
      cases h
      exact .push _ hopening
    | identifier name =>
      simp only at h
      split at h
      · cases h
        exact .open _ _
      · split at h <;> cases h
        · exact .open _ _
        · exact .push _ hopening
    | punctuator p =>
      cases p with
      | openParenthesis =>
        cases h
        exact .open _ _
      | openBracket => cases h
      | assignment =>
        simp only at h
        split at h <;> cases h
      | _ => exact hclose h
    | range | endOfLine => exact hclose h
    | keyword keyword =>
      simp only at h
      split at h
      · exact hclose h
      · cases h

/-- Something was read before, or a bracket is open. -/
def Busy (reader : Reader) : Prop :=
  reader.opened ≠ [] ∨ reader.run ≠ []

/-- After a token something was read. -/
theorem Advanced.busy (h : Advanced reader reader') (hopening : reader.opening = true → reader.Busy) :
    reader'.Busy := by
  cases h with
  | opening h => exact hopening h
  | push => exact .inr (List.cons_ne_nil _ _)
  | «open» => exact .inl (List.cons_ne_nil _ _)
  | close _ htaken =>
    cases htaken with
    | operand => exact .inr (List.cons_ne_nil _ _)
    | bracket => exact .inl (List.cons_ne_nil _ _)

/-- A token inside brackets.  Whether it is part of a statement does not matter there. -/
theorem step_under (hbase : base ≠ [])
    (h : reader.opening = false → reader.opened = [] → ¬EndsArguments reader.run base token.kind) :
    (reader.under base).step line isStatement token next
      = (reader.step line false token next).bind (Step.under line base next) := by
  have hclose : reader.opening = false → (reader.under base).close line token next
      = (reader.close line token next).bind (Step.under line base next) :=
    fun hopening => close_under (h hopening)
  obtain ⟨run, opened, opening⟩ := reader
  obtain ⟨kind, position⟩ := token
  have hopened : opened ++ base ≠ [] := List.append_ne_nil_of_right_ne_nil _ hbase
  cases opening with
  | true => rfl
  | false =>
    have hclose := hclose rfl
    cases kind with
    | number | boolean | text | operator => rfl
    | identifier name =>
      simp only [step, under, Bool.false_eq_true, if_false]
      split
      · rfl
      · split <;> rfl
    | punctuator p =>
      cases p with
      | openParenthesis | openBracket => rfl
      | assignment =>
        cases hall : opened ++ base with
        | nil => exact absurd hall hopened
        | cons entry all =>
          simp only [step, under, hall, Bool.false_eq_true, if_false]
          rfl
      | _ => exact hclose
    | range | endOfLine => exact hclose
    | keyword keyword =>
      simp only [step, under, Bool.false_eq_true, if_false]
      split
      · exact hclose
      · rfl

/-- Reading goes on behind a token, or it is over. -/
def goOn (line : SourceLine) (isStatement : Bool) (ending : Ending) (next : Option Char)
    (rest : List Lexeme) : Step → Except Fault Outcome
  | .more reader => reader.outcome line isStatement ending rest
  | .done node stop => .ok ⟨node, stop, next, rest⟩

theorem outcome_token (reader : Reader) (token : Token) (next : Option Char) (rest : List Lexeme) :
    reader.outcome line isStatement ending (.token token next :: rest)
      = (reader.step line isStatement token next).bind
        (goOn line isStatement ending next rest) := by
  rw [outcome]
  rfl

/-- At the end of the line no bracket takes a tree. -/
theorem resumeIn_of_end {bracket : Bracket} {run : List Item} {opened : List (Bracket × List Item)}
    {node : Node} {stop : Stop} (h : stop.kind? = none ∨ stop.kind? = some .endOfLine) :
    resumeIn line bracket run opened node stop next
      = .error ⟨.expected bracket.wanted stop.found, stop.position⟩ := by
  rcases h with h | h <;> cases bracket <;> simp [resumeIn, Stop.is, h, Bracket.wanted]

theorem outcome_under_nil (hbase : base ≠ []) :
    (reader.under base).outcome line isStatement ending []
      = (reader.outcome line false ending []).bind fun o =>
        (resume line base o.node o.stop o.next).bind (goOn line isStatement ending o.next o.rest) := by
  have hend : ∀ stop : Stop, stop.kind? = none ∨ stop.kind? = some .endOfLine →
      ((reader.under base).finish line stop).map (fun (node, stop) => Outcome.mk node stop none [])
        = ((reader.finish line stop).map (fun (node, stop) => Outcome.mk node stop none [])).bind
          fun o => (resume line base o.node o.stop o.next).bind
            (goOn line isStatement ending o.next o.rest) := by
    intro stop hstop
    obtain ⟨run, opened, opening⟩ := reader
    unfold finish
    show ((tree line ⟨run, [], opening⟩ stop).bind _).map _
      = (((tree line ⟨run, [], opening⟩ stop).bind _).map _).bind _
    cases tree line ⟨run, [], opening⟩ stop with
    | error fault => rfl
    | ok node =>
      rcases opened with _ | ⟨entry, opened⟩
      · rcases base with _ | ⟨⟨bracket, run'⟩, base⟩
        · exact absurd rfl hbase
        · simp only [under, List.nil_append, Except.bind, Except.map, resume,
            resumeIn_of_end hstop]
      · rfl
  cases ending with
  | stuck fault => rfl
  | line position => exact hend _ (.inr rfl)
  | input position => exact hend _ (.inl rfl)

/-- **An expression inside brackets** is read as it is on its own, and then the innermost bracket
takes its tree.  Something may be read of it already; if not, it must not be an empty list of
arguments. -/
theorem outcome_under (hbase : base ≠ [])
    (h : reader.Busy ∨ reader.opening = false ∧ ∀ token next rest,
      items = .token token next :: rest → ¬EndsArguments reader.run base token.kind) :
    (reader.under base).outcome line isStatement ending items
      = (reader.outcome line false ending items).bind fun o =>
        (resume line base o.node o.stop o.next).bind (goOn line isStatement ending o.next o.rest) := by
  induction items generalizing reader with
  | nil => exact outcome_under_nil hbase
  | cons lexeme items ih =>
    cases lexeme with
    | fault fault => rfl
    | token token next =>
      have hstep : reader.opening = false → reader.opened = [] →
          ¬EndsArguments reader.run base token.kind := by
        -- only the first token can end a list of arguments that has none
        rintro hopening hopened hends
        rcases h with (hbusy | hbusy) | ⟨-, h⟩
        · exact hbusy hopened
        · exact hbusy hends.1
        · exact h token next items rfl hends
      have hopening : reader.opening = true → reader.Busy := fun hopening =>
        h.elim id fun h => absurd (h.1.symm.trans hopening) Bool.false_ne_true
      rw [outcome_token, outcome_token, step_under hbase hstep]
      cases hrun : reader.step line false token next with
      | error fault => rfl
      | ok step =>
        cases step with
        | more reader' => exact ih (.inl ((step_advanced hrun).busy hopening))
        | done node stop => rfl

/-- What stands behind an opening bracket. -/
theorem outcome_bracket {bracket : Bracket} {run : List Item} {opened : List (Bracket × List Item)}
    (h : ∀ token next rest, items = .token token next :: rest →
      ¬EndsArguments [] ((bracket, run) :: opened) token.kind) :
    outcome line isStatement ending { opened := (bracket, run) :: opened } items
      = (outcome line false ending {} items).bind fun o =>
        (resumeIn line bracket run opened o.node o.stop o.next).bind fun reader =>
          reader.outcome line isStatement ending o.rest := by
  have hunder : outcome line isStatement ending (under ((bracket, run) :: opened) {}) items = _ :=
    outcome_under (List.cons_ne_nil _ _) (.inr ⟨rfl, h⟩)
  refine hunder.trans ?_
  cases outcome line false ending {} items with
  | error fault => rfl
  | ok o =>
    show ((resumeIn line bracket run opened o.node o.stop o.next).map _).bind _
      = (resumeIn line bracket run opened o.node o.stop o.next).bind _
    cases resumeIn line bracket run opened o.node o.stop o.next <;> rfl

/-! ### A statement that is no assignment -/

/-- What was read of a statement is no variable, and will not become one. -/
def Settled (reader : Reader) : Prop :=
  match reader.opened.getLast? with
  | none => reader.run ≠ []
    ∧ ∀ name indices position, reader.run ≠ [.operand (.var name indices) position]
  | some (bracket, run) => run ≠ [] ∨ bracket.isCall = true

theorem Advanced.settled (h : Advanced reader reader') (hsettled : reader.Settled) :
    reader'.Settled := by
  unfold Settled at hsettled ⊢
  cases h with
  | opening => exact hsettled
  | push item =>
    have hopened : (reader.push item).opened = reader.opened := rfl
    rw [hopened]
    cases hlast : reader.opened.getLast? with
    | none =>
      rw [hlast] at hsettled
      exact ⟨List.cons_ne_nil _ _, fun _ _ _ heq => hsettled.1 (List.cons.inj heq).2⟩
    | some entry =>
      rw [hlast] at hsettled
      exact hsettled
  | «open» bracket opening =>
    simp only [List.getLast?_cons]
    cases hlast : reader.opened.getLast? with
    | none =>
      rw [hlast] at hsettled
      exact .inl hsettled.1
    | some entry =>
      rw [hlast] at hsettled
      exact hsettled
  | close hopened htaken =>
    rename_i bracket run opened
    rw [hopened, List.getLast?_cons] at hsettled
    cases htaken with
    | operand node position hcall =>
      cases hlast : opened.getLast? with
      | none =>
        rw [hlast] at hsettled
        refine ⟨List.cons_ne_nil _ _, fun name indices position' heq => ?_⟩
        obtain ⟨hitem, rfl⟩ := List.cons.inj heq
        obtain ⟨rfl, -⟩ := Item.operand.inj hitem
        rcases hsettled with hrun | hbracket
        · exact hrun rfl
        · exact absurd (hcall hbracket) (Bool.false_ne_true ·.symm)
      | some entry =>
        rw [hlast] at hsettled
        exact hsettled
    | bracket bracket' opening hcall =>
      simp only [List.getLast?_cons]
      cases hlast : opened.getLast? with
      | none =>
        rw [hlast] at hsettled
        exact hsettled.imp id (hcall.trans ·)
      | some entry =>
        rw [hlast] at hsettled
        exact hsettled

/-- Such a statement is read as an expression. -/
theorem Settled.step_eq (h : reader.Settled) :
    reader.step line true token next = reader.step line false token next := by
  obtain ⟨run, opened, opening⟩ := reader
  obtain ⟨kind, position⟩ := token
  cases opening with
  | true => rfl
  | false =>
    cases kind with
    | punctuator p =>
      cases p with
      | assignment =>
        simp only [step, Bool.false_eq_true, if_false]
        split
        · exact absurd rfl (h.2 _ _ _)
        · rfl
      | _ => rfl
    | _ => rfl

/-- **A statement that is no assignment** is read as an expression from there on. -/
theorem outcome_of_settled (h : reader.Settled) :
    reader.outcome line true ending items = reader.outcome line false ending items := by
  induction items generalizing reader with
  | nil => rfl
  | cons lexeme items ih =>
    cases lexeme with
    | fault fault => rfl
    | token token next =>
      rw [outcome_token, outcome_token, h.step_eq]
      cases hrun : reader.step line false token next with
      | error fault => rfl
      | ok step =>
        cases step with
        | more reader' => exact ih ((step_advanced hrun).settled h)
        | done node stop => rfl

/-- Nothing but an assignment sign behind a variable makes a statement an assignment. -/
theorem outcome_of_variable {name : String} {indices : List Node} {position : Position}
    {stop : Stop} (hnext : Stop.next ending items = .ok stop)
    (hstop : stop.is (.punctuator .assignment) = false) :
    outcome line true ending { run := [.operand (.var name indices) position] } items
      = outcome line false ending { run := [.operand (.var name indices) position] } items := by
  rcases items with _ | ⟨⟨⟨kind, position'⟩, next⟩ | fault, items⟩
  · rfl
  · have hstep : step line true { run := [.operand (.var name indices) position] } ⟨kind, position'⟩
          next
        = step line false { run := [.operand (.var name indices) position] } ⟨kind, position'⟩
          next := by
      cases kind with
      | punctuator punctuator =>
        cases punctuator with
        | assignment =>
          cases hnext
          cases hstop
        | _ => rfl
      | _ => rfl
    rw [outcome_token, outcome_token, hstep]
    cases hrun : step line false { run := [.operand (.var name indices) position] }
      ⟨kind, position'⟩ next with
    | error fault => rfl
    | ok step =>
      cases step with
      | done node stop => rfl
      | more reader =>
        refine outcome_of_settled ?_
        cases step_advanced hrun with
        | opening h => cases h
        | push item => exact ⟨List.cons_ne_nil _ _, fun _ _ _ heq => by cases heq⟩
        | «open» bracket opening => exact .inl (List.cons_ne_nil _ _)
        | close h => cases h
  · rfl

theorem close_done {node : Node} {stop : Stop}
    (h : reader.close line token next = .ok (.done node stop)) : stop = .ofToken token := by
  by_cases hends : EndsArguments reader.run reader.opened token.kind
  · obtain ⟨run, opened, opening⟩ := reader
    obtain ⟨kind, position⟩ := token
    obtain ⟨rfl, rfl, name, position', run', opened', rfl⟩ := hends
    cases h
  · rw [close_eq hends] at h
    cases htree : reader.tree line (.ofToken token) with
    | error fault =>
      rw [htree] at h
      cases h
    | ok node' =>
      rw [htree] at h
      cases hopened : reader.opened with
      | nil =>
        rw [hopened] at h
        cases h
        rfl
      | cons entry opened =>
        rw [hopened] at h
        simp only [Except.bind, resume] at h
        cases hresume : resumeIn line entry.1 entry.2 opened node' (.ofToken token) next with
        | error fault =>
          rw [hresume] at h
          cases h
        | ok reader' =>
          rw [hresume] at h
          cases h

theorem step_done {node : Node} {stop : Stop}
    (h : reader.step line false token next = .ok (.done node stop)) :
    stop.is (.punctuator .assignment) = false := by
  have hclose : reader.close line token next = .ok (.done node stop) →
      token.kind ≠ .punctuator .assignment → stop.is (.punctuator .assignment) = false := by
    intro hclose hkind
    rw [close_done hclose]
    simpa [Stop.is, Stop.ofToken] using hkind
  obtain ⟨kind, position⟩ := token
  cases hopening : reader.opening with
  | true =>
    simp only [step, hopening, if_true] at h
    cases h
  | false =>
    simp only [step, hopening, Bool.false_eq_true, if_false] at h
    cases kind with
    | number | boolean | text | operator => cases h
    | identifier name =>
      simp only at h
      split at h
      · cases h
      · split at h <;> cases h
    | punctuator punctuator =>
      cases punctuator with
      | openParenthesis | openBracket | assignment => cases h
      | _ => exact hclose h (by simp)
    | range | endOfLine => exact hclose h (by simp)
    | keyword keyword =>
      simp only at h
      split at h
      · exact hclose h (by simp)
      · cases h

/-- An expression does not end at an assignment sign. -/
theorem stop_of_outcome {o : Outcome} (h : reader.outcome line false ending items = .ok o) :
    o.stop.is (.punctuator .assignment) = false := by
  induction items generalizing reader with
  | nil =>
    rw [outcome] at h
    have hfinish : ∀ stop : Stop, stop.is (.punctuator .assignment) = false →
        (reader.finish line stop).map (fun (node, stop) => Outcome.mk node stop none []) = .ok o →
        o.stop.is (.punctuator .assignment) = false := by
      intro stop hstop hmap
      rw [finish] at hmap
      cases htree : reader.tree line stop with
      | error fault =>
        rw [htree] at hmap
        cases hmap
      | ok node =>
        rw [htree] at hmap
        cases hopened : reader.opened with
        | nil =>
          rw [hopened] at hmap
          cases hmap
          exact hstop
        | cons entry opened =>
          rw [hopened] at hmap
          cases hmap
    cases ending with
    | stuck fault => cases h
    | line position => exact hfinish ⟨some .endOfLine, position⟩ rfl h
    | input position => exact hfinish ⟨none, position⟩ rfl h
  | cons lexeme items ih =>
    cases lexeme with
    | fault fault => cases h
    | token token next =>
      rw [outcome_token] at h
      cases hrun : reader.step line false token next with
      | error fault =>
        rw [hrun] at h
        cases h
      | ok step =>
        rw [hrun] at h
        cases step with
        | more reader' => exact ih h
        | done node stop =>
          cases h
          exact step_done hrun

end Reader

end Tablica
