import Tablica.Proofs.Syntax.Grammar
import Tablica.Proofs.Token.Rules

/-!
# What a line is read as

The reader of expressions builds its tree from the items of the current run and from those that
wait behind open brackets.  If all these are expressions on the line, so is the tree; and each
token keeps this so, for only a token of a number that is not negative becomes a number.  What a
line is read as is then simple, or a heading, in the sense of the grammar.

* `TokenKind.IsNatural`, `lexemesFrom_isNatural` — numbers are read without a sign;
* `Item.tree_isExpression` — the tree of a run;
* `Reader.HoldsExpressions`, `Reader.step_holdsExpressions`, `Reader.read_isExpression` — the
  invariant of the reader, one token, and a line;
* `readForm_isRead` — what `readForm` answers.
-/

namespace Except

variable {ε α β : Type}

theorem map_eq_ok {f : α → β} {x : Except ε α} {b : β} :
    x.map f = .ok b ↔ ∃ a, x = .ok a ∧ f a = b := by
  cases x <;> simp [Except.map]

theorem bind_eq_ok {f : α → Except ε β} {x : Except ε α} {b : β} :
    x.bind f = .ok b ↔ ∃ a, x = .ok a ∧ f a = .ok b := by
  cases x <;> simp [Except.bind]

/-- The same for `do`. -/
theorem do_eq_ok {f : α → Except ε β} {x : Except ε α} {b : β} :
    x >>= f = .ok b ↔ ∃ a, x = .ok a ∧ f a = .ok b :=
  bind_eq_ok

end Except

namespace Tablica

/-! ### Numbers have no sign -/

/-- A token of a number is one of a number that is not negative. -/
def TokenKind.IsNatural : TokenKind → Prop
  | number n => 0 ≤ n.val
  | _ => True

/-- A lexeme whose token, if it has one, is natural. -/
def Lexeme.IsNatural : Lexeme → Prop
  | .token ⟨kind, _⟩ _ => kind.IsNatural
  | .fault _ => True

namespace Token

theorem isNatural_of_isSpelled {symbol cs : List Char} {kind : TokenKind}
    (h : kind.IsSpelled symbol cs) : kind.IsNatural := by
  cases kind with
  | number n =>
    obtain ⟨-, -, hval⟩ := h
    show 0 ≤ n.val
    rw [hval]
    exact Int.natCast_nonneg _
  | _ => trivial

theorem readToken_isNatural {symbol cs rest : List Char} {kind : TokenKind}
    (h : readToken symbol cs = (.ok kind, rest)) : kind.IsNatural := by
  obtain ⟨token, -, hspelled⟩ := (readBy_of_readToken h).exists_spelling
  exact isNatural_of_isSpelled hspelled

/-- **Numbers are read without a sign.** -/
theorem lexemesFrom_isNatural (symbol : List Char) (number : Nat) (isLast : Bool) (column : Nat)
    (cs : List Char) : ∀ lexeme ∈ (lexemesFrom symbol number isLast column cs).items,
      lexeme.IsNatural := by
  fun_induction lexemesFrom symbol number isLast column cs with
  | case1 | case4 => exact fun lexeme h => nomatch h
  | case2 _ _ _ _ _ _ _ _ _ kind hread ih =>
    exact List.forall_mem_cons.mpr ⟨readToken_isNatural hread, ih⟩
  | case3 _ _ _ _ _ _ _ _ _ _ _ ih => exact List.forall_mem_cons.mpr ⟨trivial, ih⟩

end Token

/-! ### Runs -/

variable {line : SourceLine}

/-- An item whose operand, if it is one, is an expression on the line. -/
def Item.HoldsExpression (line : SourceLine) : Item → Prop
  | .operand node _ => IsExpression line node
  | .operator _ _ => True

theorem Waiting.settle_isExpression {rank : Nat} {waiting : Waiting} {right : Node}
    (hwaiting : ∀ entry ∈ waiting, IsExpression line entry.1) (hright : IsExpression line right) :
    (∀ entry ∈ (waiting.settle line rank right).1, IsExpression line entry.1)
      ∧ IsExpression line (waiting.settle line rank right).2 := by
  induction waiting generalizing right with
  | nil => exact ⟨hwaiting, hright⟩
  | cons entry waiting ih =>
    obtain ⟨hentry, hrest⟩ := List.forall_mem_cons.mp hwaiting
    unfold settle
    split
    · exact ih hrest (.operation hentry hright)
    · exact ⟨hwaiting, hright⟩

theorem Waiting.fold_isExpression {waiting : Waiting} {last : Node} {rest : List (Operator × Node)}
    (hwaiting : ∀ entry ∈ waiting, IsExpression line entry.1) (hlast : IsExpression line last)
    (hrest : ∀ pair ∈ rest, IsExpression line pair.2) :
    IsExpression line (Waiting.fold line waiting last rest) := by
  induction rest generalizing waiting last with
  | nil => exact (settle_isExpression hwaiting hlast).2
  | cons pair rest ih =>
    obtain ⟨hpair, hrest⟩ := List.forall_mem_cons.mp hrest
    obtain ⟨hwaiting', hleft⟩ := settle_isExpression hwaiting hlast
    exact ih (List.forall_mem_cons.mpr ⟨hleft, hwaiting'⟩) hpair hrest

namespace Item

theorem pairs_isExpression {run : List Item} {pairs : List (Operator × Node)}
    (hrun : ∀ item ∈ run, item.HoldsExpression line) (h : Item.pairs run = .ok pairs) :
    ∀ pair ∈ pairs, IsExpression line pair.2 := by
  fun_induction Item.pairs run generalizing pairs with
  | case1 =>
    cases h
    exact fun pair hpair => nomatch hpair
  | case3 o _ node _ rest ih =>
    obtain ⟨-, hrun⟩ := List.forall_mem_cons.mp hrun
    obtain ⟨hnode, hrest⟩ := List.forall_mem_cons.mp hrun
    obtain ⟨pairs', hpairs, rfl⟩ := Except.map_eq_ok.mp h
    exact List.forall_mem_cons.mpr ⟨hnode, ih hrest hpairs⟩
  | _ => cases h

/-- The tree of a run of expressions is an expression. -/
theorem tree_isExpression {stop : Position} {run : List Item} {node : Node}
    (hrun : ∀ item ∈ run, item.HoldsExpression line) (h : Item.tree line stop run = .ok node) :
    IsExpression line node := by
  obtain ⟨⟨first, rest⟩, hsplit, rfl⟩ := Except.map_eq_ok.mp h
  have hnone : ∀ entry ∈ ([] : Waiting), IsExpression line entry.1 := fun _ h => nomatch h
  unfold Item.split at hsplit
  split at hsplit
  · cases hsplit
  · obtain ⟨hnode, hrest⟩ := List.forall_mem_cons.mp hrun
    obtain ⟨pairs, hpairs, heq⟩ := Except.map_eq_ok.mp hsplit
    cases heq
    exact Waiting.fold_isExpression hnone hnode (pairs_isExpression hrest hpairs)
  · split at hsplit
    · obtain ⟨pairs, hpairs, heq⟩ := Except.map_eq_ok.mp hsplit
      cases heq
      exact Waiting.fold_isExpression hnone (.number (by decide)) (pairs_isExpression hrun hpairs)
    · cases hsplit

end Item

/-! ### The reader -/

/-- The arguments or indices that a bracket keeps. -/
def Bracket.nodes : Bracket → List Node
  | parenthesis _ => []
  | arguments _ _ before | index _ _ before => before

/-- All that a reader has read are expressions on the line. -/
structure Reader.HoldsExpressions (line : SourceLine) (reader : Reader) : Prop where
  run : ∀ item ∈ reader.run, item.HoldsExpression line
  nodes : ∀ entry ∈ reader.opened, ∀ node ∈ entry.1.nodes, IsExpression line node
  runs : ∀ entry ∈ reader.opened, ∀ item ∈ entry.2, item.HoldsExpression line

/-- The same after a token. -/
def Reader.Step.HoldsExpressions (line : SourceLine) : Reader.Step → Prop
  | .more reader => reader.HoldsExpressions line
  | .done node _ => IsExpression line node

namespace Reader

variable {reader : Reader} {token : Token} {next : Option Char} {step : Step}

theorem HoldsExpressions.tree (h : reader.HoldsExpressions line) {stop : Stop} {node : Node}
    (htree : reader.tree line stop = .ok node) : IsExpression line node := by
  unfold Reader.tree at htree
  split at htree
  · cases htree
  · exact Item.tree_isExpression (fun item hitem => h.run item (List.mem_reverse.mp hitem)) htree

theorem HoldsExpressions.finish (h : reader.HoldsExpressions line) {stop stop' : Stop}
    {node : Node} (hfinish : reader.finish line stop = .ok (node, stop')) :
    IsExpression line node := by
  obtain ⟨node', htree, heq⟩ := Except.bind_eq_ok.mp hfinish
  split at heq
  · cases heq
    exact h.tree htree
  · cases heq

/-- An operand in the run of the bracket around it. -/
theorem HoldsExpressions.operand {node : Node} {position : Position} {run : List Item}
    {entry : Bracket × List Item} {opened : List (Bracket × List Item)}
    (h : reader.HoldsExpressions line) (hopened : reader.opened = entry :: opened)
    (hrun : entry.2 = run) (hnode : IsExpression line node) :
    HoldsExpressions line { run := .operand node position :: run, opened := opened } where
  run := List.forall_mem_cons.mpr ⟨hnode, fun item hitem =>
    h.runs entry (hopened ▸ List.mem_cons_self) item (hrun ▸ hitem)⟩
  nodes entry' hentry := h.nodes entry' (hopened ▸ List.mem_cons_of_mem _ hentry)
  runs entry' hentry := h.runs entry' (hopened ▸ List.mem_cons_of_mem _ hentry)

/-- A bracket that keeps one node more. -/
theorem HoldsExpressions.keep {node : Node} {bracket bracket' : Bracket} {run : List Item}
    {opened : List (Bracket × List Item)} {opening : Bool} (h : reader.HoldsExpressions line)
    (hopened : reader.opened = (bracket, run) :: opened)
    (hnodes : bracket'.nodes = node :: bracket.nodes) (hnode : IsExpression line node) :
    HoldsExpressions line { opened := (bracket', run) :: opened, opening } where
  run item hitem := nomatch hitem
  nodes := by
    have hall := h.nodes
    rw [hopened, List.forall_mem_cons] at hall
    refine List.forall_mem_cons.mpr ⟨?_, hall.2⟩
    rw [hnodes]
    exact List.forall_mem_cons.mpr ⟨hnode, hall.1⟩
  runs := by
    have hall := h.runs
    rw [hopened, List.forall_mem_cons] at hall
    exact List.forall_mem_cons.mpr hall

/-- What a bracket keeps and one node more, in the order in which they were read. -/
theorem HoldsExpressions.forall_mem_reverse {node : Node} {bracket : Bracket} {run : List Item}
    {opened : List (Bracket × List Item)} (h : reader.HoldsExpressions line)
    (hopened : reader.opened = (bracket, run) :: opened) (hnode : IsExpression line node) :
    ∀ node' ∈ (node :: bracket.nodes).reverse, IsExpression line node' := by
  intro node' hmem
  rcases List.mem_cons.mp (List.mem_reverse.mp hmem) with rfl | hmem
  · exact hnode
  · exact h.nodes _ (hopened ▸ List.mem_cons_self) node' hmem

/-- A token that ends a run. -/
theorem close_holdsExpressions (h : reader.HoldsExpressions line)
    (hclose : reader.close line token next = .ok step) : step.HoldsExpressions line := by
  unfold close at hclose
  simp only at hclose
  split at hclose
  case h_1 name position run opened _ hopened _ =>
    cases hclose
    exact h.operand hopened rfl (.call fun node hnode => nomatch hnode)
  case h_2 name position before run opened _ hopened _ =>
    obtain ⟨node, htree, rfl⟩ := Except.map_eq_ok.mp hclose
    exact h.operand hopened rfl (.call (h.forall_mem_reverse hopened (h.tree htree)))
  case h_3 name position before run opened _ hopened =>
    obtain ⟨node, htree, rfl⟩ := Except.map_eq_ok.mp hclose
    exact h.keep hopened rfl (h.tree htree)
  case h_4 position run opened _ hopened =>
    obtain ⟨node, htree, rfl⟩ := Except.map_eq_ok.mp hclose
    exact h.operand hopened rfl (h.tree htree)
  case h_5 name position before run opened _ hopened =>
    obtain ⟨node, htree, rfl⟩ := Except.map_eq_ok.mp hclose
    split
    · exact h.keep hopened rfl (h.tree htree)
    · exact h.operand hopened rfl (.var (h.forall_mem_reverse hopened (h.tree htree)))
  case h_6 =>
    obtain ⟨⟨node, stop⟩, hfinish, rfl⟩ := Except.map_eq_ok.mp hclose
    exact h.finish hfinish

theorem HoldsExpressions.push {item : Item} (h : reader.HoldsExpressions line)
    (hitem : item.HoldsExpression line) : (reader.push item).HoldsExpressions line :=
  ⟨List.forall_mem_cons.mpr ⟨hitem, h.run⟩, h.nodes, h.runs⟩

/-- A token that opens a bracket. -/
theorem HoldsExpressions.open {bracket : Bracket} {opening : Bool}
    (h : reader.HoldsExpressions line) (hnodes : bracket.nodes = []) :
    HoldsExpressions line { opened := (bracket, reader.run) :: reader.opened, opening } where
  run item hitem := nomatch hitem
  nodes := List.forall_mem_cons.mpr ⟨by simp [hnodes], h.nodes⟩
  runs := List.forall_mem_cons.mpr ⟨h.run, h.runs⟩

/-- **One token** keeps all that was read expressions on the line. -/
theorem step_holdsExpressions (h : reader.HoldsExpressions line) (hnatural : token.kind.IsNatural)
    {isStatement : Bool} (hstep : reader.step line isStatement token next = .ok step) :
    step.HoldsExpressions line := by
  unfold Reader.step at hstep
  simp only at hstep
  split at hstep
  · cases hstep
    exact ⟨h.run, h.nodes, h.runs⟩
  split at hstep
  case h_1 n hkind =>
    cases hstep
    exact h.push (.number (by rwa [hkind] at hnatural))
  case h_2 b _ =>
    cases hstep
    exact h.push (.boolean b)
  case h_3 s _ =>
    cases hstep
    exact h.push (.text s)
  case h_4 =>
    cases hstep
    exact h.push trivial
  case h_5 name _ =>
    repeat' split at hstep
    all_goals cases hstep
    · exact h.open rfl
    · exact h.open rfl
    · exact h.push (.var fun node hnode => nomatch hnode)
  case h_6 =>
    cases hstep
    exact h.open rfl
  case h_7 =>
    split at hstep
    · rename_i name indices position _ hrun
      cases hstep
      exact h.run (.operand (.var name indices) position) (hrun ▸ List.mem_cons_self)
    · cases hstep
  case h_8 => cases hstep
  case h_9 | h_10 | h_11 => exact close_holdsExpressions h hstep
  case h_12 =>
    split at hstep
    · exact close_holdsExpressions h hstep
    · cases hstep

theorem holdsExpressions_empty : HoldsExpressions line {} :=
  ⟨by simp, by simp, by simp⟩

/-- **What is read is an expression on the line**, and the lexemes that are left are some of those
that there were. -/
theorem read_isExpression {isStatement : Bool} {ending : Ending} {items rest : List Lexeme}
    {node : Node} {stop : Stop} (h : reader.HoldsExpressions line)
    (hitems : ∀ lexeme ∈ items, lexeme.IsNatural)
    (hread : reader.read line isStatement ending items = (.ok (node, stop), rest)) :
    IsExpression line node ∧ ∀ lexeme ∈ rest, lexeme.IsNatural := by
  induction items generalizing reader with
  | nil =>
    obtain ⟨hfinish, rfl⟩ := Prod.mk.inj hread
    obtain ⟨_, _, hfinish⟩ := Except.bind_eq_ok.mp hfinish
    exact ⟨h.finish hfinish, hitems⟩
  | cons lexeme items ih =>
    obtain ⟨hlexeme, htail⟩ := List.forall_mem_cons.mp hitems
    cases lexeme with
    | fault => cases hread
    | token token next =>
      unfold Reader.read at hread
      split at hread
      · cases hread
      · rename_i hstep
        cases hread
        exact ⟨step_holdsExpressions h hlexeme hstep, htail⟩
      · rename_i hstep
        exact ih (step_holdsExpressions h hlexeme hstep) htail hread

end Reader

/-! ### Forms -/

/-- A form in the sense of the grammar. -/
def Form.IsRead (inRoutine : Bool) (line : SourceLine) : Form → Prop
  | .simple node => IsSimple inRoutine line node
  | .heading h => h.IsRead line

namespace Form

variable {inRoutine : Bool} {ending : Ending} {items rest : List Lexeme} {node : Node}
  {heading : Heading} {form : Form}

/-- Whatever is left behind the first lexeme is natural. -/
theorem isNatural_tail (h : ∀ lexeme ∈ items, lexeme.IsNatural) :
    ∀ lexeme ∈ items.tail, lexeme.IsNatural := fun lexeme hlexeme =>
  h lexeme (List.mem_of_mem_tail hlexeme)

theorem expressionToEnd_isExpression (hitems : ∀ lexeme ∈ items, lexeme.IsNatural)
    (h : expressionToEnd line ending items = .ok node) : IsExpression line node := by
  obtain ⟨⟨node', stop⟩, hread, hend⟩ := Except.do_eq_ok.mp h
  obtain ⟨_, -, hnode⟩ := Except.do_eq_ok.mp hend
  cases hnode
  exact (Reader.read_isExpression Reader.holdsExpressions_empty hitems
    (Prod.ext hread rfl : readExpression line ending items = (.ok (node, stop), _))).1

theorem headingExpression_isExpression {closing : Keyword}
    (hitems : ∀ lexeme ∈ items, lexeme.IsNatural)
    (h : headingExpression closing line ending items = .ok node) : IsExpression line node := by
  obtain ⟨⟨node', stop⟩, hread, hclose⟩ := Except.do_eq_ok.mp h
  simp only at hclose
  split at hclose
  · obtain ⟨_, -, hnode⟩ := Except.do_eq_ok.mp hclose
    cases hnode
    exact (Reader.read_isExpression Reader.holdsExpressions_empty hitems
      (Prod.ext hread rfl : readExpression line ending items = (.ok (node, stop), _))).1
  · cases hclose

theorem takeName_eq_ok {place : NamePlace} {name : String}
    (h : takeName place ending items = .ok (name, rest)) : rest = items.tail := by
  obtain ⟨stop, -, hname⟩ := Except.do_eq_ok.mp h
  split at hname
  · cases hname
    rfl
  · cases hname

theorem takePunctuator_eq_ok {punctuator : Punctuator} {wanted : Wanted}
    (h : takePunctuator punctuator wanted ending items = .ok rest) : rest = items.tail := by
  obtain ⟨stop, -, hname⟩ := Except.do_eq_ok.mp h
  split at hname
  · cases hname
    rfl
  · cases hname

theorem isNatural_dropComma (h : ∀ lexeme ∈ items, lexeme.IsNatural) :
    ∀ lexeme ∈ dropComma items, lexeme.IsNatural := by
  unfold dropComma
  split
  · exact (List.forall_mem_cons.mp h).2
  · exact h

theorem takeRange_isNatural {stop : Stop} (hitems : ∀ lexeme ∈ items, lexeme.IsNatural)
    (h : takeRange ending stop items = .ok rest) : ∀ lexeme ∈ rest, lexeme.IsNatural := by
  unfold takeRange at h
  split at h
  · cases h
    exact isNatural_dropComma hitems
  · split at h
    · obtain ⟨stop', -, h⟩ := Except.do_eq_ok.mp h
      split at h
      · cases h
        exact isNatural_dropComma (isNatural_tail hitems)
      · cases h
    · cases h

theorem rangeHeading_isRead (hitems : ∀ lexeme ∈ items, lexeme.IsNatural)
    (h : rangeHeading line ending items = .ok heading) : heading.IsRead line := by
  obtain ⟨⟨name, items₁⟩, hname, h⟩ := Except.do_eq_ok.mp h
  obtain ⟨items₂, hsign, h⟩ := Except.do_eq_ok.mp h
  have hitems₂ : ∀ lexeme ∈ items₂, lexeme.IsNatural := by
    rw [takePunctuator_eq_ok hsign, takeName_eq_ok hname]
    exact isNatural_tail (isNatural_tail hitems)
  obtain ⟨⟨first, stop⟩, hfirst, h⟩ := Except.do_eq_ok.mp h
  obtain ⟨hfirst, hitems₃⟩ := Reader.read_isExpression Reader.holdsExpressions_empty hitems₂
    (Prod.ext hfirst rfl : readExpression line ending items₂ = (.ok (first, stop), _))
  obtain ⟨items₄, hrange, h⟩ := Except.do_eq_ok.mp h
  obtain ⟨last, hlast, h⟩ := Except.do_eq_ok.mp h
  cases h
  exact .range hfirst (headingExpression_isExpression (takeRange_isNatural hitems₃ hrange) hlast)

theorem routineHeading_isRead {isProcedure : Bool}
    (h : routineHeading isProcedure ending items = .ok heading) : heading.IsRead line := by
  obtain ⟨⟨name, items₁⟩, -, h⟩ := Except.do_eq_ok.mp h
  obtain ⟨items₂, -, h⟩ := Except.do_eq_ok.mp h
  simp only at h
  split at h
  all_goals
    obtain ⟨⟨parameters, items₃⟩, -, h⟩ := Except.do_eq_ok.mp h
    obtain ⟨_, -, h⟩ := Except.do_eq_ok.mp h
    cases h
    exact .routine name parameters isProcedure

theorem ofKeyword_isRead {position : Position} {keyword : Keyword}
    (hitems : ∀ lexeme ∈ items, lexeme.IsNatural)
    (h : ofKeyword line inRoutine position ending items keyword = .ok form) :
    form.IsRead inRoutine line := by
  cases keyword with
  | pisz =>
    obtain ⟨node, hnode, h⟩ := Except.do_eq_ok.mp h
    cases h
    exact IsSimple.print (expressionToEnd_isExpression hitems hnode)
  | czytaj =>
    obtain ⟨node, hnode, h⟩ := Except.do_eq_ok.mp h
    cases h
    exact IsSimple.read (expressionToEnd_isExpression hitems hnode)
  | koniec =>
    obtain ⟨_, -, h⟩ := Except.do_eq_ok.mp h
    cases h
    exact IsSimple.stop
  | jezeli =>
    obtain ⟨node, hnode, h⟩ := Except.do_eq_ok.mp h
    cases h
    exact Heading.IsRead.condition (headingExpression_isExpression hitems hnode)
  | dopoki =>
    obtain ⟨node, hnode, h⟩ := Except.do_eq_ok.mp h
    cases h
    exact Heading.IsRead.whileLoop (headingExpression_isExpression hitems hnode)
  | dla =>
    obtain ⟨heading, hheading, h⟩ := Except.do_eq_ok.mp h
    cases h
    exact rangeHeading_isRead hitems hheading
  | funkcja =>
    obtain ⟨heading, hheading, h⟩ := Except.do_eq_ok.mp h
    cases h
    exact routineHeading_isRead hheading
  | procedura =>
    obtain ⟨heading, hheading, h⟩ := Except.do_eq_ok.mp h
    cases h
    exact routineHeading_isRead hheading
  | zwroc =>
    simp only [ofKeyword] at h
    split at h
    · cases h
    · rename_i hroutine
      have hroutine : inRoutine = true := by simpa using hroutine
      obtain ⟨stop, -, h⟩ := Except.do_eq_ok.mp h
      split at h
      · cases h
        exact IsSimple.giveBack hroutine (by simp)
      · cases h
        exact IsSimple.giveBack hroutine (by simp)
      · obtain ⟨node, hnode, h⟩ := Except.do_eq_ok.mp h
        cases h
        exact IsSimple.giveBack hroutine (by simpa using expressionToEnd_isExpression hitems hnode)
  | _ => cases h

theorem ofName_isRead (hitems : ∀ lexeme ∈ items, lexeme.IsNatural)
    (h : ofName line ending items = .ok form) : form.IsRead inRoutine line := by
  obtain ⟨⟨node, stop⟩, hread, h⟩ := Except.do_eq_ok.mp h
  obtain ⟨hnode, hrest⟩ := Reader.read_isExpression Reader.holdsExpressions_empty hitems
    (Prod.ext hread rfl : Reader.read line true ending {} items = (.ok (node, stop), _))
  simp only at h
  split at h
  · obtain ⟨value, hvalue, h⟩ := Except.do_eq_ok.mp h
    cases h
    cases hnode with
    | var hindices => exact IsSimple.assignment hindices (expressionToEnd_isExpression hrest hvalue)
  · obtain ⟨_, -, h⟩ := Except.do_eq_ok.mp h
    cases h
    exact IsSimple.expression hnode

end Form

/-- **What a line is read as** is a simple statement or a heading of the grammar. -/
theorem readForm_isRead {inRoutine : Bool} {lexemes : Lexemes} {form : Form}
    (hitems : ∀ lexeme ∈ lexemes.items, lexeme.IsNatural)
    (h : readForm line inRoutine lexemes = .ok form) : form.IsRead inRoutine line := by
  unfold readForm at h
  split at h
  · rename_i hcons
    rw [hcons] at hitems
    exact Form.ofKeyword_isRead (List.forall_mem_cons.mp hitems).2 h
  · exact Form.ofName_isRead hitems h
  · obtain ⟨node, hnode, h⟩ := Except.do_eq_ok.mp h
    cases h
    exact IsSimple.expression (Form.expressionToEnd_isExpression hitems hnode)

end Tablica
