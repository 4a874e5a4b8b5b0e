/-!
# Control sequences

A terminal does not show every character it is sent.  Some take it into a **control
sequence**, and what follows is an order to the terminal until the sequence ends:

    ESC  intermediates  final                        an escape sequence
    ESC  [  parameters  intermediates  final         a control sequence proper
    ESC  ]  text  BEL                                a command to the system
    ESC  P  parameters  intermediates  final  text   a string for a device
    ESC  X  text    ESC  ^  text    ESC  _  text     a string for nobody

A text that is not meant for a terminal is written without all of them.  Wherever a
sequence has got to, an escape character begins another one, and the characters CAN and
SUB break it off.

The layout characters are shown even inside the sequences of the first two kinds.  Such
a character **interrupts** its sequence: what comes after it is shown as well, up to a
character that is not shown anywhere, and with that one the sequence goes on.  A
character beyond ASCII that is shown in between makes the sequence forgotten.

* `ControlState` — how far into a sequence a text has got, `ControlState.after` — the next state;
* `ControlState.shows` — which characters are shown;
* `strip` — the characters of a text that are shown;
* `strip_sublist`, `escape_not_mem_strip` — stripping only leaves out, and leaves no sequence;
* `strip_strip` — a stripped text needs no stripping.
-/

namespace Tablica.Text

/-! ## Kinds of characters -/

def isIntermediate (c : Char) : Bool :=
  '\x20' ≤ c && c ≤ '\x2f'

def isParameter (c : Char) : Bool :=
  '\x30' ≤ c && c ≤ '\x3f'

def isFinal (c : Char) : Bool :=
  '\x40' ≤ c && c ≤ '\x7e'

/-- The controls that lay out a text. -/
def isLayout (c : Char) : Bool :=
  c == '\t' || c == '\n' || c == '\x0c' || c == '\r'

/-- Some strings end at the byte `9C`, also when that is a part of a character. -/
def endsString (c : Char) : Bool :=
  (String.utf8EncodeChar c).contains 0x9C

/-! ## States -/

/-- How far into a control sequence a text has got.  The states of a string for a device are those
of its three beginnings; its text and that of a string for nobody end alike. -/
inductive ControlState
  | ground
  | escape
  | intermediate
  | controlSequence
  | device
  | deviceParameter
  | deviceIntermediate
  | string
  | command
deriving DecidableEq, Repr, Inhabited

namespace ControlState

/-- The state after one more character, whether or not that is shown. -/
def after (s : ControlState) (c : Char) : ControlState :=
  if c = '\x1b' then escape
  else if c = '\x18' ∨ c = '\x1a' then ground
  else match s with
    | ground => ground
    | escape =>
      if isIntermediate c then intermediate
      else if c = '[' then controlSequence
      else if c = ']' then command
      else if c = 'P' then device
      else if c = 'X' ∨ c = '^' ∨ c = '_' then string
      else if isParameter c || isFinal c then ground
      else escape
    | intermediate => if isParameter c || isFinal c then ground else intermediate
    | controlSequence => if isFinal c then ground else controlSequence
    | device =>
      if isIntermediate c then deviceIntermediate
      else if isParameter c then deviceParameter
      else if isFinal c then string
      else device
    | deviceParameter =>
      if isIntermediate c then deviceIntermediate
      else if ('<' ≤ c && c ≤ '?') || isFinal c then string
      else deviceParameter
    | deviceIntermediate => if isParameter c || isFinal c then string else deviceIntermediate
    | string => if endsString c then ground else string
    | command => if c = '\x07' then ground else command

/-- The characters that are shown in a state. -/
def shows : ControlState → Char → Bool
  | ground, c => isLayout c || (' ' ≤ c && c != '\x7f')
  | escape, c | intermediate, c | controlSequence, c => isLayout c
  | _, _ => false

/-- What is shown in some state is shown outside of any sequence. -/
theorem ground_shows_of_shows {s : ControlState} {c : Char} (h : s.shows c) : ground.shows c := by
  cases s <;> simp_all [shows]

/-- The characters of a text that are shown.  The first state is that of the sequence, the second
one says what is shown: it is the same state, or `ground` while the sequence is interrupted. -/
def strip (s here : ControlState) : List Char → List Char
  | [] => []
  | c :: cs =>
    if here.shows c then c :: strip (if c.toNat < 128 then s else ground) ground cs
    else strip (s.after c) (s.after c) cs

/-- Stripping only leaves out. -/
theorem strip_sublist (s here : ControlState) (cs : List Char) :
    (s.strip here cs).Sublist cs := by
  induction cs generalizing s here with
  | nil => exact .slnil
  | cons c cs ih =>
    rw [strip]
    split
    · exact (ih _ _).cons_cons c
    · exact (ih _ _).cons c

/-- All that is left is shown outside of any sequence. -/
theorem shows_of_mem_strip (s here : ControlState) (cs : List Char) :
    ∀ c ∈ s.strip here cs, ground.shows c := by
  induction cs generalizing s here with
  | nil => simp [strip]
  | cons d cs ih =>
    rw [strip]
    split
    · rename_i h
      intro c hc
      rcases List.mem_cons.1 hc with rfl | hc
      · exact ground_shows_of_shows h
      · exact ih _ _ c hc
    · exact ih _ _

/-- Outside of a sequence a text stays as it is while all of it is shown there. -/
theorem strip_ground {cs : List Char} (h : ∀ c ∈ cs, ground.shows c) :
    ground.strip ground cs = cs := by
  induction cs with
  | nil => rfl
  | cons c cs ih =>
    have hc : ground.shows c := h c List.mem_cons_self
    have hcs := ih fun d hd => h d (List.mem_cons_of_mem c hd)
    simp [strip, hc, hcs]

end ControlState

/-! ## Texts -/

/-- The characters of a text that are shown. -/
def strip (cs : List Char) : List Char :=
  ControlState.ground.strip .ground cs

/-- The text without its control sequences. -/
def stripped (s : String) : String :=
  String.ofList (strip s.toList)

/-- Stripping only leaves out. -/
theorem strip_sublist (cs : List Char) : (strip cs).Sublist cs :=
  ControlState.strip_sublist _ _ cs

/-- No sequence is left. -/
theorem escape_not_mem_strip (cs : List Char) : '\x1b' ∉ strip cs :=
  fun h => Bool.noConfusion (ControlState.shows_of_mem_strip _ _ cs _ h)

/-- A text stays as it is if all of it is shown. -/
theorem strip_eq_self {cs : List Char} (h : ∀ c ∈ cs, ControlState.ground.shows c) :
    strip cs = cs :=
  ControlState.strip_ground h

/-- A stripped text needs no stripping. -/
theorem strip_strip (cs : List Char) : strip (strip cs) = strip cs :=
  strip_eq_self (ControlState.shows_of_mem_strip _ _ cs)

/-! ## Examples -/

example : strip "a\x1b[31mb".toList = "ab".toList := by decide

/-- The line break is shown, and so is all that comes after it: nothing there resumes the
sequence. -/
example : strip "a\x1b[31\nmb".toList = "a\nmb".toList := by decide

/-- The bell resumes the sequence, which ends at the next letter. -/
example : strip "a\x1b[31\nm\x07bc".toList = "a\nmc".toList := by decide

end Tablica.Text
