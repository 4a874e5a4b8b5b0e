import Tablica.CommandLine.Files
import Tablica.Execution.Console

/-!
# The terminal

The console of a program that is started from the command line reads the standard input
and writes to the standard output.

The output is passed on line by line: what follows the last line feed is held back, up
to a fixed number of bytes, until it is asked for, or until more is written than fits,
or until the run is over.  So an output that accepts nothing refuses a write only once
something has to be passed on.  A prompt is passed on at once.

The input is read line by line.  A line must be text; the line feed and the carriage
returns at its end are not part of it.  At the end of the input every line is empty.

* `Terminal` — both streams, with what has been passed on and what is held back;
* `Terminal.output` — everything that comes out in the end;
* `Terminal.write_of_accepting` — an output that accepts everything refuses no write, and
  a text written comes out after everything written before.
-/

namespace Tablica

/-- The two standard streams.  Texts passed on and texts held back are listed with the last one
first.  An input that is not complete may go on after its last byte; a terminal that would have to
know how has run out of input. -/
structure Terminal where
  input : List UInt8 := []
  isComplete : Bool := true
  hasRunOut : Bool := false
  refusal : Option String := none
  passed : List String := []
  held : List String := []
  heldSize : Nat := 0
deriving Repr, Inhabited

namespace Terminal

/-- The number of bytes that can be held back. -/
def capacity : Nat := 1024

/-- The reason of an output on a device that is full. -/
def deviceFull : String := "No space left on device (os error 28)"

/-! ## Output -/

/-- Passes a text on, after everything held back, unless both are empty. -/
def pass (text : String) (t : Terminal) : Except String Unit × Terminal :=
  if t.heldSize = 0 && text.isEmpty then (.ok (), t)
  else
    match t.refusal with
    | some reason => (.error reason, t)
    | none => (.ok (), { t with passed := text :: (t.held ++ t.passed), held := [], heldSize := 0 })

/-- Holds a text without a line feed back, if it fits. -/
def hold (text : String) (t : Terminal) : Except String Unit × Terminal :=
  let size := text.utf8ByteSize
  let held (t : Terminal) : Terminal :=
    { t with held := text :: t.held, heldSize := t.heldSize + size }
  if capacity ≤ size then t.pass text
  else if t.heldSize + size ≤ capacity then (.ok (), held t)
  else
    match t.pass "" with
    | (.ok (), t) => (.ok (), held t)
    | refused => refused

/-- A text in two parts: its lines that are complete, and the rest. -/
def splitAfterLines (text : String) : String × String :=
  let backwards := text.toList.reverse
  (String.ofList (backwards.dropWhile (· ≠ '\n')).reverse,
    String.ofList (backwards.takeWhile (· ≠ '\n')).reverse)

/-- Writes a text: complete lines are passed on and the rest is held back. -/
def write (text : String) (t : Terminal) : Except String Unit × Terminal :=
  if '\n' ∈ text.toList then
    let (lines, rest) := splitAfterLines text
    match t.pass lines with
    | (.ok (), t) => t.hold rest
    | refused => refused
  else t.hold text

/-- Everything that comes out, once what is held back is passed on at the end of the run. -/
def output (t : Terminal) : String :=
  let passed := match t.refusal with
    | some _ => t.passed
    | none => t.held ++ t.passed
  String.join passed.reverse

/-! ## Input -/

/-- The bytes of the first line with its line feed, and the other bytes. -/
def splitLine (input : List UInt8) : List UInt8 × List UInt8 :=
  match input.span (· ≠ 10) with
  | (line, feed :: rest) => (line ++ [feed], rest)
  | (line, []) => (line, [])

/-- A line without its ending. -/
def withoutEnding (line : String) : String :=
  String.ofList
    (line.toList.reverse.dropWhile fun c => c = '\n' || c = '\r').reverse

/-- Reads a line. -/
def readLine (t : Terminal) : Except String String × Terminal :=
  let (line, rest) := splitLine t.input
  if !t.isComplete && line.getLast? ≠ some 10 then
    (.error "more input is needed", { t with hasRunOut := true })
  else
    match FileFault.decode line with
    | .ok text => (.ok (withoutEnding text), { t with input := rest })
    | .error fault => (.error fault.message, { t with input := rest })

instance : Console Terminal where
  readLine prompt t :=
    match t.write prompt with
    | (.ok (), t) =>
      match t.pass "" with
      | (.ok (), t) => t.readLine
      | (.error reason, t) => (.error reason, t)
    | (.error reason, t) => (.error reason, t)
  write := write
  flush t := t.pass ""

/-! ## An output that accepts everything -/

/-- Such a terminal has accepted a text if it has not refused it, accepts everything after it,
has its input as before, and the text comes out after everything written before. -/
structure Accepted (t : Terminal) (text : String) (r : Except String Unit × Terminal) : Prop where
  ok : r.1 = .ok ()
  refusal : r.2.refusal = none
  output : r.2.output = t.output ++ text
  input : r.2.input = t.input
  isComplete : r.2.isComplete = t.isComplete

theorem pass_of_accepting (text : String) (t : Terminal) (h : t.refusal = none) :
    Accepted t text (t.pass text) := by
  unfold pass
  split
  · next h0 =>
    simp only [Bool.and_eq_true, String.isEmpty_iff] at h0
    exact ⟨rfl, h, by simp [h0.2], rfl, rfl⟩
  · constructor <;> simp [h, output, String.join_append, String.append_assoc]

theorem hold_of_accepting (text : String) (t : Terminal) (h : t.refusal = none) :
    Accepted t text (t.hold text) := by
  unfold hold
  simp only
  split
  · exact pass_of_accepting text t h
  · split
    · constructor <;> simp [h, output, String.join_append, String.append_assoc]
    · obtain ⟨ok, refusal, out, input, complete⟩ := pass_of_accepting "" t h
      generalize t.pass "" = r at *
      obtain ⟨result, t'⟩ := r
      simp only at ok refusal out input complete
      subst ok
      constructor <;> simp_all [output, String.join_append, ← String.append_assoc]

theorem splitAfterLines_append (text : String) :
    (splitAfterLines text).1 ++ (splitAfterLines text).2 = text := by
  simp only [splitAfterLines]
  rw [← String.ofList_append, ← List.reverse_append, List.takeWhile_append_dropWhile,
    List.reverse_reverse, String.ofList_toList]

theorem write_of_accepting (text : String) (t : Terminal) (h : t.refusal = none) :
    Accepted t text (t.write text) := by
  unfold write
  split
  · have whole := splitAfterLines_append text
    generalize splitAfterLines text = parts at whole ⊢
    obtain ⟨lines, rest⟩ := parts
    have hp := pass_of_accepting lines t h
    simp only
    generalize t.pass lines = r at hp ⊢
    obtain ⟨result, t'⟩ := r
    obtain ⟨ok, refusal, out, input, complete⟩ := hp
    simp only at ok refusal out input complete
    subst ok
    have hh := hold_of_accepting rest t' refusal
    exact ⟨hh.ok, hh.refusal, by rw [hh.output, out, String.append_assoc, whole],
      hh.input.trans input, hh.isComplete.trans complete⟩
  · exact hold_of_accepting text t h

end Terminal

end Tablica
