/-!
# Consoles

A program talks to a **console**: it asks for a line, showing a prompt, it writes, and
at the end it has everything written shown.  Each of the three may be refused, for a
reason that the console gives.

* `Console` — what a type has to offer to serve as a console;
* `Transcript` — a console that answers from a list of lines and keeps what it is told;
* `Console.Reliable` — that a console never refuses;
* `Transcript.reliable` — a transcript without a refusal does not.
-/

namespace Tablica

/-- A type whose values serve as consoles.  Every operation answers a result or the reason for a
refusal, and the console afterwards. -/
class Console (σ : Type) where
  /-- Shows a prompt and reads one line, without its line ending. -/
  readLine : String → σ → Except String String × σ
  /-- Writes a text. -/
  write : String → σ → Except String Unit × σ
  /-- Has everything written shown. -/
  flush : σ → Except String Unit × σ

/-- A console whose state satisfies an invariant under which nothing is refused. -/
structure Console.Reliable (σ : Type) [Console σ] (inv : σ → Prop) : Prop where
  readLine : ∀ prompt c, inv c →
    (∃ line, (Console.readLine prompt c).1 = .ok line) ∧ inv (Console.readLine prompt c).2
  write : ∀ text c, inv c →
    (Console.write text c).1 = .ok () ∧ inv (Console.write text c).2
  flush : ∀ c : σ, inv c → (Console.flush c).1 = .ok () ∧ inv (Console.flush c).2

namespace Transcript

/-- The operations that a transcript can refuse. -/
inductive Refusal
  | read | write | flush
deriving DecidableEq, Repr, Inhabited

/-- The reason given for a refusal. -/
def Refusal.reason : Refusal → String
  | read => "read refused"
  | write => "write refused"
  | flush => "flush refused"

end Transcript

/-- A console that takes its lines from a list, empty ones when the list is used up, and keeps
what it was told: the written texts, the last one first, and each prompt with the number of
characters written before it, the last one first. -/
structure Transcript where
  input : List String := []
  refusal : Option Transcript.Refusal := none
  chunks : List String := []
  length : Nat := 0
  prompts : List (String × Nat) := []
deriving Repr, Inhabited

namespace Transcript

/-- Everything written. -/
def output (t : Transcript) : String :=
  t.chunks.foldl (fun later chunk => chunk ++ later) ""

instance : Console Transcript where
  readLine prompt t :=
    if t.refusal = some .read then (.error (Refusal.reason .read), t)
    else
      (.ok (t.input.head?.getD ""),
        { t with input := t.input.tail, prompts := (prompt, t.length) :: t.prompts })
  write text t :=
    if t.refusal = some .write then (.error (Refusal.reason .write), t)
    else (.ok (), { t with chunks := text :: t.chunks, length := t.length + text.length })
  flush t :=
    if t.refusal = some .flush then (.error (Refusal.reason .flush), t) else (.ok (), t)

/-- A transcript that is told to refuse nothing refuses nothing. -/
theorem reliable : Console.Reliable Transcript fun t => t.refusal = none where
  readLine prompt t h := by simp [Console.readLine, h]
  write text t h := by simp [Console.write, h]
  flush t h := by simp [Console.flush, h]

end Transcript

end Tablica
