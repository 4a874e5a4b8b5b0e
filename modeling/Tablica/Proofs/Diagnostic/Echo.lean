import Tablica.Diagnostic
import Tablica.Proofs.Execution.Lines
import Tablica.Proofs.Source.Edits
import Tablica.Proofs.Syntax.Equality

/-!
# The line that a diagnostic echoes

Two ways to split a text into lines meet here.  A program is read from the one, so an error holds a
line of it; a diagnostic lists its lines by the other.  Both cut at the line feeds and drop a
carriage return before one.  They part at the end of the text, in two respects:

    text        lines read     lines listed
    a ⏎ b ⏎     a, b, (empty)  a, b
    a ⏎ b ␍     a, b           a, b ␍

The missing line is empty, and an empty line is what is listed for a line that is missing.  But the
carriage return at the very end of a text is dropped by the one and kept by the other.

* `Source.strayReturn` — the carriage return that is listed with a line and not read with it;
* `Source.getD_listedLines` — the listed line of a number;
* `Diagnostic.above`, `Diagnostic.primary`, `Diagnostic.below` — the parts of a diagnostic;
* `Diagnostic.Echoes` — that a diagnostic shows a line;
* `errors_are_shown_with_their_line` — diagnostics show the lines of their errors;
* `last_line_is_shown_with_its_return` — where they show more.
-/

namespace Tablica

/-! ### The two ways to split a text -/

namespace Source

/-- What is listed with the line of the given number and not read with it: a carriage return at the
very end of the text, on the last line. -/
def strayReturn (text : String) (number : Nat) : List Char :=
  if number = (lines text).length ∧ text.toList.getLast? = some '\r' then ['\r'] else []

/-- **The listed line of a number** is the line that is read, and on the last line the carriage
return at the end of the text. -/
theorem getD_listedLines (text : String) (i : Nat) :
    ((listedLines text)[i]?).getD [] = ((lines text)[i]?).getD [] ++ strayReturn text (i + 1) := by
  obtain ⟨pieces, last, before, hsplit, -, htext, hbefore⟩ := exists_last_piece text.toList
  have hreturn : text.toList.getLast? = some '\r' ↔ last.getLast? = some '\r' := by
    rw [htext, List.getLast?_append]
    cases last.getLast? with
    | some c => rfl
    | none => rcases hbefore with ⟨-, rfl⟩ | ⟨-, hfeed⟩ <;> simp [*]
  have hlisted : listedLines text
      = pieces.map dropReturn ++ (Option.filter (· ≠ []) (some last)).toList := by
    simp only [listedLines, hsplit, List.dropLast_concat, List.getLast?_concat]
  have hread : lines text = pieces.map dropReturn ++ [dropReturn last] := by
    rw [lines, hsplit, List.map_append, List.map_singleton]
  have hlength : (lines text).length = pieces.length + 1 := by rw [hread]; simp
  simp only [strayReturn, hlength, hreturn]
  rw [hlisted, hread]
  rcases Nat.lt_trichotomy i pieces.length with hi | rfl | hi
  · rw [if_neg (by omega), List.append_nil, List.getElem?_append_left (by simpa using hi),
      List.getElem?_append_left (by simpa using hi)]
  · have hkept : (Option.filter (· ≠ []) (some last)).toList[0]?.getD [] = last := by
      cases last <;> rfl
    rw [List.getElem?_append_right (by simp), List.getElem?_append_right (by simp),
      List.length_map, Nat.sub_self, hkept, List.getElem?_cons_zero, Option.getD_some, dropReturn]
    by_cases hlast : last.getLast? = some '\r'
    · obtain ⟨kept, rfl⟩ := List.getLast?_eq_some_iff.mp hlast
      simp
    · simp [hlast]
  · have hone : (Option.filter (· ≠ []) (some last)).toList.length ≤ 1 := by
      cases last <;> simp
    rw [if_neg (by omega), List.append_nil, List.getElem?_eq_none, List.getElem?_eq_none]
    · rw [List.length_append, List.length_map, List.length_singleton]
      omega
    · rw [List.length_append, List.length_map]
      omega

/-- How a line of a text is listed. -/
theorem HasLine.getD_listedLines {text : String} {line : SourceLine}
    (h : HasLine (lines text) line) :
    ((listedLines text)[line.number - 1]?).getD []
      = line.text.toList ++ strayReturn text line.number := by
  rw [Source.getD_listedLines, h.text, Option.getD_some, Nat.sub_add_cancel h.number]

end Source

/-! ### The parts of a diagnostic -/

namespace Diagnostic

/-- What is shown above the line in question. -/
def above (d : Diagnostic) (text : String) : StyledText :=
  let index := d.position.line - 1
  headline d.message ++ .plain "\n"
    ++ neighbour d.position.line (if index = 0 then none else (Source.listedLines text)[index - 1]?)

/-- The line in question as it is shown. -/
def primary (d : Diagnostic) (text : String) : List Char :=
  widen (((Source.listedLines text)[d.position.line - 1]?).getD [])

/-- What is shown below the line in question. -/
def below (d : Diagnostic) (file text : String) : StyledText :=
  let index := d.position.line - 1
  d.indicator (((Source.listedLines text)[index]?).getD [])
    ++ neighbour d.position.line (Source.listedLines text)[index + 1]?
    ++ .plain s!"\nIn {file}:{d.position.shown}\n\n"

/-- The line in question stands behind its number, between what is above and what is below it. -/
theorem shown_eq (d : Diagnostic) (file text : String) :
    d.shown file text = d.above text
      ++ (gutter d.position.line true ++ .plain (String.ofList (d.primary text) ++ "\n"))
      ++ d.below file text := by
  simp only [shown, above, primary, below, listed, List.append_assoc]

/-- A diagnostic for a text shows a line of it, together with a carriage return if one is left over
there. -/
structure Echoes (d : Diagnostic) (file text : String) (line : SourceLine) : Prop where
  shown : d.shown file text = d.above text
    ++ (gutter line.number true ++ .plain (String.ofList (d.primary text) ++ "\n"))
    ++ d.below file text
  primary : d.primary text = widen line.text.toList ++ Source.strayReturn text line.number

theorem widen_strayReturn (text : String) (number : Nat) :
    widen (Source.strayReturn text number) = Source.strayReturn text number := by
  unfold Source.strayReturn
  split <;> rfl

/-- A diagnostic shows the line at its position. -/
theorem echoes {d : Diagnostic} (file : String) {text : String} {line : SourceLine}
    (hline : Source.HasLine (Source.lines text) line) (hposition : d.position.line = line.number) :
    d.Echoes file text line := by
  refine ⟨by rw [shown_eq, hposition], ?_⟩
  rw [primary, hposition, hline.getD_listedLines, widen_append, widen_strayReturn]

end Diagnostic

/-! ### The diagnostics of a program -/

/-- **Errors are shown with their line.**  The diagnostic of an error of reading, and of every error
with which a run ends, shows the line that the error holds, widened.  It shows nothing else there,
but for a carriage return that ends the whole text, if the line is the last one. -/
theorem errors_are_shown_with_their_line {σ : Type} [Console σ] (symbol : List Char)
    (file text : String) :
    (∀ e, Program.parse symbol text = .error e →
        (Diagnostic.ofSyntaxError e).Echoes file text e.source)
      ∧ ∀ nodes, Program.parse symbol text = .ok nodes →
        ∀ (console : σ) (fuel : Nat) (error : RuntimeError),
          (run fuel nodes { console }).1 = .failed (.runtime error) →
            (Diagnostic.ofRuntimeError error).Echoes file text error.line := by
  refine ⟨fun e he => ?_, fun nodes hnodes console fuel error herror => ?_⟩
  · obtain ⟨hposition, hsource⟩ := Program.hasPosition_of_parse he
    obtain ⟨cs, hcs, -⟩ := hposition.inside
    have hnumber : e.source.number = e.position.line := by rw [hsource]; rfl
    refine Diagnostic.echoes file ⟨hnumber ▸ hposition.line, ?_⟩ hnumber.symm
    rw [hnumber, hsource, Source.lineAt, hcs, Option.getD_some, String.toList_ofList]
  · have hline := (run_holdsLines (Program.hasLine_of_parse hnodes) console fuel).1 error herror
    exact Diagnostic.echoes file hline rfl

/-- A block that does not come, on the line after the last line feed, and a value that cannot be
subtracted, on a line with tabs. -/
theorem errors_are_shown_with_their_line_between_returns :
    let faulty := "dopóki x wykonuj\r\n"
    let failing := "x := 1\r\npisz\tx\t- 'a'\r\n"
    (∃ e, Program.parse Token.defaultRange faulty = .error e ∧ e.position = ⟨2, 1⟩
        ∧ (Diagnostic.ofSyntaxError e).Echoes "p" faulty e.source
        ∧ (Diagnostic.ofSyntaxError e).primary faulty = [])
      ∧ ∃ nodes error, Program.parse Token.defaultRange failing = .ok nodes
        ∧ (run 10 nodes ({ console := {} } : Machine Transcript)).1 = .failed (.runtime error)
        ∧ (Diagnostic.ofRuntimeError error).Echoes "p" failing error.line
        ∧ (Diagnostic.ofRuntimeError error).primary failing = "pisz    x    - 'a'".toList := by
  intro faulty failing
  constructor
  · let e : SyntaxError := ⟨.emptyBlock, ⟨2, 1⟩, ⟨2, ""⟩⟩
    have hparse : Program.parse Token.defaultRange faulty = .error e := by decide +kernel
    have hshown :=
      errors_are_shown_with_their_line (σ := Transcript) Token.defaultRange "p" faulty
    exact ⟨e, hparse, rfl, hshown.1 e hparse, by decide +kernel⟩
  · let error : RuntimeError := ⟨.typeMismatch .subtract .number .text, ⟨2, "pisz\tx\t- 'a'"⟩⟩
    have hcomputed : (Program.parse Token.defaultRange failing).toOption.map
        (fun nodes => (run 10 nodes ({ console := {} } : Machine Transcript)).1)
          = some (.failed (.runtime error)) := by decide +kernel
    cases hparse : Program.parse Token.defaultRange failing with
    | error e =>
      rw [hparse] at hcomputed
      cases hcomputed
    | ok nodes =>
      rw [hparse] at hcomputed
      have hverdict := Option.some.inj hcomputed
      have hshown :=
        errors_are_shown_with_their_line (σ := Transcript) Token.defaultRange "p" failing
      exact ⟨nodes, error, rfl, hverdict, hshown.2 nodes hparse {} 10 error hverdict,
        by decide +kernel⟩

/-- Where a text ends with a carriage return, its last line is shown with it, although the line of
the error does not hold it. -/
theorem last_line_is_shown_with_its_return :
    ∃ e, Program.parse Token.defaultRange "pisz 1 ? 2\r" = .error e
      ∧ (Diagnostic.ofSyntaxError e).primary "pisz 1 ? 2\r" = "pisz 1 ? 2\r".toList
      ∧ (Diagnostic.ofSyntaxError e).primary "pisz 1 ? 2\r"
        ≠ Diagnostic.widen e.source.text.toList := by
  let e : SyntaxError := ⟨.invalidCharacter '?', ⟨1, 8⟩, ⟨1, "pisz 1 ? 2"⟩⟩
  refine ⟨e, ?_, ?_, ?_⟩ <;> decide +kernel

end Tablica
