import Tablica.CommandLine.Invocation
import Tablica.Proofs.Execution.Consoles
import Tablica.Proofs.Execution.Soundness
import Tablica.Proofs.Source.Edits
import Tablica.Proofs.Syntax.Rendering

/-!
# What comes out is what was computed

A program that is started from the command line talks to the two standard streams.  Run on a
transcript instead, which is handed the lines of the input one by one and keeps prompts and written
texts apart, it does the same, and what comes out on the terminal can be put together from what the
transcript has kept:

    written                 a  b  c  d
    prompts, and where            ↑x: 2    ↑y: 4
    output                  a  b  x:  c  d  y:

The output of a terminal is buffered and its input is a stream of bytes, so three things have to be
seen: nothing is lost or reordered by holding texts back, the bytes of a line are cut off where its
characters end, and the place of a prompt is the length of what was written before it.

* `Terminal.encoded`, `FileFault.decode_eq_ok_iff` — the bytes of a text;
* `Terminal.typedLines`, `Terminal.splitLine_encoded` — the lines of an input;
* `Transcript.shown` — the prompts put back into the written text;
* `Transcript.Mirrors`, `Transcript.mirrors_alike` — a transcript and a terminal answer alike;
* `invocations_show_the_run` — the outcome of an invocation.
-/

namespace Tablica

/-! ### Bytes -/

namespace Terminal

/-- The bytes of characters. -/
def encoded (cs : List Char) : List UInt8 :=
  cs.flatMap String.utf8EncodeChar

theorem encoded_append (cs cs' : List Char) : encoded (cs ++ cs') = encoded cs ++ encoded cs' :=
  List.flatMap_append

/-- Nothing but a line feed is encoded with the byte of a line feed. -/
theorem feed_mem_utf8EncodeChar {c : Char} (h : (10 : UInt8) ∈ String.utf8EncodeChar c) :
    c = '\n' := by
  have hbyte : ∀ {n : Nat}, (10 : UInt8) = UInt8.ofNat n → n % 256 = 10 := by
    intro n hn
    have hmod := congrArg UInt8.toNat hn
    rw [UInt8.toNat_ofNat'] at hmod
    exact hmod.symm
  unfold String.utf8EncodeChar at h
  simp only at h
  split at h
  · have hcode := hbyte (List.mem_singleton.mp h)
    exact Char.toNat_inj.mp (show c.val.toNat = 10 by omega)
  -- the bytes of all other characters are at least 128
  all_goals
    exfalso
    repeat' split at h
    all_goals
      simp only [List.mem_cons, List.not_mem_nil, or_false] at h
      repeat' rcases h with h | h
      all_goals
        have hcode := hbyte h
        omega

theorem feed_not_mem_encoded {cs : List Char} (h : '\n' ∉ cs) : (10 : UInt8) ∉ encoded cs := by
  intro hmem
  obtain ⟨c, hc, hbyte⟩ := List.mem_flatMap.mp hmem
  exact h (feed_mem_utf8EncodeChar hbyte ▸ hc)

end Terminal

/-- Bytes are a text exactly if they are the bytes of its characters. -/
theorem FileFault.decode_eq_ok_iff {bytes : List UInt8} {text : String} :
    decode bytes = .ok text ↔ bytes = Terminal.encoded text.toList := by
  have hbytes : text.toByteArray = ⟨(Terminal.encoded text.toList).toArray⟩ := by
    apply ByteArray.ext
    conv => lhs; rw [← String.ofList_toList (s := text)]
    exact List.data_toByteArray
  unfold decode String.fromUTF8?
  constructor
  · intro h
    split at h
    · rename_i found hfound
      cases h
      split at hfound
      · cases hfound
        have hsame : (⟨bytes.toArray⟩ : ByteArray) = ⟨(Terminal.encoded _).toArray⟩ := hbytes
        exact List.toArray_inj (congrArg ByteArray.data hsame)
      · cases hfound
    · cases h
  · rintro rfl
    rw [← hbytes, dif_pos text.isValidUTF8]
    rfl

/-! ### Lines of the input -/

namespace Terminal

/-- The lines of an input, without the line feeds and carriage returns at their ends. -/
def typedLines (input : List Char) : List String :=
  (Source.splitAtLineFeeds input).map fun line => withoutEnding (String.ofList line)

/-- The line feed is a part of the ending. -/
theorem withoutEnding_feed (line : List Char) :
    withoutEnding (String.ofList (line ++ ['\n'])) = withoutEnding (String.ofList line) := by
  simp [withoutEnding]

theorem span_ne_feed {line rest : List UInt8} (hline : (10 : UInt8) ∉ line)
    (hrest : ∀ b ∈ rest.head?, b = 10) : (line ++ rest).span (· ≠ 10) = (line, rest) := by
  have hbytes : ∀ b ∈ line, decide (b ≠ 10) = true := fun b hb =>
    decide_eq_true fun heq => hline (heq ▸ hb)
  have hfeed : ∀ b ∈ rest.head?, decide (b ≠ 10) = false := fun b hb =>
    decide_eq_false (not_not_intro (hrest b hb))
  rw [List.span_eq_takeWhile_dropWhile, Text.takeWhile_append_eq hbytes hfeed,
    Text.dropWhile_append_eq hbytes hfeed]

/-- The lines that are left of an input.  When all of it is read there need not be any. -/
def AreLeft (lines : List String) (input : List Char) : Prop :=
  lines = typedLines input ∨ input = [] ∧ lines = []

/-- **The first line of an input**, in bytes and in characters: there is a line feed behind it, or
it is the last one. -/
theorem splitLine_encoded {lines : List String} {input : List Char} (h : AreLeft lines input) :
    ∃ line rest, splitLine (encoded input) = (encoded line, encoded rest)
      ∧ withoutEnding (String.ofList line) = lines.head?.getD "" ∧ AreLeft lines.tail rest := by
  by_cases hfeed : '\n' ∈ input
  · obtain ⟨line, rest, rfl, hline⟩ := List.eq_append_cons_of_mem hfeed
    have hlines : lines = withoutEnding (String.ofList line) :: typedLines rest := by
      rcases h with rfl | ⟨hnone, -⟩
      · rw [typedLines, Source.splitAtLineFeeds_append, List.map_append,
          IsOneLine.splitAtLineFeeds hline]
        rfl
      · exact absurd hnone (by simp)
    have hbytes : encoded (line ++ '\n' :: rest) = encoded line ++ 10 :: encoded rest :=
      encoded_append _ _
    refine ⟨line ++ ['\n'], rest, ?_, ?_, .inl (by rw [hlines]; rfl)⟩
    · rw [splitLine, hbytes, span_ne_feed (feed_not_mem_encoded hline) (by simp), encoded_append]
      rfl
    · rw [withoutEnding_feed, hlines]
      rfl
  · have hnone : ∀ b ∈ ([] : List UInt8).head?, b = 10 := nofun
    have hspan := span_ne_feed (feed_not_mem_encoded hfeed) hnone
    rw [List.append_nil] at hspan
    refine ⟨input, [], ?_, ?_, .inr ⟨rfl, ?_⟩⟩
    · rw [splitLine, hspan]
      rfl
    all_goals
      rcases h with rfl | ⟨rfl, rfl⟩
      · rw [typedLines, IsOneLine.splitAtLineFeeds hfeed]
        rfl
      · rfl

/-- **The line that is read** is the first one that is left. -/
theorem readLine_encoded {t : Terminal} {lines : List String} {input : List Char}
    (hcomplete : t.isComplete = true) (hinput : t.input = encoded input)
    (h : AreLeft lines input) :
    ∃ rest, t.readLine = (.ok (lines.head?.getD ""), { t with input := encoded rest })
      ∧ AreLeft lines.tail rest := by
  obtain ⟨line, rest, hsplit, hline, hrest⟩ := splitLine_encoded h
  have hdecode : FileFault.decode (encoded line) = .ok (String.ofList line) :=
    FileFault.decode_eq_ok_iff.mpr (by rw [String.toList_ofList])
  refine ⟨rest, ?_, hrest⟩
  simp [readLine, hcomplete, hinput, hsplit, hdecode, hline]

/-- A prompt comes out before the line is read. -/
theorem ask_of_accepting (prompt : String) {t : Terminal} (h : t.refusal = none) :
    ∃ t', Accepted t prompt (.ok (), t') ∧ Console.readLine prompt t = t'.readLine := by
  have hwrite := t.write_of_accepting prompt h
  simp only [Console.readLine]
  generalize t.write prompt = r at hwrite ⊢
  obtain ⟨answer, t₁⟩ := r
  obtain ⟨ok, refusal, output, input, complete⟩ := hwrite
  obtain rfl : answer = .ok () := ok
  have hpass := t₁.pass_of_accepting "" refusal
  dsimp only
  generalize t₁.pass "" = r at hpass ⊢
  obtain ⟨answer, t₂⟩ := r
  obtain ⟨ok', refusal', output', input', complete'⟩ := hpass
  obtain rfl : answer = .ok () := ok'
  rw [String.append_empty] at output'
  exact ⟨t₂, ⟨rfl, refusal', output'.trans output, input'.trans input,
    complete'.trans complete⟩, rfl⟩

end Terminal

/-! ### Transcripts -/

namespace Transcript

variable {c : Transcript}

/-- A transcript that is handed the lines of an input. -/
def typing (input : String) : Transcript where
  input := Terminal.typedLines input.toList

/-- Puts prompts back at their places, the last one first. -/
def insertPrompts (prompts : List (String × Nat)) (cs : List Char) : List Char :=
  prompts.foldl (fun cs prompt =>
    cs.take prompt.2 ++ prompt.1.toList ++ cs.drop prompt.2) cs

/-- The written text with each prompt at the place where it was shown. -/
def shown (c : Transcript) : String :=
  String.ofList (insertPrompts c.prompts c.output.toList)

/-- What follows all prompts stays behind them. -/
theorem insertPrompts_append {prompts : List (String × Nat)} {cs : List Char}
    (h : ∀ prompt ∈ prompts, prompt.2 ≤ cs.length) (text : List Char) :
    insertPrompts prompts (cs ++ text) = insertPrompts prompts cs ++ text := by
  induction prompts generalizing cs with
  | nil => rfl
  | cons prompt prompts ih =>
    obtain ⟨hplace, hplaces⟩ := List.forall_mem_cons.mp h
    have hfirst : (cs ++ text).take prompt.2 ++ prompt.1.toList ++ (cs ++ text).drop prompt.2
        = cs.take prompt.2 ++ prompt.1.toList ++ cs.drop prompt.2 ++ text := by
      rw [List.take_append_of_le_length hplace, List.drop_append_of_le_length hplace,
        List.append_assoc _ _ text]
    rw [insertPrompts, List.foldl_cons, hfirst]
    refine ih fun prompt' hmem => Nat.le_trans (hplaces prompt' hmem) ?_
    simp only [List.length_append, List.length_take, List.length_drop]
    omega

theorem output_write (c : Transcript) (text : String) :
    output { c with chunks := text :: c.chunks, length := c.length + text.length }
      = c.output ++ text := by
  have hfold : ∀ (chunks : List String) (later : String),
      chunks.foldl (fun later chunk => chunk ++ later) later
        = chunks.foldl (fun later chunk => chunk ++ later) "" ++ later := by
    intro chunks
    induction chunks with
    | nil => exact fun later => String.empty_append.symm
    | cons chunk chunks ih =>
      intro later
      rw [List.foldl_cons, List.foldl_cons, ih, ih (chunk ++ ""), String.append_assoc,
        String.append_empty]
  rw [output, List.foldl_cons, hfold, String.append_empty]
  rfl

/-- A transcript that refuses nothing and whose prompts have their places in the written text. -/
structure IsPlaced (c : Transcript) : Prop where
  refusal : c.refusal = none
  length : c.length = c.output.toList.length
  places : ∀ prompt ∈ c.prompts, prompt.2 ≤ c.length

theorem IsPlaced.places_le (h : c.IsPlaced) :
    ∀ prompt ∈ c.prompts, prompt.2 ≤ c.output.toList.length := fun prompt hmem =>
  h.length ▸ h.places prompt hmem

/-- **A text** comes out behind everything else. -/
theorem IsPlaced.write (h : c.IsPlaced) (text : String) :
    (Console.write text c).1 = .ok () ∧ (Console.write text c).2.IsPlaced
      ∧ (Console.write text c).2.shown = c.shown ++ text
      ∧ (Console.write text c).2.input = c.input := by
  have hwrite : Console.write text c
      = (.ok (), { c with chunks := text :: c.chunks, length := c.length + text.length }) := by
    simp [Console.write, h.refusal]
  rw [hwrite]
  refine ⟨rfl, ⟨h.refusal, ?_, fun prompt hmem => ?_⟩, ?_, rfl⟩
  · rw [output_write, String.toList_append, List.length_append, ← h.length, String.length_toList]
  · exact Nat.le_add_right_of_le (h.places prompt hmem)
  · rw [shown, output_write, String.toList_append, insertPrompts_append h.places_le,
      String.ofList_append, String.ofList_toList]
    rfl

/-- **A prompt** comes out behind everything written so far. -/
theorem IsPlaced.readLine (h : c.IsPlaced) (prompt : String) :
    (Console.readLine prompt c).1 = .ok (c.input.head?.getD "")
      ∧ (Console.readLine prompt c).2.IsPlaced
      ∧ (Console.readLine prompt c).2.shown = c.shown ++ prompt
      ∧ (Console.readLine prompt c).2.input = c.input.tail := by
  have hread : Console.readLine prompt c = (.ok (c.input.head?.getD ""),
      { c with input := c.input.tail, prompts := (prompt, c.length) :: c.prompts }) := by
    simp [Console.readLine, h.refusal]
  rw [hread]
  refine ⟨rfl, ⟨h.refusal, h.length, ?_⟩, ?_, rfl⟩
  · exact List.forall_mem_cons.mpr ⟨Nat.le_refl _, h.places⟩
  · have hlast : c.output.toList.take c.length ++ prompt.toList ++ c.output.toList.drop c.length
        = c.output.toList ++ prompt.toList := by
      rw [h.length, List.take_length, List.drop_length, List.append_nil]
    rw [shown]
    change String.ofList (insertPrompts c.prompts
      (c.output.toList.take c.length ++ prompt.toList ++ c.output.toList.drop c.length)) = _
    rw [hlast, insertPrompts_append h.places_le, String.ofList_append, String.ofList_toList]
    rfl

/-- A transcript that shows what comes out on a terminal, and has lines of the same input left. -/
structure Mirrors (c : Transcript) (t : Terminal) : Prop where
  isPlaced : c.IsPlaced
  refusal : t.refusal = none
  isComplete : t.isComplete = true
  output : t.output = c.shown
  input : ∃ rest, t.input = Terminal.encoded rest ∧ Terminal.AreLeft c.input rest

theorem mirrors_typing (input : String) :
    Mirrors (typing input) { input := Terminal.encoded input.toList } where
  isPlaced := ⟨rfl, rfl, nofun⟩
  refusal := rfl
  isComplete := rfl
  output := rfl
  input := ⟨input.toList, rfl, .inl rfl⟩

variable {t : Terminal}

/-- A text that both take in leaves them so. -/
theorem Mirrors.accepted (h : c.Mirrors t) {c' : Transcript} {text : String}
    {r : Except String Unit × Terminal} (hplaced : c'.IsPlaced)
    (hshown : c'.shown = c.shown ++ text) (hinput : c'.input = c.input)
    (hr : Terminal.Accepted t text r) : c'.Mirrors r.2 where
  isPlaced := hplaced
  refusal := hr.refusal
  isComplete := hr.isComplete.trans h.isComplete
  output := by rw [hr.output, h.output, hshown]
  input := by
    rw [hr.input, hinput]
    exact h.input

/-- **A transcript and a terminal answer alike.** -/
theorem mirrors_alike : Console.Alike Mirrors where
  readLine := by
    intro c t h prompt
    obtain ⟨hanswer, hplaced, hshown, hleft⟩ := h.isPlaced.readLine prompt
    obtain ⟨t', haccepted, hread⟩ := Terminal.ask_of_accepting prompt h.refusal
    obtain ⟨rest, hinput, hlines⟩ := h.input
    obtain ⟨rest', hline, hlines'⟩ := Terminal.readLine_encoded
      (haccepted.isComplete.trans h.isComplete) (haccepted.input.trans hinput) hlines
    rw [hread, hline]
    exact ⟨hanswer.symm, hplaced, haccepted.refusal, haccepted.isComplete.trans h.isComplete,
      by rw [hshown, ← h.output]; exact haccepted.output, rest', rfl, by rw [hleft]; exact hlines'⟩
  write := by
    intro c t h text
    obtain ⟨hanswer, hplaced, hshown, hinput⟩ := h.isPlaced.write text
    have haccepted := t.write_of_accepting text h.refusal
    exact ⟨haccepted.ok.trans hanswer.symm, h.accepted hplaced hshown hinput haccepted⟩
  flush := by
    intro c t h
    have hflush : Console.flush c = (.ok (), c) := by simp [Console.flush, h.isPlaced.refusal]
    have haccepted := t.pass_of_accepting "" h.refusal
    rw [hflush]
    exact ⟨haccepted.ok, h.accepted h.isPlaced String.append_empty.symm rfl haccepted⟩

end Transcript

/-! ### Invocations -/

/-- On a terminal a program does what it does on the transcript of its input. -/
theorem run_mirrors (nodes : List Node) (input : String) (fuel : Nat) :
    Verdict.Matches Transcript.Mirrors
      (run fuel nodes { console := Transcript.typing input })
      (run fuel nodes { console := { input := Terminal.encoded input.toList } }) :=
  run_matches Transcript.mirrors_alike (m := { console := Transcript.typing input })
    (Transcript.mirrors_typing input) fuel nodes

/-- A program that was read fails on a transcript only by an error of its own. -/
theorem run_typing_ne_internal {symbol : List Char} {text : String} {nodes : List Node}
    (hparse : Program.parse symbol text = .ok nodes) (input : String) (fuel : Nat)
    (fault : InternalFault) :
    (run fuel nodes { console := Transcript.typing input }).1 ≠ .failed (.internal fault) := by
  intro hfailed
  have hprogram : IsParsed nodes := ⟨symbol, text, hparse⟩
  have hfresh : Machine.IsSound (fun t => t.refusal = none) { console := Transcript.typing input } :=
    Machine.isSound_fresh rfl
  have hsound := run_isSound Transcript.reliable.refuses hfresh hprogram.isBlock fuel
  rw [hfailed] at hsound
  obtain ⟨_, -, hno⟩ := hsound
  exact hno

namespace Invocation

variable {i : Invocation}

/-- What a verdict that is no internal failure comes to. -/
theorem ofVerdict?_cases (i : Invocation) (file text : String) (t : Terminal) {verdict : Verdict}
    (h : ∀ fault, verdict ≠ .failed (.internal fault)) :
    if verdict = .unfinished then i.ofVerdict? file text t verdict = none
    else ∃ o, i.ofVerdict? file text t verdict = some o ∧ o.output = t.output
      ∧ o.code = (if verdict = .finished ∨ verdict = .exited then 0 else 1)
      ∧ o.report = none := by
  cases verdict with
  | finished => exact ⟨_, rfl, rfl, rfl, rfl⟩
  | exited => exact ⟨_, rfl, rfl, rfl, rfl⟩
  | unfinished => exact rfl
  | failed error =>
    cases error with
    | runtime error => exact ⟨_, rfl, rfl, rfl, rfl⟩
    | internal fault => exact absurd rfl (h fault)

/-- A program that is found, with a configuration that is valid or missing, is run. -/
theorem outcome?_eq {options : Options} {configuration : Configuration} {text : String}
    (harguments : Intent.ofArguments i.arguments = .run options)
    (hsettings : i.settings options.file = .ok configuration)
    (htext : i.readText options.file = .ok text) (fuel : Nat) :
    i.outcome? fuel = (i.runText? fuel (options.rangeSymbol.getD configuration.rangeSymbol)
      options.file text).map fun o =>
        { o with isVerbose := options.verbose || configuration.debug } := by
  simp only [outcome?, harguments, run?, hsettings, htext]

end Invocation

/-- **What comes out is what was computed.**  A program is started from the command line, with a
valid configuration or none; the input is a text and is complete, and the output accepts everything.
If the program cannot be read, nothing comes out and the code is 1.  Otherwise the invocation ends
if the run on the lines of the input does; what comes out is what the program has written there,
with the prompts at their places; and the code is 0 if the run is finished or exited, else 1.
No crash is reported. -/
theorem invocations_show_the_run {i : Invocation} {options : Options}
    {configuration : Configuration} {text input : String} {bytes : List UInt8}
    (harguments : Intent.ofArguments i.arguments = .run options)
    (hsettings : i.settings options.file = .ok configuration)
    (htext : i.readText options.file = .ok text) (hterminal : i.terminal = { input := bytes })
    (hinput : FileFault.decode bytes = .ok input) (fuel : Nat) :
    let symbol := (options.rangeSymbol.getD configuration.rangeSymbol).toList
    match Program.parse symbol text with
    | .error _ => ∃ o, i.outcome? fuel = some o ∧ o.output = "" ∧ o.code = 1 ∧ o.report = none
    | .ok nodes =>
      let (verdict, m) := run fuel nodes { console := Transcript.typing input }
      if verdict = .unfinished then i.outcome? fuel = none
      else ∃ o, i.outcome? fuel = some o ∧ o.output = m.console.shown
        ∧ o.code = (if verdict = .finished ∨ verdict = .exited then 0 else 1)
        ∧ o.report = none := by
  intro symbol
  rw [i.outcome?_eq harguments hsettings htext]
  have hread : Program.read symbol text
      = (Program.parse symbol text, (Program.read symbol text).2) := rfl
  unfold Invocation.runText?
  rw [hread]
  cases hparse : Program.parse symbol text with
  | error e => exact ⟨_, rfl, rfl, rfl, rfl⟩
  | ok nodes =>
    obtain ⟨t, hrun, hmirrors⟩ := run_mirrors nodes input fuel
    have hverdict :=
      i.ofVerdict?_cases options.file text t (run_typing_ne_internal hparse input fuel)
    dsimp only
    rw [hterminal, FileFault.decode_eq_ok_iff.mp hinput, hrun]
    generalize run fuel nodes { console := Transcript.typing input } = r at hmirrors hverdict ⊢
    obtain ⟨verdict, m⟩ := r
    dsimp only [Machine.onConsole] at hmirrors hverdict ⊢
    split
    · rename_i hunfinished
      rw [if_pos hunfinished] at hverdict
      rw [hverdict]
      rfl
    · rename_i hfinished
      rw [if_neg hfinished] at hverdict
      obtain ⟨o, ho, houtput, hcode, hreport⟩ := hverdict
      rw [ho]
      exact ⟨_, rfl, houtput.trans hmirrors.output, hcode, hreport⟩

/-- A program that asks for a name and greets, on an input with a carriage return, and with a range
symbol set. -/
theorem invocations_show_the_run_of_a_greeting :
    let i : Invocation := {
      arguments := ["--range-symbol", "..", "a.pdc"]
      terminal := { input := [65, 108, 97, 13, 10] }
      readText := fun path =>
        if path = "a.pdc" then .ok "pisz 1\nczytaj x\npisz x\n" else .error .notFound }
    ∃ o, i.outcome? 20 = some o ∧ o.output = "1x: Ala" ∧ o.code = 0 ∧ o.report = none := by
  intro i
  let text := "pisz 1\nczytaj x\npisz x\n"
  have harguments : Intent.ofArguments i.arguments = .run ⟨"a.pdc", some "..", false⟩ := by decide
  have hsettings : i.settings "a.pdc" = .ok {} := by decide
  have htext : i.readText "a.pdc" = .ok text := rfl
  have hinput : FileFault.decode [65, 108, 97, 13, 10] = .ok "Ala\r\n" := by
    rw [FileFault.decode_eq_ok_iff]
    decide
  have hshown := invocations_show_the_run harguments hsettings htext rfl hinput 20
  have hcomputed : (match Program.parse "..".toList text with
      | .error _ => none
      | .ok nodes =>
        let (verdict, m) := run 20 nodes { console := Transcript.typing "Ala\r\n" }
        some (verdict, m.console.shown)) = some (.finished, "1x: Ala") := by decide +kernel
  cases hparse : Program.parse "..".toList text with
  | error e =>
    rw [hparse] at hcomputed
    cases hcomputed
  | ok nodes =>
    rw [hparse] at hcomputed
    dsimp only [Option.getD_some] at hshown
    rw [hparse] at hshown
    dsimp only at hcomputed hshown
    generalize run 20 nodes { console := Transcript.typing "Ala\r\n" } = r at hcomputed hshown
    obtain ⟨verdict, m⟩ := r
    obtain ⟨rfl, houtput⟩ := Prod.mk.inj (Option.some.inj hcomputed)
    rw [← houtput]
    exact hshown

end Tablica
