import Tablica.Proofs.Execution.Marks
import Tablica.Proofs.Execution.Soundness
import Tablica.Proofs.Syntax.Composition

/-!
# One program after another

The program of one text after another runs as the first program and then, on the machine that it
leaves behind, the second one.

    { console } ──nodes──▸ m₀ ──nodes'──▸ …          the joined text
         │                 │ flushed
         └─────nodes─────▸ m ──nodes'──▸ …           both texts, one after another

A block that completes is followed by the rest, so up to `m₀` both are the same; and a program that
was read completes if it finishes.  Its run flushes the console, which the joined text does at its
very end only.  As long as a flush leaves the console as it is, the machines `m₀` and `m` differ in
their journals and in nothing else.

* `Console.FlushesInPlace` — the consoles that a flush leaves as they are;
* `RunsAs` — two programs, each on a machine, that run alike;
* `runsAs_append` — a program and then another one, as one program;
* `programs_compose` — texts one after another.
-/

namespace Tablica

variable {σ : Type} {f g : SourceLine → SourceLine} {nodes nodes' nodes'' : List Node}
  {m m' m'' : Machine σ}

/-- A console that is left as it is by a flush that is not refused. -/
def Console.FlushesInPlace (σ : Type) [Console σ] : Prop :=
  ∀ c : σ, (Console.flush c).1 = .ok () → (Console.flush c).2 = c

theorem Transcript.flushesInPlace : Console.FlushesInPlace Transcript := by
  intro t hflush
  by_cases hrefuses : t.refusal = some .flush
  · simp [Console.flush, hrefuses] at hflush
  · simp [Console.flush, hrefuses]

/-! ### Runs that are alike -/

/-- Two programs, each on a machine, that run alike: one of them ends if and only if the other one
does, and they end alike. -/
structure RunsAs [Console σ] (f : SourceLine → SourceLine) (nodes : List Node) (m : Machine σ)
    (nodes' : List Node) (m' : Machine σ) : Prop where
  follows (fuel : Nat) (h : (run fuel nodes m).1 ≠ .unfinished) :
    ∃ fuel', EndAlike f (run fuel nodes m) (run fuel' nodes' m')
  reflects (fuel' : Nat) (h : (run fuel' nodes' m').1 ≠ .unfinished) :
    ∃ fuel, EndAlike f (run fuel nodes m) (run fuel' nodes' m')

theorem Verdict.mapLines_eq_unfinished_iff {verdict : Verdict} :
    verdict.mapLines f = .unfinished ↔ verdict = .unfinished := by
  rcases verdict with _ | _ | ⟨_ | _⟩ | _ <;> simp [mapLines]

theorem EndAlike.trans {ended ended' ended'' : Verdict × Machine σ} (h : EndAlike f ended ended')
    (h' : EndAlike id ended' ended'') : EndAlike f ended ended'' where
  verdict := by rw [h'.verdict, Verdict.mapLines_id, h.verdict]
  console := h'.console.trans h.console
  memory := h'.memory.trans h.memory

theorem EndAlike.unfinished_iff {ended ended' : Verdict × Machine σ} (h : EndAlike f ended ended') :
    ended'.1 = .unfinished ↔ ended.1 = .unfinished := by
  rw [h.verdict, Verdict.mapLines_eq_unfinished_iff]

theorem Machine.mirrors_refl (m : Machine σ) : m.Mirrors id id m := by
  have hroutine : ∀ routine : Routine, routine.Mirrors id id routine := fun _ => ⟨rfl, rfl, rfl, rfl⟩
  refine ⟨rfl, rfl, fun name => ?_, List.forall₂_same.mpr fun frame _ => ⟨rfl, hroutine _⟩⟩
  cases m.routines[name]? with
  | none => exact .none
  | some routine => exact .some (hroutine routine)

section Runs

variable [Console σ]

theorem RunsAs.trans (h : RunsAs f nodes m nodes' m') (h' : RunsAs id nodes' m' nodes'' m'') :
    RunsAs f nodes m nodes'' m'' where
  follows fuel hended := by
    obtain ⟨fuel', halike⟩ := h.follows fuel hended
    obtain ⟨fuel'', halike'⟩ := h'.follows fuel' (mt halike.unfinished_iff.mp hended)
    exact ⟨fuel'', halike.trans halike'⟩
  reflects fuel'' hended := by
    obtain ⟨fuel', halike'⟩ := h'.reflects fuel'' hended
    obtain ⟨fuel, halike⟩ := h.reflects fuel' (mt halike'.unfinished_iff.mpr hended)
    exact ⟨fuel, halike.trans halike'⟩

/-- A program runs alike on machines that differ in their journals. -/
theorem runsAs_record (nodes : List Node) (m : Machine σ) (event : Event) :
    RunsAs id nodes m nodes (m.record event) := by
  have hsame : Node.SameBlock id id nodes nodes := rfl
  refine ⟨fun fuel hended => ?_, fun fuel' hended => ?_⟩
  · obtain ⟨fuel', hverdict, hm⟩ := run_mirrored hsame (m.mirrors_refl.record_right event) hended
    rw [Verdict.mapLines_id (run fuel' _ _).1] at hverdict
    exact ⟨fuel', hverdict.symm, hm.console, hm.memory⟩
  · obtain ⟨fuel, hverdict, hm⟩ := run_mirrored hsame (m.mirrors_refl.record_left event) hended
    rw [Verdict.mapLines_id (run fuel' _ _).1] at hverdict
    exact ⟨fuel, hverdict, hm.console.symm, hm.memory.symm⟩

/-- A run that ends is concluded with what the block yields. -/
theorem concluded_of_run {fuel : Nat} (h : (run fuel nodes m).1 ≠ .unfinished) :
    ∃ outcome, (Task.block nodes).Yields m outcome
      ∧ run fuel nodes m = outcome.machine.conclude (.ofConclusion outcome) := by
  have hrun := Machine.run_eq_conclude (show executeBlock fuel nodes m = _ from rfl)
  by_cases hunfinished : Verdict.ofConclusion (executeBlock fuel nodes m) = .unfinished
  · rw [hrun, if_pos hunfinished] at h
    exact absurd hunfinished h
  · rw [if_neg hunfinished] at hrun
    exact ⟨_, ⟨mt Verdict.ofConclusion_eq_unfinished_iff.mpr hunfinished, fuel, rfl⟩, hrun⟩

theorem run_of_yields {outcome : Conclusion σ Flow} (h : (Task.block nodes).Yields m outcome) :
    ∃ fuel, run fuel nodes m = outcome.machine.conclude (.ofConclusion outcome) := by
  obtain ⟨hfinished, fuel, hblock⟩ := h
  refine ⟨fuel, ?_⟩
  rw [Machine.run_eq_conclude hblock, if_neg (mt Verdict.ofConclusion_eq_unfinished_iff.mp hfinished)]

/-- Blocks that yield the same outcomes run alike. -/
theorem runsAs_of_yields (h : ∀ outcome,
      (Task.block nodes).Yields m outcome ↔ (Task.block nodes').Yields m' outcome) :
    RunsAs id nodes m nodes' m' := by
  have halike : ∀ ended : Verdict × Machine σ, EndAlike id ended ended := fun ended =>
    ⟨ended.1.mapLines_id.symm, rfl, rfl⟩
  refine ⟨fun fuel hended => ?_, fun fuel' hended => ?_⟩
  · obtain ⟨outcome, hyields, hrun⟩ := concluded_of_run hended
    obtain ⟨fuel', hrun'⟩ := run_of_yields ((h outcome).mp hyields)
    exact ⟨fuel', by rw [hrun, hrun']; exact halike _⟩
  · obtain ⟨outcome, hyields, hrun⟩ := concluded_of_run hended
    obtain ⟨fuel, hrun'⟩ := run_of_yields ((h outcome).mpr hyields)
    exact ⟨fuel, by rw [hrun, hrun']; exact halike _⟩

/-! ### A program and then another one -/

/-- A run is concluded as finished only if the last flush is not refused. -/
theorem Machine.conclude_eq_finished {verdict : Verdict} (h : (m.conclude verdict).1 = .finished) :
    verdict = .finished ∧ (Console.flush m.console).1 = .ok () := by
  unfold conclude at h
  split at h
  · rename_i hflush
    exact ⟨h, congrArg Prod.fst hflush⟩
  · cases h

/-- A program that was read completes if it finishes, and leaves behind what its block did, with a
flush in the journal. -/
theorem yields_of_finished (hflush : Console.FlushesInPlace σ) (hprogram : IsBlock false nodes)
    (hm : m.IsSound fun _ => True) {fuel : Nat} (hfinished : (run fuel nodes m).1 = .finished) :
    ∃ ended, (Task.block nodes).Yields m (.ok .completed ended)
      ∧ (run fuel nodes m).2 = ended.record .flushed := by
  obtain ⟨outcome, hyields, hrun⟩ := concluded_of_run (by rw [hfinished]; nofun)
  rw [hrun] at hfinished ⊢
  obtain ⟨hverdict, haccepted⟩ := Machine.conclude_eq_finished hfinished
  have hconcluded : (outcome.machine.conclude (.ofConclusion outcome)).2
      = outcome.machine.record .flushed := by
    have hplace := hflush _ haccepted
    unfold Machine.conclude
    split
    · rename_i hanswer
      rw [hanswer] at hplace
      obtain rfl := hplace
      rfl
    · rename_i hanswer
      rw [hanswer] at haccepted
      cases haccepted
  have hsound := (soundness_valid Console.refuses_any).after hyields
    ⟨⟨false, hprogram.isPart⟩, hm⟩
  cases outcome with
  | ok flow ended =>
    rcases flow_of_isBlock hprogram hsound.1 with rfl | rfl
    · exact ⟨ended, hyields, hconcluded⟩
    · cases hverdict
  | error e ended => cases e <;> cases hverdict

/-- **A program and then another one** run as one program does. -/
theorem runsAs_append (hflush : Console.FlushesInPlace σ) (hprogram : IsBlock false nodes)
    (hm : m.IsSound fun _ => True) {fuel : Nat} (hfinished : (run fuel nodes m).1 = .finished)
    (nodes' : List Node) :
    RunsAs id (nodes ++ nodes') m nodes' (run fuel nodes m).2 := by
  obtain ⟨ended, hyields, hleft⟩ := yields_of_finished hflush hprogram hm hfinished
  rw [hleft]
  exact (runsAs_of_yields fun _ => Task.block_append_yields hyields).trans (runsAs_record _ _ _)

end Runs

end Tablica
