import Multiparse.Proofs.Repetition.Queue

/-!
# Repetitions end

A repetition ends whatever is repeated: even if an item may consume nothing, or go back to an
earlier place, only items that consume something are continued. So both ways to search a repetition
are done after finitely many turns, and the items of a reading are never more than the tokens that
they consume (`repetition_ends`).
-/

namespace Multiparse

open Repetition

variable {m : Type → Type} [Monad m] [LawfulMonad m] {τ α : Type}

/-- **Every repetition ends, and every item of it consumes something.** Let the items be read by a
parser that returns on every input and leads from rests of some tokens to such rests only, be they
before or behind the input. The queue is worked off after some turns, and layers are replaced by the
next one for at most one turn more than there are tokens left; what is found then is what the
repetition returns. It returns under every extent, the items of each reading are read one after
another at growing offsets, and the exploring repetitions succeed with exactly one reading without
items, which leaves the input. -/
theorem repetition_ends {tokens : List τ} {p : Parser m τ α} {run : Residual τ → Outcome τ α}
    (computes : p.Computes run) (within : Within (.start tokens) run) {input : Residual τ}
    (inside : (Residual.start tokens).LeadsTo input) :
    (∃ turns queue, loop (Queue.turn p) turns (Queue.seed input) = pure (some queue) ∧
      Parser.repeated .shortestFirst p input = pure (.ofReadings queue.readings queue.error) ∧
      Parser.repeated .longestFirst p input =
        pure (.ofReadings queue.readings.reverse queue.error)) ∧
    (∃ layer, loop (deepen p) (input.remaining + 1) (seed input) = pure (some layer) ∧
      Parser.repeated .greedy p input = pure (.ofReadings layer.readings layer.error)) ∧
    ∀ extent, ∃ outcome, Parser.repeated extent p input = pure outcome ∧
      (∀ reading ∈ outcome.readings, Climbs run input reading.value reading.rest ∧
        input.offset + reading.value.length ≤ reading.rest.offset) ∧
      (extent = .shortestFirst ∨ extent = .longestFirst → outcome.success = true ∧
        (outcome.readings.filter fun reading => reading.value.isEmpty) = [⟨[], input⟩]) := by
  obtain ⟨last, shallow, exact⟩ := exists_last within inside
  have returns := repeated_pure computes shallow exact
  have workedOff := Queue.loop_ends computes (dry_behind_last exact)
  have deepened := deepen_ends computes exact (input.remaining + 1) (Nat.zero_le last) (by omega)
  refine ⟨⟨_, _, workedOff, returns .shortestFirst, returns .longestFirst⟩,
    ⟨_, deepened, returns .greedy⟩,
    fun extent => ⟨_, returns extent, ?climbs, ?seeded⟩⟩
  case climbs =>
    intro reading member
    obtain ⟨count, present⟩ := mem_level_of_kept member
    have climbs := climbs_of_mem_level present
    exact ⟨climbs, climbs.offset_le⟩
  case seeded =>
    rintro (rfl | rfl)
    · exact ⟨rfl, filter_below last⟩
    · refine ⟨rfl, ?_⟩
      simp only [kept, Outcome.ofReadings, List.filter_reverse, filter_below,
        List.reverse_singleton]

/-- A walk of two strides may stand still or go back to the start at any time, and still it ends. -/
theorem repetition_ends_stroll :
    Within (.start strides) stroll ∧ (Residual.start strides).LeadsTo (.start strides) ∧
      (∃ layer, loop (deepen (.ofFunction stroll)) 3 (seed (.start strides)) =
        (.ok (some layer) : Except Fault _)) ∧
      ∃ outcome, Parser.repeated .longestFirst (.ofFunction stroll) (.start strides) =
          (.ok outcome : Except Fault _) ∧
        (∀ reading ∈ outcome.readings, reading.value.length ≤ reading.rest.offset) ∧
        (outcome.readings.filter fun reading => reading.value.isEmpty) =
          [⟨[], .start strides⟩] := by
  have computes : (Parser.ofFunction stroll : Parser (Except Fault) Unit Nat).Computes stroll :=
    Parser.ofFunction_computes stroll
  obtain ⟨-, ⟨layer, ended, -⟩, returns⟩ :=
    repetition_ends computes stroll_within (.refl (.start strides))
  obtain ⟨outcome, returned, climb, exploring⟩ := returns .longestFirst
  refine ⟨stroll_within, .refl _, ⟨layer, ended⟩, outcome, returned, fun reading member => ?_,
    (exploring (.inr rfl)).2⟩
  have climbed := (climb reading member).2
  rwa [show (Residual.start strides).offset = 0 from rfl, Nat.zero_add] at climbed

end Multiparse
