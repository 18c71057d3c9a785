import Multiparse.Grammar.Lemmas
import Multiparse.Proofs.Repetition.Levels

/-!
# Repetitions of items that proceed

Items that never move back can be read a greatest number of times, and what a repetition of them
returns is made of the levels up to that one (`repeated_harvest`). A list or a fold is read as a
head and a repetition behind it, so its readings are those of the head, each with what is found
behind it (`headed_readings`).
-/

namespace Multiparse

open Diagnostic

variable {m : Type → Type} [Monad m] {τ α β : Type}

/-- What the function gives is sound, and it never moves back. -/
structure Proceeds (run : Residual τ → Outcome τ α) : Prop where
  sounds : ∀ input, (run input).Sound
  leads : ∀ input, ∀ reading ∈ (run input).readings, input.LeadsTo reading.rest

namespace Repetition

variable {run : Residual τ → Outcome τ β} {input : Residual τ}

theorem exists_last_of_proceeds (proceeds : Proceeds run) (input : Residual τ) :
    ∃ last ≤ input.remaining, ∀ count, level run input count ≠ [] ↔ count ≤ last := by
  have within : Within input run := fun rest inside reading member =>
    inside.trans (proceeds.leads rest reading member)
  exact exists_last within (.refl input)

theorem Climbs.mem_level {values : List β} {rest : Residual τ}
    (climbs : Climbs run input values rest) : ⟨values, rest⟩ ∈ level run input values.length := by
  induction climbs with
  | start => exact List.mem_singleton_self _
  | step climbs member consumes ih =>
    rw [List.length_append, List.length_singleton, level, List.mem_flatMap]
    exact ⟨_, ih, mem_onward.mpr ⟨_, member, consumes, rfl⟩⟩

/-! ## The deepest level -/

/-- The greatest number of items that can be read one after another. -/
def deepest (run : Residual τ → Outcome τ β) (input : Residual τ) : Nat :=
  Nat.findGreatest (fun count => level run input count ≠ []) input.remaining

/-- What a repetition of the items returns. -/
def harvest (run : Residual τ → Outcome τ β) (extent : Extent) (input : Residual τ) :
    Outcome τ (List β) :=
  kept run input (deepest run input) extent

theorem level_ne_nil_iff (proceeds : Proceeds run) (input : Residual τ) (count : Nat) :
    level run input count ≠ [] ↔ count ≤ deepest run input := by
  obtain ⟨last, shallow, exact⟩ := exists_last_of_proceeds proceeds input
  have reached : level run input last ≠ [] := (exact last).mpr le_rfl
  have filled : level run input (deepest run input) ≠ [] :=
    Nat.findGreatest_spec (P := fun count => level run input count ≠ []) shallow reached
  have same : last = deepest run input :=
    le_antisymm (Nat.le_findGreatest shallow reached) ((exact _).mp filled)
  rw [← same]
  exact exact count

theorem below_deepest (proceeds : Proceeds run) {bound : Nat} (enough : input.remaining < bound) :
    below run input (deepest run input + 1) = below run input bound := by
  have shallow : deepest run input ≤ input.remaining := Nat.findGreatest_le _
  exact (below_of_dry (by omega) (dry_behind_last (level_ne_nil_iff proceeds input))).symm

/-- There are no more items than tokens left. -/
theorem below_of_remaining_lt (proceeds : Proceeds run) {bound : Nat}
    (enough : input.remaining < bound) :
    below run input bound = below run input (input.remaining + 1) :=
  (below_deepest proceeds enough).symm.trans (below_deepest proceeds (Nat.lt_succ_self _))

theorem harvest_sound (proceeds : Proceeds run) (extent : Extent) (input : Residual τ) :
    (harvest run extent input).Sound := by
  have nothing : (⟨[], input⟩ : Reading τ (List β)) ∈ below run input (deepest run input + 1) :=
    mem_below.mpr ⟨0, Nat.succ_pos _, List.mem_singleton_self _⟩
  cases extent with
  | shortestFirst => exact Outcome.ofReadings_sound _ (List.ne_nil_of_mem nothing)
  | longestFirst =>
    exact Outcome.ofReadings_sound _ (List.ne_nil_of_mem (List.mem_reverse.mpr nothing))
  | greedy => exact Outcome.ofReadings_sound _ ((level_ne_nil_iff proceeds input _).mpr le_rfl)
  | exactly count =>
    rw [harvest, kept]
    split
    · exact Outcome.failure_sound _
    · exact Outcome.ofReadings_sound _ ‹_›

theorem harvest_exactly_readings (run : Residual τ → Outcome τ β) (count : Nat)
    (input : Residual τ) :
    (harvest run (.exactly count) input).readings = level run input count := by
  rw [harvest, kept]
  split
  · exact (Eq.symm ‹_›)
  · rfl

/-- The greedy readings are among all readings, and no item behind them consumes anything. -/
theorem harvest_greedy_member (proceeds : Proceeds run) {items : Reading τ (List β)}
    (member : items ∈ (harvest run .greedy input).readings) :
    items ∈ (harvest run .longestFirst input).readings ∧
      ∀ item ∈ (run items.rest).readings, item.rest.offset ≤ items.rest.offset := by
  have deep : items ∈ level run input (deepest run input) := member
  refine ⟨List.mem_reverse.mpr (mem_below.mpr ⟨_, Nat.lt_succ_self _, deep⟩), ?_⟩
  intro item further
  by_contra consumes
  have next : ⟨items.value ++ [item.value], item.rest⟩ ∈
      level run input (deepest run input + 1) :=
    List.mem_flatMap.mpr ⟨items, deep, mem_onward.mpr ⟨item, further, not_le.mp consumes, rfl⟩⟩
  rw [dry_behind_last (level_ne_nil_iff proceeds input)] at next
  cases next

/-- All items that may follow each other are found. -/
theorem mem_harvest_longestFirst (proceeds : Proceeds run) {items : Reading τ (List β)} :
    items ∈ (harvest run .longestFirst input).readings ↔
      Climbs run input items.value items.rest := by
  constructor
  · intro member
    obtain ⟨count, present⟩ := mem_level_of_kept member
    exact climbs_of_mem_level present
  · intro climbs
    have present := climbs.mem_level
    have early := (level_ne_nil_iff proceeds input _).mp (List.ne_nil_of_mem present)
    exact List.mem_reverse.mpr (mem_below.mpr ⟨_, Nat.lt_succ_of_le early, present⟩)

/-- A repetition of items that proceed returns what its extent keeps up to the deepest level. -/
theorem repeated_harvest [LawfulMonad m] {q : Parser m τ β} (computes : q.Computes run)
    (proceeds : Proceeds run) (extent : Extent) :
    (Parser.repeated extent q).Computes (harvest run extent) :=
  fun input =>
    repeated_pure computes (Nat.findGreatest_le _) (level_ne_nil_iff proceeds input) extent

end Repetition

open Repetition

/-! ## A head and a repetition -/

namespace Outcome

variable {first : Residual τ → Outcome τ α} {run : Residual τ → Outcome τ β}

/-- A head, and behind it what a repetition finds. -/
def headed (first : Residual τ → Outcome τ α) (run : Residual τ → Outcome τ β) (extent : Extent)
    (input : Residual τ) : Outcome τ (α × List β) :=
  (first input).andThen fun head => (harvest run extent head.rest).map (head.value, ·)

theorem headed_sound (firsts : Proceeds first) (extent : Extent) (input : Residual τ) :
    (headed first run extent input).Sound :=
  (firsts.sounds input).andThen _

theorem headed_readings (firsts : Proceeds first) (extent : Extent) (input : Residual τ) :
    (headed first run extent input).readings =
      (first input).readings.flatMap fun head =>
        (harvest run extent head.rest).readings.map (Reading.map (head.value, ·)) :=
  (firsts.sounds input).andThen_readings _

/-- Where the repetition always succeeds, nothing but the head decides. -/
theorem headed_success (firsts : Proceeds first) (proceeds : Proceeds run) {extent : Extent}
    (succeeds : ∀ rest, (harvest run extent rest).success = true) (input : Residual τ) :
    (headed first run extent input).success = (first input).success := by
  rw [Bool.eq_iff_iff, (headed_sound firsts extent input).success_iff,
    (firsts.sounds input).success_iff, headed_readings firsts]
  constructor
  · intro filled
    obtain ⟨reading, member⟩ := filled
    obtain ⟨head, read, -⟩ := List.mem_flatMap.mp member
    exact ⟨head, read⟩
  · intro filled
    obtain ⟨head, read⟩ := filled
    obtain ⟨items, found⟩ :=
      (harvest_sound proceeds extent head.rest).success_iff.mp (succeeds head.rest)
    exact ⟨_, List.mem_flatMap.mpr ⟨head, read, List.mem_map_of_mem found⟩⟩

end Outcome

section Grammars

variable {N : Names} [LawfulMonad m] [Aborts m] [Defers m] [Observes N.Tracer m] [Token τ]
  {call : (rule : N.Rule) → Parser m τ (N.Result rule)} {p : Grammar N τ α} {q : Grammar N τ β}
  {first : Residual τ → Outcome τ α} {run : Residual τ → Outcome τ β}

theorem headed_computes (heads : (p.interpret call).Computes first)
    (items : (q.interpret call).Computes run) (proceeds : Proceeds run) (extent : Extent) :
    ((Grammar.pair p (.repeated extent q)).interpret call).Computes
      (Outcome.headed first run extent) :=
  heads.bind fun value => (repeated_harvest items proceeds extent).map (value, ·)

end Grammars

end Multiparse
