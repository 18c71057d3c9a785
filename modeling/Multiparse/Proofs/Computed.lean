import Mathlib.Order.MinMax
import Multiparse.Parser.Choice
import Multiparse.Proofs.Farthest
import Multiparse.Proofs.WellFormed

/-!
# Parsers that only compute

A parser computes a function if on every input it returns what the function gives and does nothing
else; in a monad of runs such a parser neither stops with a fault nor watches the run. What is put
together from such parsers computes a function of its own, and sequencing becomes an operation on
outcomes, `Outcome.andThen`.
-/

namespace Multiparse

open Diagnostic

variable {m : Type → Type} [Monad m] {τ α β : Type}

/-- On every input the parser returns what the function gives, and does nothing else. -/
def Parser.Computes (p : Parser m τ α) (run : Residual τ → Outcome τ α) : Prop :=
  ∀ input, p input = pure (run input)

/-- A success has a reading; a failure has none and gives a reason. -/
structure Outcome.Sound (outcome : Outcome τ α) : Prop extends outcome.WellFormed where
  fruitful : outcome.Fruitful

namespace Outcome

theorem failure_sound (reason : Diagnostic) : (failure reason : Outcome τ α).Sound :=
  ⟨⟨fun _ => rfl, fun _ => rfl⟩, fun succeeded => Bool.noConfusion succeeded⟩

theorem ofReadings_sound {readings : List (Reading τ α)} (error : Option Diagnostic)
    (found : readings ≠ []) : (ofReadings readings error).Sound :=
  ⟨⟨fun failed => Bool.noConfusion failed, fun failed => Bool.noConfusion failed⟩, fun _ => found⟩

end Outcome

/-! ## Merging many diagnostics -/

namespace Diagnostic

variable {errors : List (Option Diagnostic)} {error : Option Diagnostic}

theorem depth_foldl_le_iff {bound : WithBot Position} :
    depth (errors.foldl farthest error) ≤ bound ↔
      depth error ≤ bound ∧ ∀ other ∈ errors, depth other ≤ bound := by
  induction errors generalizing error with
  | nil => simp
  | cons other errors ih =>
    rw [List.foldl_cons, ih, depth_farthest, max_le_iff, List.forall_mem_cons, and_assoc]

theorem farthest_isSome_left {first : Option Diagnostic} (second : Option Diagnostic)
    (present : first.isSome) : (farthest first second).isSome := by
  obtain ⟨reason, rfl⟩ := Option.isSome_iff_exists.mp present
  cases second <;> rfl

theorem foldl_isSome (present : error.isSome) : (errors.foldl farthest error).isSome := by
  induction errors generalizing error with
  | nil => exact present
  | cons other errors ih => exact ih (farthest_isSome_left other present)

theorem foldl_isSome_of_mem {other : Option Diagnostic} (member : other ∈ errors)
    (present : other.isSome) : (errors.foldl farthest error).isSome := by
  obtain ⟨before, after, rfl⟩ := List.append_of_mem member
  rw [List.foldl_append, List.foldl_cons]
  exact foldl_isSome (farthest_isSome_right _ present)

end Diagnostic

/-! ## Layers -/

namespace Layer

/-- Stages that return on the readings of a layer make a layer that returns. -/
theorem advance_pure [LawfulMonad m] {stage : Reading τ α → m (Outcome τ β)}
    {next : Reading τ α → Outcome τ β} {readings : List (Reading τ α)}
    (returns : ∀ reading ∈ readings, stage reading = pure (next reading))
    (error : Option Diagnostic) :
    advance stage readings error =
      pure ⟨readings.flatMap fun reading => (next reading).readings,
        (readings.map fun reading => (next reading).error).foldl farthest error⟩ := by
  induction readings generalizing error with
  | nil => rfl
  | cons reading others ih =>
    rw [advance, returns reading List.mem_cons_self, pure_bind,
      ih fun other member => returns other (List.mem_cons_of_mem _ member), pure_bind]
    rfl

theorem conclude_readings (readings : List (Reading τ α)) (error : Option Diagnostic) :
    (conclude ⟨readings, error⟩).readings = readings := by
  cases readings <;> rfl

theorem conclude_error {readings : List (Reading τ α)} {error : Option Diagnostic}
    (explained : readings = [] → error.isSome) :
    (conclude ⟨readings, error⟩).error = error := by
  cases readings with
  | cons reading others => rfl
  | nil =>
    obtain ⟨reason, rfl⟩ := Option.isSome_iff_exists.mp (explained rfl)
    rfl

/-- Readings and a reason for having none make a sound outcome. -/
theorem conclude_sound (readings : List (Reading τ α)) (error : Option Diagnostic) :
    (conclude ⟨readings, error⟩).Sound := by
  cases readings with
  | nil => exact Outcome.failure_sound _
  | cons reading others => exact Outcome.ofReadings_sound _ (List.cons_ne_nil _ _)

end Layer

/-! ## Sequencing outcomes -/

namespace Outcome

/-- Goes on from each reading in turn. -/
def andThen (first : Outcome τ α) (next : Reading τ α → Outcome τ β) : Outcome τ β :=
  if !first.success then first.toFailure
  else
    Layer.conclude ⟨first.readings.flatMap fun reading => (next reading).readings,
      (first.readings.map fun reading => (next reading).error).foldl farthest first.error⟩

variable {first : Outcome τ α} {next : Reading τ α → Outcome τ β}

theorem Sound.success_eq (sound : first.Sound) : first.success = !first.readings.isEmpty := by
  cases succeeded : first.success with
  | false => simp [sound.barren succeeded]
  | true => simpa using sound.fruitful succeeded

theorem Sound.success_iff (sound : first.Sound) :
    first.success = true ↔ ∃ reading, reading ∈ first.readings := by
  rw [sound.success_eq, Bool.not_eq_true', List.isEmpty_eq_false_iff_exists_mem]

theorem Sound.map (sound : first.Sound) (f : α → β) : (first.map f).Sound :=
  ⟨⟨fun failed => List.map_eq_nil_iff.mpr (sound.barren failed), sound.reason⟩,
    fun succeeded => mt List.map_eq_nil_iff.mp (sound.fruitful succeeded)⟩

theorem Sound.toFailure (sound : first.Sound) (failed : first.success = false) :
    (first.toFailure : Outcome τ β).Sound :=
  ⟨⟨fun _ => rfl, fun _ => sound.reason failed⟩, fun succeeded => Bool.noConfusion succeeded⟩

theorem andThen_of_failed (failed : first.success = false) :
    first.andThen next = first.toFailure := by
  simp [andThen, failed]

theorem andThen_of_success (succeeded : first.success = true) :
    first.andThen next =
      Layer.conclude ⟨first.readings.flatMap fun reading => (next reading).readings,
        (first.readings.map fun reading => (next reading).error).foldl farthest first.error⟩ := by
  simp [andThen, succeeded]

theorem andThen_congr {next' : Reading τ α → Outcome τ β}
    (same : ∀ reading ∈ first.readings, next reading = next' reading) :
    first.andThen next = first.andThen next' := by
  rw [andThen, andThen, List.flatMap_congr fun reading member => by
    rw [same reading member], List.map_congr_left fun reading member => by rw [same reading member]]

/-- What comes out of sequencing is sound whatever comes second. -/
theorem Sound.andThen (sound : first.Sound) (next : Reading τ α → Outcome τ β) :
    (first.andThen next).Sound := by
  cases succeeded : first.success with
  | false =>
    rw [andThen_of_failed succeeded]
    exact sound.toFailure succeeded
  | true =>
    rw [andThen_of_success succeeded]
    exact Layer.conclude_sound _ _

theorem Sound.andThen_readings (sound : first.Sound) (next : Reading τ α → Outcome τ β) :
    (first.andThen next).readings =
      first.readings.flatMap fun reading => (next reading).readings := by
  cases succeeded : first.success with
  | false =>
    rw [andThen_of_failed succeeded, sound.barren succeeded]
    rfl
  | true => rw [andThen_of_success succeeded, Layer.conclude_readings]

/-- Where nothing is found, one of the parts says why. -/
theorem Sound.andThen_error (sound : first.Sound) (sounds : ∀ reading, (next reading).Sound) :
    (first.andThen next).error =
      (first.readings.map fun reading => (next reading).error).foldl farthest first.error := by
  cases succeeded : first.success with
  | false =>
    rw [andThen_of_failed succeeded, sound.barren succeeded]
    rfl
  | true =>
    rw [andThen_of_success succeeded]
    apply Layer.conclude_error
    intro nothing
    obtain ⟨reading, member⟩ := List.exists_mem_of_ne_nil _ (sound.fruitful succeeded)
    have missed : (next reading).readings = [] := List.flatMap_eq_nil_iff.mp nothing reading member
    have failed : (next reading).success = false := by
      rw [(sounds reading).success_eq, missed]
      rfl
    exact foldl_isSome_of_mem (List.mem_map_of_mem member) ((sounds reading).reason failed)

theorem Sound.depth_andThen_le_iff (sound : first.Sound) (sounds : ∀ reading, (next reading).Sound)
    {bound : WithBot Position} :
    depth (first.andThen next).error ≤ bound ↔
      depth first.error ≤ bound ∧
        ∀ reading ∈ first.readings, depth (next reading).error ≤ bound := by
  rw [sound.andThen_error sounds, depth_foldl_le_iff, List.forall_mem_map]

end Outcome

/-! ## Parsers -/

namespace Parser

variable {p : Parser m τ α} {run : Residual τ → Outcome τ α}

/-- The parser computes a function, and all that it returns is sound. -/
def Sound (p : Parser m τ α) : Prop :=
  ∃ run : Residual τ → Outcome τ α, p.Computes run ∧ ∀ input, (run input).Sound

theorem ofFunction_computes (run : Residual τ → Outcome τ α) :
    (ofFunction run : Parser m τ α).Computes run :=
  fun _ => rfl

variable [LawfulMonad m]

theorem map_of_pure {input : Residual τ} {outcome : Outcome τ α} (ran : p input = pure outcome)
    (f : α → β) : map f p input = pure (outcome.map f) := by
  rw [map, ran, pure_bind]

/-- Running on from readings on which the continuations return. -/
theorem bind_of_pure {next : α → Parser m τ β} {input : Residual τ} {first : Outcome τ α}
    {continued : Reading τ α → Outcome τ β} (ran : p input = pure first)
    (returns : ∀ reading ∈ first.readings,
      next reading.value reading.rest = pure (continued reading)) :
    bind p next input = pure (first.andThen continued) := by
  rw [bind, ran, pure_bind]
  cases succeeded : first.success with
  | false =>
    rw [Outcome.andThen_of_failed succeeded]
    rfl
  | true =>
    rw [Outcome.andThen_of_success succeeded]
    simp only [Bool.not_true, Bool.false_eq_true, ↓reduceIte]
    rw [Layer.advance_pure returns, pure_bind]

theorem Computes.map (computes : p.Computes run) (f : α → β) :
    (Parser.map f p).Computes fun input => (run input).map f :=
  fun input => map_of_pure (computes input) f

theorem Computes.bind {next : α → Parser m τ β} {continued : α → Residual τ → Outcome τ β}
    (computes : p.Computes run) (continues : ∀ value, (next value).Computes (continued value)) :
    (Parser.bind p next).Computes fun input =>
      (run input).andThen fun reading => continued reading.value reading.rest :=
  fun input => bind_of_pure (computes input) fun reading _ => continues reading.value reading.rest

end Parser

end Multiparse
