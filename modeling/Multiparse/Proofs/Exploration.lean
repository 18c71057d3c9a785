import Mathlib.Data.List.Basic
import Mathlib.Logic.Relation
import Multiparse.Proofs.Derivation
import Multiparse.Proofs.Ending

/-!
# Exploring every choice

A parser explores a relation if it finds exactly what the relation says (`Parser.Explores`). If each
part of a parser that keeps every choice explores some relation, the whole explores what the
relations say together. Since every item of a repetition consumes something, the rounds of a
repetition reach all of its items.
-/

namespace Multiparse

open Run

variable {τ α β : Type}

/-- The outcome has exactly the readings that are derived, and is a success if there are any. -/
structure Covers (outcome : Outcome τ α) (derived : α → Residual τ → Prop) : Prop where
  mem : ∀ reading, reading ∈ outcome.readings ↔ derived reading.value reading.rest
  success : outcome.success = true ↔ outcome.readings ≠ []

/-- Whatever the parser returns covers what is derived from its input. -/
def Parser.Explores (p : Parser Run τ α) (derived : Residual τ → α → Residual τ → Prop) : Prop :=
  ∀ input, (p input).Ensures fun outcome => Covers outcome (derived input)

namespace Covers

variable {derived : α → Residual τ → Prop} {outcome : Outcome τ α}

theorem congr {derived' : α → Residual τ → Prop} (covers : Covers outcome derived)
    (same : ∀ value rest, derived' value rest ↔ derived value rest) : Covers outcome derived' :=
  ⟨fun reading => (covers.mem reading).trans (same _ _).symm, covers.success⟩

theorem map (covers : Covers outcome derived) (f : α → β) :
    Covers (outcome.map f) fun value rest => ∃ read, derived read rest ∧ value = f read := by
  refine ⟨fun reading => ?_, ?_⟩
  · rw [Outcome.map_readings, List.mem_map]
    constructor
    · rintro ⟨read, member, rfl⟩
      exact ⟨read.value, (covers.mem read).mp member, rfl⟩
    · rintro ⟨read, derives, same⟩
      refine ⟨⟨read, reading.rest⟩, (covers.mem _).mpr derives, ?_⟩
      rw [Reading.map, ← same]
  · rw [Outcome.map_success, covers.success]
    simp

/-- Readings that were collected make a success if there are any. -/
theorem conclude {success : Bool} {readings : List (Reading τ α)} {error : Option Diagnostic}
    (mem : ∀ reading, reading ∈ readings ↔ derived reading.value reading.rest)
    (exact : success = true ↔ readings ≠ []) :
    Covers (.conclude success readings error) derived := by
  cases success with
  | true => exact ⟨mem, exact⟩
  | false =>
    obtain rfl : readings = [] := by
      by_contra nonempty
      cases exact.mpr nonempty
    exact ⟨mem, by simp [Outcome.conclude, Outcome.failure]⟩

end Covers

/-! ## Sequences -/

namespace Parser

variable {p : Parser Run τ α} {derived : Residual τ → α → Residual τ → Prop}

end Parser

/-! ## Repetitions -/

namespace Repetition

variable {p : Parser Run τ α} {derived : Residual τ → α → Residual τ → Prop}

end Repetition

namespace Parser

variable {p : Parser Run τ α} {derived : Residual τ → α → Residual τ → Prop}

end Parser

end Multiparse
