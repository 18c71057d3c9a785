import Multiparse.Parser.Basic

/-!
# Gathering ambiguous readings

Readings that stop at the same place are gathered into one reading of all their values. Groups
stand in the order of their first members, values in the order in which they were read, and equal
values are all kept.
-/

namespace Multiparse

namespace Reading

variable {τ α : Type}

/-- Adds a reading to the group that stops where it does, or starts a group for it. -/
def addToGroup (reading : Reading τ α) :
    List (Reading τ (List α)) → List (Reading τ (List α))
  | [] => [⟨[reading.value], reading.rest⟩]
  | group :: groups =>
    if group.rest.sameAs reading.rest then
      ⟨group.value ++ [reading.value], group.rest⟩ :: groups
    else group :: addToGroup reading groups

/-- Groups readings by where they stop. -/
def group (readings : List (Reading τ α)) : List (Reading τ (List α)) :=
  readings.foldl (fun groups reading => reading.addToGroup groups) []

end Reading

namespace Parser

variable {m : Type → Type} [Monad m] {τ α : Type}

/-- One reading for each place where `p` stops. -/
def gather (p : Parser m τ α) : Parser m τ (List α) := fun input => do
  let outcome ← p input
  if !outcome.success then pure outcome.toFailure
  else pure (.ofReadings (Reading.group outcome.readings) outcome.error)

end Parser

end Multiparse
