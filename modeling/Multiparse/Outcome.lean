import Multiparse.Diagnostic
import Multiparse.Residual
import Multiparse.Token

/-!
# Outcomes

Running a parser gives all its readings at once: each is a value with the input left after it. A
success may carry a diagnostic too, the farthest one met on the way, which says what almost
matched.

`Outcome.complete` keeps the readings that used up the input, `Outcome.single` asks for exactly
one reading, and `Outcome.whole` does both.
-/

namespace Multiparse

/-- One way to read a prefix of the input: its value and what is left. -/
structure Reading (τ α : Type) where
  value : α
  rest : Residual τ

/-- The result of running a parser. -/
structure Outcome (τ α : Type) where
  success : Bool
  readings : List (Reading τ α)
  /-- The farthest diagnostic met, on success as well as on failure. -/
  error : Option Diagnostic

namespace Reading

variable {τ α β : Type}

/-- Changes the value and keeps the rest. -/
def map (f : α → β) (reading : Reading τ α) : Reading τ β := ⟨f reading.value, reading.rest⟩

end Reading

namespace Outcome

variable {τ α β : Type}

/-- A success with the given readings, of which there may be none. -/
def ofReadings (readings : List (Reading τ α)) (error : Option Diagnostic) : Outcome τ α :=
  ⟨true, readings, error⟩

/-- A failure with its reason. -/
def failure (reason : Diagnostic) : Outcome τ α := ⟨false, [], some reason⟩

/-- A success without any reading. -/
def barren : Outcome τ α := ofReadings [] none

/-- A success or a failure from what was collected; a failure always has a reason. -/
def conclude (success : Bool) (readings : List (Reading τ α)) (error : Option Diagnostic) :
    Outcome τ α :=
  if success then ofReadings readings error else failure (error.getD .noAlternative)

/-- Changes every value and keeps everything else. -/
def map (f : α → β) (outcome : Outcome τ α) : Outcome τ β :=
  ⟨outcome.success, outcome.readings.map (Reading.map f), outcome.error⟩

/-- Changes the value of the first reading only. -/
def mapFirst (f : α → α) (outcome : Outcome τ α) : Outcome τ α :=
  match outcome.readings with
  | [] => outcome
  | reading :: others => { outcome with readings := reading.map f :: others }

/-- A failure for the same reason, at any type of value. -/
def toFailure (outcome : Outcome τ α) : Outcome τ β := ⟨false, [], outcome.error⟩

/-- Takes account of a diagnostic met before this outcome. -/
def withEarlier (earlier : Option Diagnostic) (outcome : Outcome τ α) : Outcome τ α :=
  { outcome with error := Diagnostic.farthest earlier outcome.error }

/-- The values read, in order. -/
def values (outcome : Outcome τ α) : List α := outcome.readings.map Reading.value

/-- Where each reading stopped, in order. -/
def stops (outcome : Outcome τ α) : List Nat :=
  outcome.readings.map fun reading => reading.rest.offset

/-- The diagnostic of a reading that stopped before the end of the input. -/
def stoppedAt [Token τ] (rest : Residual τ) (token : τ) : Diagnostic :=
  (Diagnostic.ofMessage
    ("the parser cannot reach the end of input, stops at " ++ Token.describe token)).moveTo
    rest.position

/-- Splits off the readings that used up the input; each of the others counts as a diagnostic. -/
def sift [Token τ] (error : Option Diagnostic) :
    List (Reading τ α) → List (Reading τ α) × Option Diagnostic
  | [] => ([], error)
  | reading :: others =>
    match reading.rest.peek? with
    | none =>
      let (kept, error) := sift error others
      (reading :: kept, error)
    | some token => sift (Diagnostic.farthest error (some (stoppedAt reading.rest token))) others

/-- Keeps the readings that used up the input. -/
def complete [Token τ] (outcome : Outcome τ α) : Outcome τ α :=
  if !outcome.success then outcome
  else if outcome.readings.isEmpty then
    failure ((Diagnostic.ofMessage "no result is returned").moveTo .eof)
  else
    let (kept, error) := sift outcome.error outcome.readings
    conclude (!kept.isEmpty) kept error

/-- The value of the only reading. -/
def single (outcome : Outcome τ α) : Except Diagnostic α :=
  if !outcome.success then .error (outcome.error.getD .noAlternative)
  else
    match outcome.readings with
    | [] => .error (.ofMessage "no result is returned")
    | [reading] => .ok reading.value
    | _ => .error (.ofMessage "multiple results are returned")

/-- The value of the only reading that used up the input. -/
def whole [Token τ] (outcome : Outcome τ α) : Except Diagnostic α := outcome.complete.single

@[simp] theorem map_success (f : α → β) (outcome : Outcome τ α) :
    (outcome.map f).success = outcome.success := rfl

@[simp] theorem map_error (f : α → β) (outcome : Outcome τ α) :
    (outcome.map f).error = outcome.error := rfl

@[simp] theorem map_readings (f : α → β) (outcome : Outcome τ α) :
    (outcome.map f).readings = outcome.readings.map (Reading.map f) := rfl

end Outcome

end Multiparse
