import Multiparse.Fault
import Multiparse.Outcome

/-!
# Log records

Running a traced grammar writes a record when a traced parser is entered and another when it is
left. Records are kept as data; their wording is `Event.message`.
-/

namespace Multiparse

/-- How important a log record is. -/
inductive Level where
  | trace
  | debug
  | error
  deriving DecidableEq

/-- The name of a level in a log. -/
def Level.text : Level → String
  | trace => "TRACE"
  | debug => "DEBUG"
  | error => "ERROR"

/-- A line of a log. -/
structure Record where
  level : Level
  message : String
  deriving DecidableEq

/-- Something worth a record that happened during a run. -/
inductive Event where
  /-- A traced parser was entered, this deep, at a position. -/
  | entered (depth : Nat) (name : String) (position : Position)
  /-- A traced parser succeeded; its readings stopped at these offsets. -/
  | matched (depth : Nat) (name : String) (stops : List Nat)
  /-- A traced parser failed. -/
  | failed (depth : Nat) (name : String) (reason : Diagnostic)
  /-- The run stopped. -/
  | faulted (fault : Fault)
  deriving DecidableEq

namespace Event

/-- The depth column of a record is at least three characters wide. -/
def depthColumn (depth : Nat) : String :=
  let digits := toString depth
  "[" ++ digits ++ "".pushn ' ' (3 - digits.length) ++ "] "

/-- Offsets in brackets. -/
def offsetsText (offsets : List Nat) : String :=
  "[" ++ ", ".intercalate (offsets.map fun offset => toString offset) ++ "]"

/-- How important the event is. -/
def level : Event → Level
  | entered .. => .trace
  | matched .. => .debug
  | failed .. => .debug
  | faulted .. => .error

/-- The event in words. -/
def message : Event → String
  | entered depth name position => depthColumn depth ++ name ++ " at " ++ position.text
  | matched depth name stops =>
    depthColumn depth ++ name ++ " matched " ++ toString stops.length ++
      " candidate(s), stopping at " ++ offsetsText stops
  | failed depth name reason =>
    depthColumn depth ++ name ++ " failed at " ++ reason.position.text ++ ": " ++ reason.text
  | faulted fault => fault.record

/-- The record of an event. -/
def toRecord (event : Event) : Record := ⟨event.level, event.message⟩

/-- What leaving a traced parser is worth: a failure without a reason leaves no record. -/
def ofOutcome {τ α : Type} (depth : Nat) (name : String) (outcome : Outcome τ α) : Option Event :=
  if outcome.success then some (matched depth name outcome.stops)
  else outcome.error.map (failed depth name)

end Event

end Multiparse
