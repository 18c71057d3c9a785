import Multiparse.Outcome
import Multiparse.Text.Quoted

/-!
# Structural text

Every part of an outcome written out by name, for people who debug a grammar.
-/

namespace Multiparse

namespace Inspect

/-- A named record with its fields. -/
def record (name : String) (fields : List (String × String)) : String :=
  let shown := fields.map fun field => field.1 ++ ": " ++ field.2
  name ++ " \x7b " ++ ", ".intercalate shown ++ " \x7d"

/-- A truth value. -/
def truth (b : Bool) : String := if b then "true" else "false"

/-- A list in brackets. -/
def list (items : List String) : String := "[" ++ ", ".intercalate items ++ "]"

/-- An optional part. -/
def optional : Option String → String
  | none => "None"
  | some part => "Some(" ++ part ++ ")"

end Inspect

/-- The structural text of a position. -/
def Position.inspect : Position → String
  | unknown => "Unknown"
  | token offset => "At(" ++ toString offset ++ ")"
  | eof => "Eof"

/-- The structural text of a diagnostic. -/
def Diagnostic.inspect (diagnostic : Diagnostic) : String :=
  Inspect.record "ParseError"
    [("position", diagnostic.position.inspect),
      ("message", Text.quoted diagnostic.message),
      ("expected", Inspect.list (diagnostic.expected.map Text.quoted)),
      ("found", Inspect.optional (diagnostic.found.map Text.quoted))]

/-- The structural text of residual input. -/
def Residual.inspect {τ : Type} (residual : Residual τ) : String :=
  Inspect.record "Input"
    [("offset", toString residual.offset), ("remaining", toString residual.remaining)]

/-- The structural text of a reading. -/
def Reading.inspect {τ α : Type} (showValue : α → String) (reading : Reading τ α) : String :=
  Inspect.record "Candidate"
    [("value", showValue reading.value), ("rest", reading.rest.inspect)]

/-- The structural text of an outcome. -/
def Outcome.inspect {τ α : Type} (showValue : α → String) (outcome : Outcome τ α) : String :=
  Inspect.record "Outcome"
    [("success", Inspect.truth outcome.success),
      ("candidates", Inspect.list (outcome.readings.map (Reading.inspect showValue))),
      ("error", Inspect.optional (outcome.error.map Diagnostic.inspect))]

end Multiparse
