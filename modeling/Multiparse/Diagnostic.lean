import Multiparse.Position

/-!
# Diagnostics

A diagnostic says where a parse went wrong, what was wanted there and what was found. Of two
diagnostics the one that got deeper into the input is kept; at equal depth the first one is kept
and takes over the wishes of the second.
-/

namespace Multiparse

/-- What went wrong at a position. -/
structure Diagnostic where
  position : Position
  message : String
  /-- Descriptions of what would have been accepted, in the order in which they were tried. -/
  expected : List String
  /-- Description of the token that stood there instead. -/
  found : Option String
  deriving DecidableEq

namespace Diagnostic

/-- A bare message without a place. -/
def ofMessage (message : String) : Diagnostic :=
  { position := .unknown, message, expected := [], found := none }

/-- The same diagnostic moved to a position. -/
def moveTo (diagnostic : Diagnostic) (position : Position) : Diagnostic :=
  { diagnostic with position }

/-- A token was found where another one was wanted. -/
def mismatch (expected found : String) (offset : Nat) : Diagnostic :=
  { position := .token offset, message := "unexpected token", expected := [expected],
    found := some found }

/-- Nothing was left where a token was wanted. -/
def exhausted (expected : String) : Diagnostic :=
  { position := .eof, message := "unexpected end of input", expected := [expected], found := none }

/-- The diagnostic of a failure for which no branch gave a reason. -/
def noAlternative : Diagnostic := ofMessage "no alternative matched"

/-- What stands at the diagnostic's position, in words. -/
def foundText (diagnostic : Diagnostic) : String :=
  match diagnostic.found, diagnostic.position with
  | some found, _ => found
  | none, .eof => "end of input"
  | none, _ => "nothing"

/-- A diagnostic with wishes lists them; one without is its message. -/
def text (diagnostic : Diagnostic) : String :=
  if diagnostic.expected.isEmpty then diagnostic.message
  else "expected " ++ " or ".intercalate diagnostic.expected ++ ", got " ++ diagnostic.foundText

/-- Appends each description that is not yet listed. -/
def addExpected (listed : List String) : List String → List String
  | [] => listed
  | wish :: wishes =>
    addExpected (if listed.contains wish then listed else listed ++ [wish]) wishes

/-- Takes over the wishes of another diagnostic at the same position. A diagnostic without wishes
speaks for itself and neither takes nor gives any. -/
def absorb (kept other : Diagnostic) : Diagnostic :=
  if kept.expected.isEmpty || other.expected.isEmpty then kept
  else { kept with expected := addExpected kept.expected other.expected }

/-- The deeper of two diagnostics, or the first with the wishes of both at equal depth. -/
def deeper (first second : Diagnostic) : Diagnostic :=
  match first.position.compareDepth second.position with
  | .lt => second
  | .gt => first
  | .eq => first.absorb second

/-- The farthest of two optional diagnostics; a missing one never wins. -/
def farthest : Option Diagnostic → Option Diagnostic → Option Diagnostic
  | none, second => second
  | first, none => first
  | some first, some second => some (first.deeper second)

@[simp] theorem farthest_none_left (error : Option Diagnostic) : farthest none error = error := rfl

@[simp] theorem farthest_none_right (error : Option Diagnostic) : farthest error none = error := by
  cases error <;> rfl

/-- Absorbing keeps the position. -/
@[simp] theorem absorb_position (kept other : Diagnostic) :
    (kept.absorb other).position = kept.position := by
  unfold absorb
  split <;> rfl

end Diagnostic

end Multiparse
