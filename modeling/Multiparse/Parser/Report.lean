import Multiparse.Parser.Basic

/-!
# Saying what went wrong

These parsers change how a failure is reported, or turn it into a success with a default value.
None of them touches a success.
-/

namespace Multiparse

namespace Diagnostic

/-- Replaces a diagnostic by a message at the same position; an empty message keeps it. -/
def rephrase (message : String) : Option Diagnostic → Diagnostic
  | none => ofMessage message
  | some reason =>
    if message.isEmpty then reason else (ofMessage message).moveTo reason.position

/-- Says what was wanted by one name instead of by a list. -/
def wantedAs (name : String) (position : Position) : Option Diagnostic → Diagnostic
  | none => { noAlternative with position, expected := [name] }
  | some reason => { reason with expected := [name] }

end Diagnostic

namespace Parser

variable {m : Type → Type} [Monad m] {τ α : Type}

/-- Reports a failure of `p` in other words. -/
def reportAs (message : String) (p : Parser m τ α) : Parser m τ α := fun input => do
  let outcome ← p input
  if outcome.success then pure outcome
  else pure (.failure (Diagnostic.rephrase message outcome.error))

/-- Reads a default value without consuming anything where `p` fails. -/
def recover (message : String) (default : α) (p : Parser m τ α) : Parser m τ α := fun input => do
  let outcome ← p input
  if outcome.success then pure outcome
  else pure (.ofReadings [⟨default, input⟩] (some (Diagnostic.rephrase message outcome.error)))

/-- Names what `p` is looking for. -/
def named (name : String) (p : Parser m τ α) : Parser m τ α := fun input => do
  let outcome ← p input
  if outcome.success then pure outcome
  else pure (.failure (Diagnostic.wantedAs name input.position outcome.error))

end Parser

end Multiparse
