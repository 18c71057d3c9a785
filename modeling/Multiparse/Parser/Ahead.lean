import Multiparse.Parser.Basic

/-!
# Looking ahead

These parsers run another one and consume nothing.
-/

namespace Multiparse.Parser

variable {m : Type → Type} [Monad m] {τ α : Type}

/-- Reads all values of `p` at once without consuming anything. -/
def lookAhead (p : Parser m τ α) : Parser m τ (List α) := fun input => do
  let outcome ← p input
  if !outcome.success then pure outcome.toFailure
  else pure (.ofReadings [⟨outcome.values, input⟩] outcome.error)

/-- The diagnostic of input that should not have been accepted. -/
def unexpectedMatch [Token τ] (input : Residual τ) : Diagnostic :=
  match input.peek? with
  | none => (Diagnostic.ofMessage "unexpected match").moveTo input.position
  | some token =>
    { position := input.position, message := "unexpected " ++ Token.describe token,
      expected := [], found := some (Token.describe token) }

/-- Succeeds where `p` fails, and fails where it succeeds. -/
def notAhead [Token τ] (p : Parser m τ α) : Parser m τ Unit := fun input => do
  let outcome ← p input
  if outcome.success then pure (.failure (unexpectedMatch input))
  else pure (.ofReadings [⟨(), input⟩] none)

end Multiparse.Parser
