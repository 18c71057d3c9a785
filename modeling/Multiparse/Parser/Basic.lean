import Multiparse.Outcome

/-!
# Parsers

A parser runs on residual input and gives an outcome. What else it may do while running, such as
write a record or give up, is left to a monad, and in `Id` a parser is a plain function. This
module has the parsers that look at no more than one token.
-/

namespace Multiparse

/-- A parser of values of type `α` from tokens of type `τ`, running in `m`. -/
abbrev Parser (m : Type → Type) (τ α : Type) : Type := Residual τ → m (Outcome τ α)

namespace Parser

variable {m : Type → Type} [Monad m] {τ α β : Type}

/-- Wraps a plain function. -/
def ofFunction (run : Residual τ → Outcome τ α) : Parser m τ α := fun input => pure (run input)

/-- Consumes one token that the predicate accepts. -/
def satisfy [Token τ] (accepts : τ → Bool) (expected : String) : Parser m τ τ :=
  ofFunction fun input =>
    match input.peek? with
    | none => .failure (.exhausted expected)
    | some token =>
      if accepts token then .ofReadings [⟨token, input.advance⟩] none
      else .failure (.mismatch expected (Token.describe token) input.offset)

/-- Consumes nothing and reads `value`. -/
def succeed (value : α) : Parser m τ α :=
  ofFunction fun input => .ofReadings [⟨value, input⟩] none

/-- Consumes nothing and fails where it stands. -/
def fail (message : String) : Parser m τ α :=
  ofFunction fun input => .failure ((Diagnostic.ofMessage message).moveTo input.position)

/-- Succeeds only when no token is left. -/
def endOfInput [Token τ] : Parser m τ Unit :=
  ofFunction fun input =>
    match input.peek? with
    | none => .ofReadings [⟨(), input⟩] none
    | some token => .failure (.mismatch "end of input" (Token.describe token) input.offset)

/-- Changes every value read. -/
def map (f : α → β) (p : Parser m τ α) : Parser m τ β := fun input => do
  let outcome ← p input
  pure (outcome.map f)

end Parser

end Multiparse
