import Multiparse.Parser.Basic

/-!
# Choosing between parsers

An exhaustive choice keeps the readings of every branch that succeeds, an ordered choice only
those of the first one. Both fail when no branch succeeds and report the farthest diagnostic of
the branches they ran.
-/

namespace Multiparse

/-- How much of a choice is kept. -/
inductive Policy where
  /-- Every branch is run and every success counts. -/
  | exhaustive
  /-- The first success counts and ends the search. -/
  | ordered
  deriving DecidableEq

namespace Parser

variable {m : Type → Type} [Monad m] {τ α : Type}

/-- Runs the remaining branches of an exhaustive choice on top of what was collected. -/
def anyOfFrom (input : Residual τ) :
    List (Parser m τ α) → Bool → List (Reading τ α) → Option Diagnostic → m (Outcome τ α)
  | [], success, readings, error => pure (.conclude success readings error)
  | p :: ps, success, readings, error => do
    let outcome ← p input
    let error := Diagnostic.farthest error outcome.error
    if outcome.success then anyOfFrom input ps true (readings ++ outcome.readings) error
    else anyOfFrom input ps success readings error

/-- The readings of every branch that succeeds. -/
def anyOf (ps : List (Parser m τ α)) : Parser m τ α := fun input => anyOfFrom input ps false [] none

/-- Runs the remaining branches of an ordered choice after the earlier ones failed. -/
def firstOfFrom (input : Residual τ) :
    List (Parser m τ α) → Option Diagnostic → m (Outcome τ α)
  | [], error => pure (.conclude false [] error)
  | p :: ps, error => do
    let outcome ← p input
    if outcome.success then pure (outcome.withEarlier error)
    else firstOfFrom input ps (Diagnostic.farthest error outcome.error)

/-- The outcome of the first branch that succeeds. -/
def firstOf (ps : List (Parser m τ α)) : Parser m τ α := fun input => firstOfFrom input ps none

/-- A choice under a policy. -/
def choice : Policy → List (Parser m τ α) → Parser m τ α
  | .exhaustive => anyOf
  | .ordered => firstOf

/-- Keeps only the first reading. -/
def first (p : Parser m τ α) : Parser m τ α := fun input => do
  let outcome ← p input
  pure { outcome with readings := outcome.readings.take 1 }

end Parser

end Multiparse
