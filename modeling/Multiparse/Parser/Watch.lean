import Multiparse.Event
import Multiparse.Parser.Basic

/-!
# Watching a run

A traced parser tells a tracer when it is entered and when it is left.
-/

namespace Multiparse

/-- A monad in which a run can be watched through tracers of type `θ`. -/
class Observes (θ : Type) (m : Type → Type) where
  /-- Enters a traced parser and gives the depth at which it stands. -/
  enter : θ → String → Position → m Nat
  /-- Leaves a traced parser, with what is to be recorded. -/
  leave : θ → Option Event → m Unit
  /-- The number of traced parsers in progress. -/
  depth : θ → m Nat

/-- Nobody watches. -/
instance {θ : Type} : Observes θ (Except Fault) where
  enter _ _ _ := pure 0
  leave _ _ := pure ()
  depth _ := pure 0

namespace Parser

variable {m : Type → Type} [Monad m] {θ τ α : Type} [Observes θ m]

/-- Runs `p` between an entry and an exit record. -/
def traced (tracer : θ) (name : String) (p : Parser m τ α) : Parser m τ α := fun input => do
  let depth ← Observes.enter tracer name input.position
  let outcome ← p input
  Observes.leave tracer (Event.ofOutcome depth name outcome)
  pure outcome

/-- Pairs each value of `p` with the tracer's depth when `p` has just ended. -/
def withDepth (tracer : θ) (p : Parser m τ α) : Parser m τ (α × Nat) := fun input => do
  let outcome ← p input
  let depth ← Observes.depth (m := m) tracer
  pure (outcome.map fun value => (value, depth))

end Parser

end Multiparse
