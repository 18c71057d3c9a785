import Multiparse.Fault
import Multiparse.Parser.Basic

/-!
# Deferred parsers

A deferred parser is built when it first runs and reused afterwards. Each has a numbered cell, and
a run may remember which cells were filled.
-/

namespace Multiparse

/-- A monad in which deferred parsers are built. -/
class Defers (m : Type → Type) where
  /-- Fills a cell unless it was filled before. -/
  build : Nat → m Unit

/-- Nobody counts. -/
instance : Defers (Except Fault) where
  build _ := pure ()

namespace Parser

variable {m : Type → Type} [Monad m] [Defers m] {τ α : Type}

/-- Builds `p` the first time it runs. -/
def deferred (cell : Nat) (p : Parser m τ α) : Parser m τ α := fun input => do
  Defers.build cell
  p input

end Parser

end Multiparse
