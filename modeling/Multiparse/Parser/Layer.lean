import Multiparse.Parser.Basic

/-!
# Running one parser after another

Sequencing goes layer by layer. A layer is the list of readings alive after a stage, with the
farthest diagnostic so far; the next stage runs from the rest of every reading in turn, so an
ambiguous beginning is continued in all its ways. A stage that nothing survives ends the parse.
-/

namespace Multiparse

/-- The readings alive after a stage and the farthest diagnostic met up to it. -/
structure Layer (τ α : Type) where
  readings : List (Reading τ α)
  error : Option Diagnostic

namespace Layer

variable {m : Type → Type} [Monad m] {τ α β : Type}

/-- Runs the next stage from each reading in turn and collects what it reads. -/
def advance (stage : Reading τ α → m (Outcome τ β)) :
    List (Reading τ α) → Option Diagnostic → m (Layer τ β)
  | [], error => pure ⟨[], error⟩
  | reading :: others, error => do
    let outcome ← stage reading
    let later ← advance stage others (Diagnostic.farthest error outcome.error)
    pure ⟨outcome.readings ++ later.readings, later.error⟩

/-- The outcome of a parse whose last stage gave this layer. -/
def conclude (layer : Layer τ α) : Outcome τ α :=
  .conclude (!layer.readings.isEmpty) layer.readings layer.error

/-- Runs stages one after another; the first that nothing survives ends the parse. -/
def through : List (Reading τ α → m (Outcome τ α)) → Layer τ α → m (Outcome τ α)
  | [], layer => pure (.ofReadings layer.readings layer.error)
  | stage :: stages, layer => do
    let next ← advance stage layer.readings layer.error
    if next.readings.isEmpty then pure (.conclude false [] next.error) else through stages next

end Layer

namespace Parser

variable {m : Type → Type} [Monad m] {τ α β : Type}

/-- Runs `p`, then from each of its readings the parser computed from the value read. -/
def bind (p : Parser m τ α) (next : α → Parser m τ β) : Parser m τ β := fun input => do
  let first ← p input
  if !first.success then pure first.toFailure
  else
    let layer ← Layer.advance (fun reading => next reading.value reading.rest)
      first.readings first.error
    pure layer.conclude

/-- Runs `p`, then each continuation in turn on the values read so far. -/
def bindAll (p : Parser m τ α) (nexts : List (α → Parser m τ α)) : Parser m τ α := fun input => do
  let first ← p input
  if !first.success then pure first
  else
    Layer.through (nexts.map fun next reading => next reading.value reading.rest)
      ⟨first.readings, first.error⟩

/-- Runs parsers in sequence and lists their values. -/
def sequence (ps : List (Parser m τ α)) : Parser m τ (List α) := fun input =>
  Layer.through
    (ps.map fun p reading => map (fun value => reading.value ++ [value]) p reading.rest)
    ⟨[⟨[], input⟩], none⟩

end Parser

end Multiparse
