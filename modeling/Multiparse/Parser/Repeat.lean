import Multiparse.Parser.Layer

/-!
# Repetition

A repetition is explored by layers: layer `k` holds the ways to read `k` items. A repeated parser
has to move on, so a reading that consumed nothing is not continued and the exploration ends when
the input does, even for a parser that accepts nothing at all.
-/

namespace Multiparse

/-- Which of the layers of a repetition are kept. -/
inductive Extent where
  /-- All of them, fewest items first. -/
  | shortestFirst
  /-- All of them, most items first. -/
  | longestFirst
  /-- The deepest one that is not empty. -/
  | greedy
  /-- The one with exactly this many items. -/
  | exactly (count : Nat)
  deriving DecidableEq

namespace Repetition

variable {m : Type → Type} [Monad m] {τ α : Type}

/-- Keeps the readings that consumed something. -/
def progressing (input : Residual τ) (outcome : Outcome τ α) : Outcome τ α :=
  { outcome with
    readings := outcome.readings.filter fun reading => decide (input.offset < reading.rest.offset) }

/-- Reads one more item from each reading of a layer. -/
def round (p : Parser m τ α) (layer : Layer τ (List α)) : m (Layer τ (List α)) :=
  Layer.advance
    (fun reading => do
      let outcome ← p reading.rest
      pure ((progressing reading.rest outcome).map fun value => reading.value ++ [value]))
    layer.readings layer.error

/-- The layer before any item was read. -/
def seed (input : Residual τ) : Layer τ (List α) := ⟨[⟨[], input⟩], none⟩

/-- The non-empty layers from `layer` on, in at most `rounds` rounds, and the final diagnostic. -/
def layers (p : Parser m τ α) :
    Nat → Layer τ (List α) → m (List (List (Reading τ (List α))) × Option Diagnostic)
  | 0, layer => pure ([layer.readings], layer.error)
  | rounds + 1, layer => do
    let next ← round p layer
    if next.readings.isEmpty then pure ([layer.readings], next.error)
    else
      let (deeper, error) ← layers p rounds next
      pure (layer.readings :: deeper, error)

/-- All non-empty layers. Each round consumes a token, so the tokens left bound their number. -/
def explore (p : Parser m τ α) (input : Residual τ) :
    m (List (List (Reading τ (List α))) × Option Diagnostic) :=
  layers p (input.remaining + 1) (seed input)

/-- Reads exactly `count` more items. -/
def exactly (p : Parser m τ α) : Nat → Layer τ (List α) → m (Outcome τ (List α))
  | 0, layer => pure (.ofReadings layer.readings layer.error)
  | count + 1, layer => do
    let next ← round p layer
    if next.readings.isEmpty then pure (.conclude false [] next.error) else exactly p count next

end Repetition

namespace Parser

variable {m : Type → Type} [Monad m] {τ α : Type}

/-- Reads items one after another and lists their values, to the given extent. -/
def repeated (extent : Extent) (p : Parser m τ α) : Parser m τ (List α) := fun input =>
  match extent with
  | .shortestFirst => do
    let (layers, error) ← Repetition.explore p input
    pure (.ofReadings layers.flatten error)
  | .longestFirst => do
    let (layers, error) ← Repetition.explore p input
    pure (.ofReadings layers.flatten.reverse error)
  | .greedy => do
    let (layers, error) ← Repetition.explore p input
    pure (.ofReadings (layers.getLastD []) error)
  | .exactly count => Repetition.exactly p count (Repetition.seed input)

end Parser

end Multiparse
