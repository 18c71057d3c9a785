import Mathlib.Control.Monad.Writer
import Multiparse.Proofs.Ending

/-!
# Failures raised in a run

A watched run does what the plain run does and besides writes down the position of every failure
that a primitive parser raises. A parser that looks for something not to follow raises its own
failure, but what its argument raises is forgotten.
-/

namespace Multiparse

/-- Runs that write down positions. -/
abbrev Watch : Type → Type := WriterT (List Position) Run

namespace Watch

instance : Aborts Watch where
  abort fault := liftM (Aborts.abort fault : Run _)

instance : Defers Watch where
  build cell := liftM (Defers.build cell : Run _)

instance {θ : Type} [Observes θ Run] : Observes θ Watch where
  enter tracer name position := liftM (Observes.enter tracer name position : Run _)
  leave tracer exit := liftM (Observes.leave tracer exit : Run _)
  depth tracer := liftM (Observes.depth tracer : Run _)

end Watch

/-- What the steps of a run write down is put together. -/
theorem Run.ends_writer_bind {W A B : Type} {run : WriterT (List W) Run A}
    {next : A → WriterT (List W) Run B} {value : A} {result : B} {written more : List W}
    {before middle after : Machine} (first : run.run.Ends before (value, written) middle)
    (second : (next value).run.Ends middle (result, more) after) :
    (run >>= next).run.Ends before (result, written ++ more) after :=
  Run.ends_bind.mpr ⟨_, middle, first, Run.ends_map.mpr ⟨_, second, rfl⟩⟩

namespace Parser

variable {τ α : Type}

/-- Writes down where the parser fails. -/
def raising (p : Parser Watch τ α) : Parser Watch τ α := fun input => do
  let outcome ← p input
  if !outcome.success then tell (outcome.error.toList.map Diagnostic.position)
  pure outcome

/-- Forgets what the parser wrote down. -/
def hushed (p : Parser Watch τ α) : Parser Watch τ α := fun input =>
  liftM (Prod.fst <$> (p input).run : Run _)

end Parser

variable {N : Names} {τ : Type} [Observes N.Tracer Run] [Token τ]

/-- The parser that a grammar stands for, watched. -/
def Grammar.watch (call : (rule : N.Rule) → Parser Watch τ (N.Result rule)) {α : Type} :
    Grammar N τ α → Parser Watch τ α
  | satisfy accepts expected => (Parser.satisfy accepts expected).raising
  | succeed value => Parser.succeed value
  | fail message => (Parser.fail message).raising
  | endOfInput => Parser.endOfInput.raising
  | custom run => Parser.ofFunction run
  | map f p => Parser.map f (p.watch call)
  | sequence ps => Parser.sequence (List.ofFn fun i => (ps i).watch call)
  | bind p _ next => Parser.bind (p.watch call) fun value => (next value).watch call
  | bindAll p _ nexts =>
    Parser.bindAll (p.watch call) (List.ofFn fun i => fun value => (nexts i value).watch call)
  | choice policy ps => Parser.choice policy (List.ofFn fun i => (ps i).watch call)
  | first p => Parser.first (p.watch call)
  | repeated extent p => Parser.repeated extent (p.watch call)
  | chainRight policy p op => Parser.chainRight policy (p.watch call) (op.watch call)
  | gather p => Parser.gather (p.watch call)
  | reportAs message p => Parser.reportAs message (p.watch call)
  | recover message default p => Parser.recover message default (p.watch call)
  | named name p => Parser.named name (p.watch call)
  | lookAhead p => Parser.lookAhead (p.watch call)
  | notAhead p => (Parser.notAhead (p.watch call).hushed).raising
  | traced tracer name p => Parser.traced tracer name (p.watch call)
  | withDepth tracer p => Parser.withDepth tracer (p.watch call)
  | deferred cell p => Parser.deferred cell (p.watch call)
  | rule r => call r

/-- Runs a rule, watched, with at most `limit` rule calls in progress. -/
def Rules.watch (rules : Rules N τ) : Nat → (rule : N.Rule) → Parser Watch τ (N.Result rule)
  | 0, _ => fun _ => Aborts.abort .runaway
  | limit + 1, rule => fun input =>
    match rules rule with
    | .ok pattern => pattern.watch (rules.watch limit) input
    | .error fault => Aborts.abort fault

end Multiparse
