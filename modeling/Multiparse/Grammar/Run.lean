import Multiparse.Grammar.Basic

/-!
# Running grammars

Rules may call each other without end, so a run is given a limit on how many rule calls may be in
progress at once; beyond it the run stops with a fault. A run that returns gives the same outcome
under every higher limit.
-/

namespace Multiparse

/-- What each rule stands for, or why it cannot be run. -/
abbrev Rules (N : Names) (τ : Type) : Type 1 :=
  (rule : N.Rule) → Except Fault (Grammar N τ (N.Result rule))

namespace Rules

variable {N : Names} {τ : Type} {m : Type → Type} [Monad m] [Aborts m] [Defers m]
  [Observes N.Tracer m] [Token τ]

/-- Runs a rule with at most `limit` rule calls in progress. -/
def call (rules : Rules N τ) : Nat → (rule : N.Rule) → Parser m τ (N.Result rule)
  | 0, _ => fun _ => Aborts.abort .runaway
  | limit + 1, rule => fun input =>
    match rules rule with
    | .ok pattern => pattern.interpret (call rules limit) input
    | .error fault => Aborts.abort fault

end Rules

namespace Grammar

variable {N : Names} {τ α : Type} {m : Type → Type} [Monad m] [Aborts m] [Defers m]
  [Observes N.Tracer m] [Token τ]

/-- Runs a grammar under rules, with at most `limit` rule calls in progress. -/
def run (rules : Rules N τ) (limit : Nat) (g : Grammar N τ α) : Parser m τ α :=
  g.interpret (rules.call limit)

/-- The outcome of a grammar on all of a token sequence, or the fault that stopped its run. -/
def parse (rules : Rules N τ) (limit : Nat) (g : Grammar N τ α) (tokens : List τ) :
    Except Fault (Outcome τ α) :=
  g.run rules limit (Residual.start tokens)

end Grammar

end Multiparse
