import Multiparse.Parser.Ahead
import Multiparse.Parser.Chain
import Multiparse.Parser.Deferred
import Multiparse.Parser.Gather
import Multiparse.Parser.Repeat
import Multiparse.Parser.Report
import Multiparse.Parser.Watch

/-!
# Grammars

A grammar is a parser as data. It refers to rules and tracers by name only, so a rule may be used
before it has a pattern and may use itself; `Grammar.interpret` turns a grammar into a parser once
it is known how to run a rule.

`Grammar.references` lists the rules a grammar mentions, and `Grammar.resolve` puts other names or
whole grammars in their place.
-/

namespace Multiparse

/-- The names a grammar may use. -/
structure Names where
  Rule : Type
  [decidableEqRule : DecidableEq Rule]
  /-- The type of the values that a rule reads. -/
  Result : Rule → Type
  Tracer : Type

attribute [instance] Names.decidableEqRule

/-- Grammars that read values of a type from tokens of type `τ`. A continuation is an arbitrary
function, so the rules it may mention are listed beside it. -/
inductive Grammar (N : Names) (τ : Type) : Type → Type 1 where
  /-- One token that a predicate accepts. -/
  | satisfy (accepts : τ → Bool) (expected : String) : Grammar N τ τ
  /-- A value without consuming anything. -/
  | succeed {α : Type} (value : α) : Grammar N τ α
  /-- A failure with a message. -/
  | fail {α : Type} (message : String) : Grammar N τ α
  /-- The end of the input. -/
  | endOfInput : Grammar N τ Unit
  /-- A parser given as a function. -/
  | custom {α : Type} (run : Residual τ → Outcome τ α) : Grammar N τ α
  /-- Every value changed by a function. -/
  | map {α β : Type} (f : α → β) (p : Grammar N τ α) : Grammar N τ β
  /-- One grammar after another, with the list of their values. -/
  | sequence {α : Type} {count : Nat} (ps : Fin count → Grammar N τ α) : Grammar N τ (List α)
  /-- A grammar and then one computed from its value. -/
  | bind {α β : Type} (p : Grammar N τ α) (held : List N.Rule) (next : α → Grammar N τ β) :
      Grammar N τ β
  /-- A grammar and then continuations one after another. -/
  | bindAll {α : Type} (p : Grammar N τ α) (held : List N.Rule) {count : Nat}
      (nexts : Fin count → α → Grammar N τ α) : Grammar N τ α
  /-- One of several grammars. -/
  | choice {α : Type} (policy : Policy) {count : Nat} (ps : Fin count → Grammar N τ α) :
      Grammar N τ α
  /-- Only the first reading. -/
  | first {α : Type} (p : Grammar N τ α) : Grammar N τ α
  /-- Items one after another. -/
  | repeated {α : Type} (extent : Extent) (p : Grammar N τ α) : Grammar N τ (List α)
  /-- Operands with operators between them, grouped to the right. -/
  | chainRight {α : Type} (policy : Policy) (p : Grammar N τ α) (op : Grammar N τ (α → α → α)) :
      Grammar N τ α
  /-- One reading for each place where the grammar stops. -/
  | gather {α : Type} (p : Grammar N τ α) : Grammar N τ (List α)
  /-- A failure reported in other words. -/
  | reportAs {α : Type} (message : String) (p : Grammar N τ α) : Grammar N τ α
  /-- A default value in place of a failure. -/
  | recover {α : Type} (message : String) (default : α) (p : Grammar N τ α) : Grammar N τ α
  /-- A failure reported by the name of what was wanted. -/
  | named {α : Type} (name : String) (p : Grammar N τ α) : Grammar N τ α
  /-- All values at once without consuming anything. -/
  | lookAhead {α : Type} (p : Grammar N τ α) : Grammar N τ (List α)
  /-- Success where the grammar fails. -/
  | notAhead {α : Type} (p : Grammar N τ α) : Grammar N τ Unit
  /-- A grammar between an entry and an exit record. -/
  | traced {α : Type} (tracer : N.Tracer) (name : String) (p : Grammar N τ α) : Grammar N τ α
  /-- Every value with the depth of a tracer. -/
  | withDepth {α : Type} (tracer : N.Tracer) (p : Grammar N τ α) : Grammar N τ (α × Nat)
  /-- A grammar built when it first runs. -/
  | deferred {α : Type} (cell : Nat) (p : Grammar N τ α) : Grammar N τ α
  /-- Whatever the rule's pattern is when it runs. -/
  | rule (r : N.Rule) : Grammar N τ (N.Result r)

namespace Grammar

variable {N M : Names} {τ α : Type}

instance : Inhabited (Grammar N τ α) := ⟨fail ""⟩

/-- The rules that a grammar mentions. -/
def references {α : Type} : Grammar N τ α → List N.Rule
  | satisfy _ _ => []
  | succeed _ => []
  | fail _ => []
  | endOfInput => []
  | custom _ => []
  | map _ p => p.references
  | sequence ps => (List.ofFn fun i => (ps i).references).flatten
  | bind p held _ => p.references ++ held
  | bindAll p held _ => p.references ++ held
  | choice _ ps => (List.ofFn fun i => (ps i).references).flatten
  | first p => p.references
  | repeated _ p => p.references
  | chainRight _ p op => p.references ++ op.references
  | gather p => p.references
  | reportAs _ p => p.references
  | recover _ _ p => p.references
  | named _ p => p.references
  | lookAhead p => p.references
  | notAhead p => p.references
  | traced _ _ p => p.references
  | withDepth _ p => p.references
  | deferred _ p => p.references
  | rule r => [r]

/-- Puts a grammar in the place of each rule and another tracer in the place of each tracer. -/
def resolve (rules : (rule : N.Rule) → Grammar M τ (N.Result rule)) (tracers : N.Tracer → M.Tracer)
    {α : Type} : Grammar N τ α → Grammar M τ α
  | satisfy accepts expected => .satisfy accepts expected
  | succeed value => .succeed value
  | fail message => .fail message
  | endOfInput => .endOfInput
  | custom run => .custom run
  | map f p => .map f (p.resolve rules tracers)
  | sequence ps => .sequence fun i => (ps i).resolve rules tracers
  | bind p held next =>
    .bind (p.resolve rules tracers) (held.flatMap fun rule => (rules rule).references)
      fun value => (next value).resolve rules tracers
  | bindAll p held nexts =>
    .bindAll (p.resolve rules tracers) (held.flatMap fun rule => (rules rule).references)
      fun i value => (nexts i value).resolve rules tracers
  | choice policy ps => .choice policy fun i => (ps i).resolve rules tracers
  | first p => .first (p.resolve rules tracers)
  | repeated extent p => .repeated extent (p.resolve rules tracers)
  | chainRight policy p op =>
    .chainRight policy (p.resolve rules tracers) (op.resolve rules tracers)
  | gather p => .gather (p.resolve rules tracers)
  | reportAs message p => .reportAs message (p.resolve rules tracers)
  | recover message default p => .recover message default (p.resolve rules tracers)
  | named name p => .named name (p.resolve rules tracers)
  | lookAhead p => .lookAhead (p.resolve rules tracers)
  | notAhead p => .notAhead (p.resolve rules tracers)
  | traced tracer name p => .traced (tracers tracer) name (p.resolve rules tracers)
  | withDepth tracer p => .withDepth (tracers tracer) (p.resolve rules tracers)
  | deferred cell p => .deferred cell (p.resolve rules tracers)
  | rule r => rules r

section Interpretation

variable {m : Type → Type} [Monad m] [Aborts m] [Defers m] [Observes N.Tracer m] [Token τ]

/-- The parser that a grammar stands for, given how to run a rule. -/
def interpret (call : (rule : N.Rule) → Parser m τ (N.Result rule)) {α : Type} :
    Grammar N τ α → Parser m τ α
  | satisfy accepts expected => Parser.satisfy accepts expected
  | succeed value => Parser.succeed value
  | fail message => Parser.fail message
  | endOfInput => Parser.endOfInput
  | custom run => Parser.ofFunction run
  | map f p => Parser.map f (p.interpret call)
  | sequence ps => Parser.sequence (List.ofFn fun i => (ps i).interpret call)
  | bind p _ next => Parser.bind (p.interpret call) fun value => (next value).interpret call
  | bindAll p _ nexts =>
    Parser.bindAll (p.interpret call)
      (List.ofFn fun i => fun value => (nexts i value).interpret call)
  | choice policy ps => Parser.choice policy (List.ofFn fun i => (ps i).interpret call)
  | first p => Parser.first (p.interpret call)
  | repeated extent p => Parser.repeated extent (p.interpret call)
  | chainRight policy p op => Parser.chainRight policy (p.interpret call) (op.interpret call)
  | gather p => Parser.gather (p.interpret call)
  | reportAs message p => Parser.reportAs message (p.interpret call)
  | recover message default p => Parser.recover message default (p.interpret call)
  | named name p => Parser.named name (p.interpret call)
  | lookAhead p => Parser.lookAhead (p.interpret call)
  | notAhead p => Parser.notAhead (p.interpret call)
  | traced tracer name p => Parser.traced tracer name (p.interpret call)
  | withDepth tracer p => Parser.withDepth tracer (p.interpret call)
  | deferred cell p => Parser.deferred cell (p.interpret call)
  | rule r => call r

end Interpretation

end Grammar

end Multiparse
