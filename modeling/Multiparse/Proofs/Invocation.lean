import Mathlib.Control.Monad.Writer
import Multiparse.Proofs.Correspondence
import Multiparse.Proofs.Raised

/-!
# The invocations of a run

A charted run does what the plain run does and besides draws up which traced parsers were invoked,
in which order, and which of them within which. The chart does not depend on the tracers: it is a
list of trees, and the tree of an invocation holds what was drawn up between its beginning and its
end. From a chart the records of the run can be read off (`Invocation.events`).
-/

namespace Multiparse

/-- How the invocation of a traced parser ended. -/
inductive Ending where
  /-- It succeeded; its readings stopped at these offsets. -/
  | matched (stops : List Nat)
  /-- It failed. -/
  | failed (reason : Diagnostic)

namespace Ending

/-- How an invocation ended that had this outcome. -/
def ofOutcome {τ α : Type} (outcome : Outcome τ α) : Ending :=
  if outcome.success then .matched outcome.stops else .failed (outcome.error.getD .noAlternative)

/-- What there is to record about the end. -/
def event (depth : Nat) (name : String) : Ending → Event
  | .matched stops => .matched depth name stops
  | .failed reason => .failed depth name reason

/-- Leaving a traced parser is worth a record, since a failure gives a reason. -/
theorem event_ofOutcome {τ α : Type} {outcome : Outcome τ α} (formed : outcome.WellFormed)
    (depth : Nat) (name : String) :
    Event.ofOutcome depth name outcome = some ((ofOutcome outcome).event depth name) := by
  unfold Event.ofOutcome ofOutcome
  split
  next => rfl
  next failed =>
    obtain ⟨reason, present⟩ := Option.isSome_iff_exists.mp (formed.reason (by simpa using failed))
    rw [present]
    rfl

end Ending

/-- An invocation of a traced parser, with those made inside it. -/
inductive Invocation where
  | mk (tracer : Nat) (name : String) (position : Position) (ending : Ending)
      (inner : List Invocation)

namespace Invocation

mutual

/-- The events of an invocation while others are in progress, those of the tracers `above`. A tracer
that is enabled notes its beginning and its end, both with the tracer's depth at the start of the run
and one more for each invocation of the same tracer in progress. Between them lie the events of the
invocations made inside. -/
def events (tracers : List Tracer) (above : List Nat) : Invocation → List Event
  | ⟨number, name, position, ending, inner⟩ =>
    let tracer := tracers.getD number (.fresh false)
    let depth := tracer.depth + above.count number
    if tracer.enabled then
      .entered depth name position ::
        (eventsOfAll tracers (number :: above) inner ++ [ending.event depth name])
    else eventsOfAll tracers (number :: above) inner

/-- The events of invocations one after another. -/
def eventsOfAll (tracers : List Tracer) (above : List Nat) : List Invocation → List Event
  | [] => []
  | call :: calls => events tracers above call ++ eventsOfAll tracers above calls

end

variable {tracers : List Tracer} {above : List Nat}

theorem eventsOfAll_append (calls later : List Invocation) :
    eventsOfAll tracers above (calls ++ later) =
      eventsOfAll tracers above calls ++ eventsOfAll tracers above later := by
  induction calls with
  | nil => rfl
  | cons call calls ih => rw [List.cons_append, eventsOfAll, ih, eventsOfAll, List.append_assoc]

theorem eventsOfAll_singleton (call : Invocation) :
    eventsOfAll tracers above [call] = call.events tracers above := by
  rw [eventsOfAll, eventsOfAll, List.append_nil]

end Invocation

/-! ## Charted runs -/

/-- Runs that draw up invocations. -/
abbrev Chart : Type → Type := WriterT (List Invocation) Run

namespace Chart

instance : Aborts Chart where
  abort fault := liftM (Aborts.abort fault : Run _)

instance : Defers Chart where
  build cell := liftM (Defers.build cell : Run _)

instance {θ : Type} [Observes θ Run] : Observes θ Chart where
  enter tracer name position := liftM (Observes.enter tracer name position : Run _)
  leave tracer exit := liftM (Observes.leave tracer exit : Run _)
  depth tracer := liftM (Observes.depth tracer : Run _)

end Chart

/-- Draws up the run of the parser as one invocation, with what was drawn up meanwhile inside. -/
def Parser.enclosing {τ α : Type} (tracer : Nat) (name : String) (p : Parser Chart τ α) :
    Parser Chart τ α := fun input =>
  WriterT.mk do
    let (outcome, calls) ← (p input).run
    pure (outcome, [⟨tracer, name, input.position, .ofOutcome outcome, calls⟩])

/-- Names for rules, and numbered tracers. -/
abbrev Names.numbered (Rule : Type) [DecidableEq Rule] (Result : Rule → Type) : Names :=
  ⟨Rule, Result, Nat⟩

variable {Rule : Type} [DecidableEq Rule] {Result : Rule → Type} {τ : Type} [Token τ]

/-- The parser that a grammar stands for, charted. -/
def Grammar.chart (call : (rule : Rule) → Parser Chart τ (Result rule)) {α : Type} :
    Grammar (.numbered Rule Result) τ α → Parser Chart τ α
  | satisfy accepts expected => Parser.satisfy accepts expected
  | succeed value => Parser.succeed value
  | fail message => Parser.fail message
  | endOfInput => Parser.endOfInput
  | custom run => Parser.ofFunction run
  | map f p => Parser.map f (p.chart call)
  | sequence ps => Parser.sequence (List.ofFn fun i => (ps i).chart call)
  | bind p _ next => Parser.bind (p.chart call) fun value => (next value).chart call
  | bindAll p _ nexts =>
    Parser.bindAll (p.chart call) (List.ofFn fun i => fun value => (nexts i value).chart call)
  | choice policy ps => Parser.choice policy (List.ofFn fun i => (ps i).chart call)
  | first p => Parser.first (p.chart call)
  | repeated extent p => Parser.repeated extent (p.chart call)
  | chainRight policy p op => Parser.chainRight policy (p.chart call) (op.chart call)
  | gather p => Parser.gather (p.chart call)
  | reportAs message p => Parser.reportAs message (p.chart call)
  | recover message default p => Parser.recover message default (p.chart call)
  | named name p => Parser.named name (p.chart call)
  | lookAhead p => Parser.lookAhead (p.chart call)
  | notAhead p => Parser.notAhead (p.chart call)
  | traced tracer name p => (Parser.traced tracer name (p.chart call)).enclosing tracer name
  | withDepth tracer p => Parser.withDepth tracer (p.chart call)
  | deferred cell p => Parser.deferred cell (p.chart call)
  | rule r => call r

/-- Runs a rule, charted, with at most `limit` rule calls in progress. -/
def Rules.chart (rules : Rules (.numbered Rule Result) τ) :
    Nat → (rule : Rule) → Parser Chart τ (Result rule)
  | 0, _ => fun _ => Aborts.abort .runaway
  | limit + 1, rule => fun input =>
    match rules rule with
    | .ok pattern => pattern.chart (rules.chart limit) input
    | .error fault => Aborts.abort fault

end Multiparse
