import Multiparse.Grammar.Run

/-!
# Watched runs

A machine holds what a run leaves behind besides its outcome: the state of the tracers, the log,
and which deferred parsers were built. It keeps what it holds when a run stops with a fault.
-/

namespace Multiparse

/-- A switch with a count of the traced parsers in progress. -/
structure Tracer where
  enabled : Bool
  depth : Nat
  deriving DecidableEq

namespace Tracer

/-- A fresh tracer. -/
def fresh (enabled : Bool) : Tracer := ⟨enabled, 0⟩

/-- One more traced parser is in progress. -/
def descend (tracer : Tracer) : Tracer := { tracer with depth := tracer.depth + 1 }

/-- One traced parser fewer is in progress. -/
def ascend (tracer : Tracer) : Tracer := { tracer with depth := tracer.depth - 1 }

end Tracer

/-- What a run leaves behind. -/
structure Machine where
  tracers : List Tracer
  /-- What happened, latest first. -/
  journal : List Event
  /-- The cells of deferred parsers that were filled. -/
  built : List Nat

namespace Machine

/-- A machine without tracers on which nothing has run. -/
def initial : Machine := ⟨[], [], []⟩

/-- The state of a tracer; one that was never made is switched off. -/
def tracer (machine : Machine) (number : Nat) : Tracer :=
  machine.tracers.getD number (.fresh false)

/-- Changes the state of a tracer. -/
def modifyTracer (number : Nat) (change : Tracer → Tracer) (machine : Machine) : Machine :=
  { machine with tracers := machine.tracers.modify number change }

/-- Writes an event to the journal. -/
def note (event : Event) (machine : Machine) : Machine :=
  { machine with journal := event :: machine.journal }

/-- The records written, in the order of writing. -/
def log (machine : Machine) : List Record := machine.journal.reverse.map Event.toRecord

/-- Enters a traced parser and gives its depth; an enabled tracer notes it. -/
def enter (number : Nat) (name : String) (position : Position) (machine : Machine) :
    Nat × Machine :=
  let tracer := machine.tracer number
  let deeper := machine.modifyTracer number Tracer.descend
  (tracer.depth,
    if tracer.enabled then deeper.note (.entered tracer.depth name position) else deeper)

/-- Leaves a traced parser; an enabled tracer notes how it went. -/
def leave (number : Nat) (exit : Option Event) (machine : Machine) : Machine :=
  let higher := machine.modifyTracer number Tracer.ascend
  match exit with
  | some event => if (higher.tracer number).enabled then higher.note event else higher
  | none => higher

/-- Fills a deferred parser's cell unless it was filled before. -/
def build (cell : Nat) (machine : Machine) : Machine :=
  if machine.built.contains cell then machine else { machine with built := cell :: machine.built }

end Machine

/-- Runs on a machine that may stop with a fault. -/
abbrev Run : Type → Type := ExceptT Fault (StateM Machine)

namespace Run

instance : Aborts Run where
  abort fault := do
    modify (Machine.note (.faulted fault))
    throw fault

instance : Defers Run where
  build cell := modify (Machine.build cell)

instance : Observes Nat Run where
  enter number name position := modifyGet (Machine.enter number name position)
  leave number exit := modify (Machine.leave number exit)
  depth number := do
    let machine ← get
    pure (machine.tracer number).depth

end Run

end Multiparse
