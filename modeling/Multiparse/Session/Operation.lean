import Multiparse.Session.Basic

/-!
# What can be done in a session

Each operation gives an answer or stops with a fault; either way the session goes on from the state
it was left in. A traced block switches a tracer on for its steps and off again after them, unless
one of them stops with a fault.
-/

namespace Multiparse

/-- One thing to do in a session. -/
inductive Operation (τ ρ : Type) : Type 1 where
  /-- Makes a rule and puts a handle to it into a slot. -/
  | declare (slot : String) (name : String)
  /-- Copies a rule handle to another slot. -/
  | share (source target : String)
  /-- Gives the rule in a slot its pattern. -/
  | define (slot : String) (script : Script τ ρ)
  | isDefined (slot : String)
  | ruleName (slot : String)
  | ruleText (slot : String)
  /-- Lets go of a rule handle; answers whether there was one. -/
  | release (slot : String)
  /-- Stores a weak reference to a rule as a parser. -/
  | refer (rule slot : String)
  /-- Moves a rule handle out of its slot into a stored parser. -/
  | adopt (rule slot : String)
  /-- Builds a script and stores it. -/
  | store (slot : String) (script : Script τ ρ)
  /-- Lets go of a stored parser; answers whether there was one. -/
  | discard (slot : String)
  /-- Runs a stored parser. -/
  | parse (slot : String) (tokens : List τ)
  /-- Runs a stored parser and asks for a single reading of all tokens. -/
  | parseWhole (slot : String) (tokens : List τ)
  /-- Runs a rule through its handle. -/
  | parseRule (slot : String) (tokens : List τ)
  /-- Runs a script that is not stored. -/
  | parseScript (script : Script τ ρ) (tokens : List τ)
  /-- How many deferred parsers were built so far. -/
  | countBuilt
  | newTracer (slot : String) (enabled : Bool)
  /-- Puts another handle to the same tracer into a slot. -/
  | shareTracer (source target : String)
  | switchTracer (slot : String) (enabled : Bool)
  | tracerState (slot : String)

/-- What an operation answers. -/
inductive Answer (τ ρ : Type) where
  | done
  | truth (b : Bool)
  | text (s : String)
  | count (n : Nat)
  | outcome (outcome : Outcome τ ρ)
  | result (result : Except Diagnostic ρ)
  | tracer (tracer : Tracer)
  | all (answers : List (Answer τ ρ))

/-- A step of a session: an operation, or several with a tracer switched on. -/
inductive Step (τ ρ : Type) : Type 1 where
  | operation (operation : Operation τ ρ)
  | within (tracer : String) (steps : List (Step τ ρ))

namespace Session

variable {τ ρ : Type}

/-- Stops with a fault that is written to the log. -/
def stop (session : Session τ ρ) (fault : Fault) :
    Except Fault (Answer τ ρ) × Session τ ρ :=
  (.error fault, session.onMachine (Machine.note (.faulted fault)))

/-- Goes on with the number of the cell in a slot. -/
def withRule (session : Session τ ρ) (slot : String)
    (next : Nat → Except Fault (Answer τ ρ) × Session τ ρ) :
    Except Fault (Answer τ ρ) × Session τ ρ :=
  match session.rules.get? slot with
  | some number => next number
  | none => session.stop (.unknown slot)

/-- Goes on with the cell in a slot. -/
def withCell (session : Session τ ρ) (slot : String)
    (next : Cell τ ρ → Except Fault (Answer τ ρ) × Session τ ρ) :
    Except Fault (Answer τ ρ) × Session τ ρ :=
  session.withRule slot fun number =>
    match session.cells[number]? with
    | some cell => next cell
    | none => session.stop (.unknown slot)

/-- Goes on with the number of the tracer in a slot. -/
def withTracer (session : Session τ ρ) (slot : String)
    (next : Nat → Except Fault (Answer τ ρ) × Session τ ρ) :
    Except Fault (Answer τ ρ) × Session τ ρ :=
  match session.tracers.get? slot with
  | some number => next number
  | none => session.stop (.unknown slot)

/-- Goes on with the pattern that a script stands for. -/
def withBuilt (session : Session τ ρ) (script : Script τ ρ)
    (next : Pattern τ ρ → Except Fault (Answer τ ρ) × Session τ ρ) :
    Except Fault (Answer τ ρ) × Session τ ρ :=
  match session.build script with
  | .ok pattern => next pattern
  | .error fault => session.stop fault

/-- Gives a cell its pattern; a cell that has one keeps it. -/
def define (session : Session τ ρ) (number : Nat) (pattern : Pattern τ ρ) :
    Except Fault (Answer τ ρ) × Session τ ρ :=
  match session.cells[number]? with
  | none => session.stop (.unknown (toString number))
  | some cell =>
    if cell.isDefined then session.stop (.redefined cell.name)
    else (.ok .done, session.onCell number fun cell => { cell with pattern := some pattern })

/-- Runs a pattern and answers something about its outcome. -/
def answerWith [Token τ] (session : Session τ ρ) (pattern : Pattern τ ρ) (tokens : List τ)
    (answer : Outcome τ ρ → Answer τ ρ) : Except Fault (Answer τ ρ) × Session τ ρ :=
  let (result, session) := session.run pattern tokens
  (result.map answer, session)

/-- Carries out an operation, before cells that lost their last holder are freed. -/
def perform [Token τ] (session : Session τ ρ) :
    Operation τ ρ → Except Fault (Answer τ ρ) × Session τ ρ
  | .declare slot name =>
    (.ok .done,
      { session with
        cells := session.cells ++ [.fresh name]
        rules := session.rules.put slot session.cells.length })
  | .share source target =>
    session.withRule source fun number =>
      (.ok .done, { session with rules := session.rules.put target number })
  | .define slot script =>
    session.withRule slot fun number => session.withBuilt script (session.define number)
  | .isDefined slot => session.withCell slot fun cell => (.ok (.truth cell.isDefined), session)
  | .ruleName slot => session.withCell slot fun cell => (.ok (.text cell.name), session)
  | .ruleText slot => session.withCell slot fun cell => (.ok (.text cell.inspect), session)
  | .release slot =>
    (.ok (.truth (session.rules.get? slot).isSome),
      { session with rules := session.rules.erase slot })
  | .refer rule slot =>
    session.withRule rule fun number =>
      (.ok .done, { session with parsers := session.parsers.put slot (.weak number) })
  | .adopt rule slot =>
    session.withRule rule fun number =>
      (.ok .done,
        { session with
          rules := session.rules.erase rule
          parsers := session.parsers.put slot (.owning number) })
  | .store slot script =>
    session.withBuilt script fun pattern =>
      (.ok .done,
        { session with
          cells := session.cells ++ [.filled pattern]
          parsers := session.parsers.put slot (.owning session.cells.length) })
  | .discard slot =>
    (.ok (.truth (session.parsers.get? slot).isSome),
      { session with parsers := session.parsers.erase slot })
  | .parse slot tokens =>
    session.withBuilt (.rule (N := slotNames ρ) (.stored slot)) fun pattern =>
      session.answerWith pattern tokens .outcome
  | .parseWhole slot tokens =>
    session.withBuilt (.rule (N := slotNames ρ) (.stored slot)) fun pattern =>
      session.answerWith pattern tokens fun outcome => .result outcome.whole
  | .parseRule slot tokens =>
    session.withBuilt (.rule (N := slotNames ρ) (.owning slot)) fun pattern =>
      session.answerWith pattern tokens .outcome
  | .parseScript script tokens =>
    session.withBuilt script fun pattern => session.answerWith pattern tokens .outcome
  | .countBuilt => (.ok (.count session.machine.built.length), session)
  | .newTracer slot enabled =>
    (.ok .done,
      { session with
        tracers := session.tracers.put slot session.machine.tracers.length
        machine :=
          { session.machine with tracers := session.machine.tracers ++ [.fresh enabled] } })
  | .shareTracer source target =>
    session.withTracer source fun number =>
      (.ok .done, { session with tracers := session.tracers.put target number })
  | .switchTracer slot enabled =>
    session.withTracer slot fun number =>
      (.ok .done,
        session.onMachine (Machine.modifyTracer number fun tracer => { tracer with enabled }))
  | .tracerState slot =>
    session.withTracer slot fun number =>
      (.ok (.tracer (session.machine.tracer number)), session)

/-- Carries out an operation and frees the cells that lost their last holder. -/
def operate [Token τ] (session : Session τ ρ) (operation : Operation τ ρ) :
    Except Fault (Answer τ ρ) × Session τ ρ :=
  let (answer, session) := session.perform operation
  (answer, session.settle)

mutual

/-- Carries out a step. -/
def take [Token τ] (session : Session τ ρ) :
    Step τ ρ → Except Fault (Answer τ ρ) × Session τ ρ
  | .operation operation => session.operate operation
  | .within slot steps =>
    session.withTracer slot fun number =>
      let opened := session.onMachine (Machine.modifyTracer number fun _ => .fresh true)
      match takeAll opened steps with
      | (.ok answers, session) =>
        (.ok (.all answers), session.onMachine (Machine.modifyTracer number fun _ => .fresh false))
      | (.error fault, session) => (.error fault, session)

/-- Carries out steps until one stops with a fault. -/
def takeAll [Token τ] (session : Session τ ρ) :
    List (Step τ ρ) → Except Fault (List (Answer τ ρ)) × Session τ ρ
  | [] => (.ok [], session)
  | step :: steps =>
    match session.take step with
    | (.error fault, session) => (.error fault, session)
    | (.ok answer, session) =>
      match takeAll session steps with
      | (.error fault, session) => (.error fault, session)
      | (.ok answers, session) => (.ok (answer :: answers), session)

end

/-- What a step answered and what it wrote to the log. -/
structure Response (τ ρ : Type) where
  answer : Except Fault (Answer τ ρ)
  log : List Record

/-- Carries out a step with an empty journal. -/
def respond [Token τ] (session : Session τ ρ) (step : Step τ ρ) :
    Response τ ρ × Session τ ρ :=
  let (answer, session) :=
    (session.onMachine fun machine => { machine with journal := [] }).take step
  (⟨answer, session.machine.log⟩, session)

/-- Carries out all steps; a fault ends its own step only. -/
def replay [Token τ] (session : Session τ ρ) : List (Step τ ρ) → List (Response τ ρ)
  | [] => []
  | step :: steps =>
    let (response, session) := session.respond step
    response :: replay session steps

/-- Carries out all steps; a fault ends the work. -/
def attempt [Token τ] (session : Session τ ρ) :
    List (Step τ ρ) → Except Fault (List (Response τ ρ))
  | [] => .ok []
  | step :: steps =>
    let (response, session) := session.respond step
    match response.answer with
    | .error fault => .error fault
    | .ok _ => (attempt session steps).map fun responses => response :: responses

end Session

end Multiparse
