import Multiparse.Proofs.FarthestError
import Multiparse.Proofs.Invocation

/-!
# Records are nested as invocations are

The depth of a tracer goes up when a traced parser is entered and down when it is left, and whatever
runs in between does the same. So a run that returns leaves every tracer as deep as it was, and its
records are those of its chart (`records_nested`).
-/

namespace Multiparse

/-! ## Tracers of invocations in progress -/

/-- The tracers while invocations are in progress. -/
def Tracer.deepened (tracers : List Tracer) (above : List Nat) : List Tracer :=
  above.foldr (fun number deeper => deeper.modify number Tracer.descend) tracers

namespace Tracer

variable {tracers : List Tracer} {above : List Nat} {number : Nat}

theorem deepened_cons :
    deepened tracers (number :: above) = (deepened tracers above).modify number descend := rfl

theorem length_deepened : (deepened tracers above).length = tracers.length := by
  induction above with
  | nil => rfl
  | cons number above ih => rw [deepened_cons, List.length_modify, ih]

/-- Coming back up undoes having gone down. -/
theorem modify_ascend_descend :
    (tracers.modify number descend).modify number ascend = tracers := by
  rw [List.modify_modify_eq]
  exact List.modify_id number tracers

/-- A change to one tracer, seen at any other. -/
theorem getD_modify (change : Tracer → Tracer) (other : Nat) (default : Tracer) :
    (tracers.modify number change).getD other default =
      if number = other ∧ other < tracers.length then change (tracers.getD other default)
      else tracers.getD other default := by
  rw [List.getD_eq_getElem?_getD, List.getD_eq_getElem?_getD, List.getElem?_modify]
  by_cases inside : other < tracers.length
  · rw [List.getElem?_eq_getElem inside]
    by_cases same : number = other <;> simp [same, inside]
  · rw [List.getElem?_eq_none (Nat.le_of_not_lt inside)]
    simp [inside]

/-- A tracer stays switched on or off. -/
theorem enabled_getD_deepened :
    ((deepened tracers above).getD number (.fresh false)).enabled =
      (tracers.getD number (.fresh false)).enabled := by
  induction above with
  | nil => rfl
  | cons other above ih =>
    rw [deepened_cons, getD_modify]
    split
    · exact ih
    · exact ih

/-- The depth of a tracer counts the invocations in progress that it watches. -/
theorem depth_getD_deepened (inside : number < tracers.length) :
    ((deepened tracers above).getD number (.fresh false)).depth =
      (tracers.getD number (.fresh false)).depth + above.count number := by
  induction above with
  | nil => rfl
  | cons other above ih =>
    rw [deepened_cons, getD_modify, length_deepened, List.count_cons]
    by_cases same : other = number
    · rw [if_pos ⟨same, inside⟩, descend, ih]
      simp [same, Nat.add_assoc]
    · rw [if_neg (fun both => same both.1), ih]
      simp [same]

/-- Only a tracer that was made can be switched on. -/
theorem lt_of_enabled (enabled : (tracers.getD number (.fresh false)).enabled = true) :
    number < tracers.length := by
  by_contra outside
  rw [List.getD_eq_getElem?_getD, List.getElem?_eq_none (Nat.le_of_not_lt outside)] at enabled
  cases enabled

end Tracer

/-! ## Runs that follow a chart -/

/-- Between the machines lie the invocations: tracers are as deep as before, and the events are those
of the invocations, made while those of the tracers `above` were in progress. -/
structure Recorded (tracers : List Tracer) (above : List Nat) (before : Machine)
    (calls : List Invocation) (after : Machine) : Prop where
  tracers_eq : after.tracers = before.tracers
  journal_eq : after.journal =
    (Invocation.eventsOfAll tracers above calls).reverse ++ before.journal

namespace Recorded

variable {tracers : List Tracer} {above : List Nat} {before middle after : Machine}
  {calls later : List Invocation}

theorem refl : Recorded tracers above before [] before := ⟨rfl, rfl⟩

theorem append (first : Recorded tracers above before calls middle)
    (second : Recorded tracers above middle later after) :
    Recorded tracers above before (calls ++ later) after := by
  refine ⟨second.tracers_eq.trans first.tracers_eq, ?_⟩
  rw [second.journal_eq, first.journal_eq, Invocation.eventsOfAll_append, List.reverse_append,
    List.append_assoc]

/-- Entering a traced parser and leaving it encloses what was recorded between. -/
theorem enclose {number : Nat} {name : String} {position : Position} {ending : Ending}
    (start : before.tracers = Tracer.deepened tracers above)
    (within : Recorded tracers (number :: above) (before.enter number name position).2 calls
      middle) :
    Recorded tracers above before [⟨number, name, position, ending, calls⟩]
      (middle.leave number
        (some (ending.event (before.enter number name position).1 name))) := by
  have entered : (before.enter number name position).2.tracers =
      before.tracers.modify number Tracer.descend := by
    unfold Machine.enter
    dsimp only
    split <;> rfl
  have restored : middle.tracers.modify number Tracer.ascend = before.tracers := by
    rw [within.tracers_eq, entered, Tracer.modify_ascend_descend]
  have switch : (before.tracers.getD number (.fresh false)).enabled =
      (tracers.getD number (.fresh false)).enabled := by
    rw [start]
    exact Tracer.enabled_getD_deepened
  have journal := within.journal_eq
  constructor
  · unfold Machine.leave Machine.modifyTracer
    dsimp only
    split <;> exact restored
  · rw [Invocation.eventsOfAll_singleton, Invocation.events]
    unfold Machine.leave Machine.modifyTracer Machine.tracer
    unfold Machine.enter Machine.tracer at journal ⊢
    simp only [restored, switch] at journal ⊢
    cases enabled : (tracers.getD number (.fresh false)).enabled with
    | false =>
      rw [enabled] at journal
      exact journal
    | true =>
      rw [enabled] at journal
      have depth : (before.tracers.getD number (.fresh false)).depth =
          (tracers.getD number (.fresh false)).depth + above.count number := by
        rw [start]
        exact Tracer.depth_getD_deepened (Tracer.lt_of_enabled enabled)
      simp only [↓reduceIte, Machine.note, Machine.modifyTracer, depth] at journal ⊢
      rw [journal]
      simp

end Recorded

theorem Chart.ends_lift {A : Type} {action : Run A} {before after : Machine} {result : A}
    (ended : action.Ends before result after) :
    (liftM action : Chart A).run.Ends before (result, []) after :=
  Run.ends_map.mpr ⟨result, ended, rfl⟩

/-- The charted run returns what the plain one returns and leaves the same machine behind; what it
has drawn up is what was recorded. The tracers at the start of the whole run are given. -/
def Chart.Follows (tracers : List Tracer) {A B : Type} (related : A → B → Prop) (charted : Chart A)
    (run : Run B) : Prop :=
  ∀ above before result after, before.tracers = Tracer.deepened tracers above →
    run.Ends before result after →
      ∃ result' calls, charted.run.Ends before (result', calls) after ∧ related result' result ∧
        Recorded tracers above before calls after

namespace Chart.Follows

variable {tracers : List Tracer} {A A' B B' : Type} {related : A → A' → Prop} {charted : Chart A}
  {run : Run A'}

theorem pure {value : A} {value' : A'} (holds : related value value') :
    Follows tracers related (pure value) (pure value') := by
  intro above before result after start ended
  obtain ⟨rfl, rfl⟩ := Run.ends_pure.mp ended
  exact ⟨value, [], Run.ends_pure.mpr ⟨rfl, rfl⟩, holds, .refl⟩

theorem bind {related' : B → B' → Prop} {next : A → Chart B} {next' : A' → Run B'}
    (first : Follows tracers related charted run)
    (continues : ∀ value value', related value value' →
      Follows tracers related' (next value) (next' value')) :
    Follows tracers related' (charted >>= next) (run >>= next') := by
  intro above before result after start ended
  obtain ⟨value', middle, firstEnds, nextEnds⟩ := Run.ends_bind.mp ended
  obtain ⟨value, calls, chartedEnds, holds, recorded⟩ := first above _ _ _ start firstEnds
  have again := recorded.tracers_eq.trans start
  obtain ⟨final, later, laterEnds, finished, recordedLater⟩ :=
    continues value value' holds above _ _ _ again nextEnds
  exact ⟨final, calls ++ later, Run.ends_writer_bind chartedEnds laterEnds, finished,
    recorded.append recordedLater⟩

theorem abort (fault : Fault) :
    Follows tracers related (Aborts.abort fault) (Aborts.abort fault) := by
  intro above before result after start ended
  exact absurd ended Run.not_ends_abort

/-- What the machine does by itself is no invocation, as long as it leaves the tracers and the
journal alone. -/
theorem lift {action : Run A}
    (keeps : ∀ before result after, action.Ends before result after →
      after.tracers = before.tracers ∧ after.journal = before.journal) :
    Follows tracers (· = ·) (liftM action) action := by
  intro above before result after start ended
  obtain ⟨tracersKept, journalKept⟩ := keeps before result after ended
  exact ⟨result, [], Chart.ends_lift ended, rfl, tracersKept, journalKept⟩

end Chart.Follows

/-- Charted runs are compared with plain ones by whether these follow the chart. -/
def Chart.following (tracers : List Tracer) : Comparison Chart Run where
  Holds := Chart.Follows tracers
  pure := .pure
  bind := .bind
  abort := .abort

/-! ## Parsers that act on the machine -/

namespace Parser

variable {τ α : Type} {tracers : List Tracer} {p : Parser Chart τ α} {q : Parser Run τ α}

theorem enclosing_corresponds (number : Nat) (name : String)
    (part : Corresponds (Chart.following tracers) True p q) :
    Corresponds (Chart.following tracers) True
      ((traced number name p).enclosing number name) (traced number name q) := by
  intro input above before outcome after start ended
  -- The plain run enters, does what the part does, and leaves.
  obtain ⟨depth, middle, entered, restEnds⟩ := Run.ends_bind.mp ended
  obtain ⟨found, later, partEnds, leavingEnds⟩ := Run.ends_bind.mp restEnds
  obtain ⟨left, last, leaves, lastEnds⟩ := Run.ends_bind.mp leavingEnds
  obtain ⟨rfl, rfl⟩ := Run.ends_pure.mp lastEnds
  obtain ⟨rfl, rfl⟩ : (before.enter number name input.position).1 = depth ∧
      (before.enter number name input.position).2 = middle := by
    cases entered
    exact ⟨rfl, rfl⟩
  obtain rfl : later.leave number (Event.ofOutcome _ name found) = last := by
    cases leaves
    rfl
  have deeper : (before.enter number name input.position).2.tracers =
      Tracer.deepened tracers (number :: above) := by
    rw [Tracer.deepened_cons, ← start]
    unfold Machine.enter
    dsimp only
    split <;> rfl
  obtain ⟨found', calls, partCharted, alike, recorded⟩ :=
    part input (number :: above) _ _ _ deeper partEnds
  obtain rfl := alike.eq_of_exact
  refine ⟨found', [⟨number, name, input.position, .ofOutcome found', calls⟩], ?_, alike, ?_⟩
  · have whole : (traced number name p input).run.Ends before (found', [] ++ (calls ++ ([] ++ [])))
        (later.leave number
          (Event.ofOutcome (before.enter number name input.position).1 name found')) := by
      refine Run.ends_writer_bind (Chart.ends_lift entered) ?_
      refine Run.ends_writer_bind partCharted ?_
      refine Run.ends_writer_bind (Chart.ends_lift leaves) ?_
      exact Run.ends_pure.mpr ⟨rfl, rfl⟩
    simp only [List.nil_append, List.append_nil] at whole
    exact Run.ends_bind.mpr ⟨_, _, whole, Run.ends_pure.mpr ⟨rfl, rfl⟩⟩
  · rw [Ending.event_ofOutcome alike.wellFormed]
    exact recorded.enclose start

theorem deferred_corresponds (cell : Nat)
    (part : Corresponds (Chart.following tracers) True p q) :
    Corresponds (Chart.following tracers) True (deferred cell p) (deferred cell q) := by
  intro input
  have builds : Chart.Follows tracers (· = ·) (Defers.build cell) (Defers.build cell) := by
    apply Chart.Follows.lift
    intro before result after ended
    cases ended
    unfold Machine.build
    split <;> exact ⟨rfl, rfl⟩
  exact builds.bind fun _ _ _ => part input

theorem withDepth_corresponds (number : Nat)
    (part : Corresponds (Chart.following tracers) True p q) :
    Corresponds (Chart.following tracers) True (withDepth number p) (withDepth number q) := by
  intro input
  have looks : Chart.Follows tracers (· = ·) (Observes.depth number) (Observes.depth number) := by
    apply Chart.Follows.lift
    intro before result after ended
    cases ended
    exact ⟨rfl, rfl⟩
  apply Chart.Follows.bind (part input)
  intro outcome outcome' alike
  apply looks.bind
  intro depth depth' same
  subst same
  exact .pure (alike.map _)

end Parser

/-! ## Grammars -/

section Grammars

variable {Rule : Type} [DecidableEq Rule] {Result : Rule → Type} {τ α : Type} [Token τ]
  {tracers : List Tracer}

theorem Grammar.chart_corresponds {chart : (rule : Rule) → Parser Chart τ (Result rule)}
    {call : (rule : Rule) → Parser Run τ (Result rule)}
    (called : ∀ rule, Parser.Corresponds (Chart.following tracers) True (chart rule) (call rule))
    (g : Grammar (.numbered Rule Result) τ α)
    (customs : g.Customs fun run => ∀ input, (run input).WellFormed) :
    Parser.Corresponds (Chart.following tracers) True (g.chart chart) (g.interpret call) := by
  induction g with
  | satisfy accepts expected => exact Parser.satisfy_corresponds accepts fun _ => rfl
  | succeed value => exact Parser.succeed_corresponds value
  | fail message => exact Parser.fail_corresponds fun _ => rfl
  | endOfInput => exact Parser.endOfInput_corresponds
  | custom run => exact Parser.custom_corresponds customs
  | map f p ih => exact Parser.map_corresponds (ih customs) f
  | sequence ps ih =>
    exact Parser.sequence_corresponds (forall₂_ofFn fun i => ih i (customs i))
  | bind p held next ih ihNext =>
    exact Parser.bind_corresponds (ih customs.1) fun value => ihNext value (customs.2 value)
  | bindAll p held nexts ih ihNexts =>
    apply Parser.bindAll_corresponds (ih customs.1)
    apply forall₂_ofFn
    intro i value
    exact ihNexts i value (customs.2 i value)
  | choice policy ps ih =>
    exact Parser.choice_corresponds policy (forall₂_ofFn fun i => ih i (customs i))
  | first p ih => exact Parser.first_corresponds (ih customs)
  | repeated extent p ih => exact Parser.repeated_corresponds (ih customs) extent
  | chainRight policy p op ih ihOp =>
    exact Parser.chainRight_corresponds policy (ih customs.1) (ihOp customs.2)
  | gather p ih => exact Parser.gather_corresponds (ih customs)
  | reportAs message p ih => exact Parser.reportAs_corresponds (ih customs) fun _ => rfl
  | recover message default p ih =>
    exact Parser.recover_corresponds (ih customs) (fun _ => rfl) default
  | named name p ih => exact Parser.named_corresponds (ih customs) fun _ => rfl
  | lookAhead p ih => exact Parser.lookAhead_corresponds (ih customs)
  | notAhead p ih => exact Parser.notAhead_corresponds (ih customs)
  | traced tracer name p ih => exact Parser.enclosing_corresponds tracer name (ih customs)
  | withDepth tracer p ih => exact Parser.withDepth_corresponds tracer (ih customs)
  | deferred cell p ih => exact Parser.deferred_corresponds cell (ih customs)
  | rule r => exact called r

theorem Rules.chart_corresponds {rules : Rules (.numbered Rule Result) τ}
    (customs : rules.Customs fun run => ∀ input, (run input).WellFormed) (limit : Nat)
    (rule : Rule) :
    Parser.Corresponds (Chart.following tracers) True (rules.chart limit rule)
      (rules.call limit rule) := by
  induction limit generalizing rule with
  | zero => exact fun input => .abort .runaway
  | succ limit ih =>
    intro input
    rw [Rules.chart, Rules.call]
    cases found : rules rule with
    | error fault => exact .abort fault
    | ok pattern =>
      exact Grammar.chart_corresponds ih pattern (customs rule pattern found) input

/-- **Records are nested as invocations are.** Take any grammar whose custom parts are well-formed,
under such rules, with traced parsers wherever it likes, and a run of it that returns, from any
machine. The same run, charted, draws up the invocations of traced parsers, each with those made
inside it. Afterwards every tracer is as deep as before, and the records that were added are those of
the invocations: for each one of an enabled tracer a record of its beginning, then the records of
the invocations made inside, then a record of its end under the same name and at the same depth,
which is the depth of the tracer before the run and one more for each of its invocations in
progress. -/
theorem records_nested (rules : Rules (.numbered Rule Result) τ) (limit : Nat)
    (g : Grammar (.numbered Rule Result) τ α) (input : Residual τ)
    (rulesCustoms : rules.Customs fun run => ∀ input, (run input).WellFormed)
    (customs : g.Customs fun run => ∀ input, (run input).WellFormed)
    {before after : Machine} {outcome : Outcome τ α}
    (returned : Run.Ends (g.run rules limit input) before outcome after) :
    ∃ calls, (g.chart (rules.chart limit) input).run.Ends before (outcome, calls) after ∧
      after.tracers = before.tracers ∧
      after.log = before.log ++
        (Invocation.eventsOfAll before.tracers [] calls).map Event.toRecord ∧
      ∀ depth name position ending,
        (Event.entered depth name position).toRecord.level = .trace ∧
          (Ending.event depth name ending).toRecord.level = .debug := by
  obtain ⟨outcome', calls, charted, alike, recorded⟩ :=
    Grammar.chart_corresponds (Rules.chart_corresponds rulesCustoms limit) g customs input
      [] before outcome after rfl returned
  obtain rfl := alike.eq_of_exact
  refine ⟨calls, charted, recorded.tracers_eq, ?_, fun depth name position ending => ⟨rfl, ?_⟩⟩
  · unfold Machine.log
    rw [recorded.journal_eq, List.reverse_append, List.reverse_reverse, List.map_append]
  · cases ending with
    | matched stops => rfl
    | failed reason => rfl

end Grammars

section Enclosed

/-- On `( a )`, with a tracer that is two deep already, one invocation lies within another, and each
comes back up. -/
theorem records_nested_enclosed :
    ∃ outcome after calls,
      Run.Ends (enclosed.run enclosedRules 3 (.start (["(", "a", ")"].map Word.ofLexeme)))
        ⟨[⟨true, 2⟩], [], []⟩ outcome after ∧
      (enclosed.chart (enclosedRules.chart 3)
        (.start (["(", "a", ")"].map Word.ofLexeme))).run.Ends
          ⟨[⟨true, 2⟩], [], []⟩ (outcome, calls) after ∧
      after.tracers = [⟨true, 2⟩] ∧
      after.log = (Invocation.eventsOfAll [⟨true, 2⟩] [] calls).map Event.toRecord ∧
      (Invocation.eventsOfAll [⟨true, 2⟩] [] calls).map Event.level =
        [.trace, .trace, .debug, .debug] ∧
      (Invocation.eventsOfAll [⟨true, 2⟩] [] calls).head? =
        some (.entered 2 "enclosed" (.token 0)) := by
  have customs : enclosed.Customs fun run => ∀ input, (run input).WellFormed :=
    enclosed_builtFrom.customs (· rfl)
  have rulesCustoms : enclosedRules.Customs fun run => ∀ input, (run input).WellFormed :=
    enclosedRules_builtFrom.customs (· rfl)
  obtain ⟨outcome, after, returned⟩ : ∃ outcome after,
      Run.Ends (enclosed.run enclosedRules 3 (.start (["(", "a", ")"].map Word.ofLexeme)))
        ⟨[⟨true, 2⟩], [], []⟩ outcome after := ⟨_, _, rfl⟩
  obtain ⟨calls, charted, tracers, log, -⟩ :=
    records_nested enclosedRules 3 enclosed _ rulesCustoms customs returned
  have drawn : ∃ outcome' calls' after',
      (enclosed.chart (enclosedRules.chart 3)
        (.start (["(", "a", ")"].map Word.ofLexeme))).run.Ends
          ⟨[⟨true, 2⟩], [], []⟩ (outcome', calls') after' ∧
      (Invocation.eventsOfAll [⟨true, 2⟩] [] calls').map Event.level =
        [.trace, .trace, .debug, .debug] ∧
      (Invocation.eventsOfAll [⟨true, 2⟩] [] calls').head? =
        some (.entered 2 "enclosed" (.token 0)) := ⟨_, _, _, rfl, rfl, rfl⟩
  obtain ⟨outcome', calls', after', charted', levels, head⟩ := drawn
  unfold Run.Ends at charted charted'
  obtain ⟨same, -⟩ := Prod.mk.inj (charted.symm.trans charted')
  obtain ⟨-, rfl⟩ := Prod.mk.inj (Except.ok.inj same)
  exact ⟨outcome, after, calls, returned, charted, tracers, log, levels, head⟩

end Enclosed

end Multiparse
