import Multiparse.Proofs.Correspondence
import Multiparse.Proofs.FarthestError
import Multiparse.Proofs.Mirror

/-!
# Wording and watching

A grammar says in words what went wrong, and it may be watched while it runs. Neither changes what
it recognises. An edition of a grammar takes wrappers off or puts other texts in their place
(`Grammar.edit`). Without tracers and deferral a grammar has the same outcomes; without reports and
names, or in other words, it has the same readings and its diagnostics lie at the same places
(`wording_inert`).
-/

namespace Multiparse

/-! ## Runs that can take each other's place -/

namespace Run

variable {A A' B B' C : Type}

/-- From whatever machines, either both runs return or neither does, and what they return is
related. -/
def Interchangeable (related : A → B → Prop) (run : Run A) (run' : Run B) : Prop :=
  ∀ before before',
    ((∃ result after, run.Ends before result after) ↔
      ∃ result after, run'.Ends before' result after) ∧
    ∀ result after result' after', run.Ends before result after →
      run'.Ends before' result' after' → related result result'

namespace Interchangeable

variable {related : A → B → Prop} {run : Run A} {run' : Run B}

theorem mono {weaker : A → B → Prop} (runs : Interchangeable related run run')
    (implies : ∀ result result', related result result' → weaker result result') :
    Interchangeable weaker run run' := by
  intro before before'
  obtain ⟨both, relates⟩ := runs before before'
  exact ⟨both, fun result after result' after' ended ended' =>
    implies result result' (relates result after result' after' ended ended')⟩

theorem symm (runs : Interchangeable related run run') :
    Interchangeable (fun result' result => related result result') run' run := by
  intro before before'
  obtain ⟨both, relates⟩ := runs before' before
  exact ⟨both.symm, fun result' after' result after ended' ended =>
    relates result after result' after' ended ended'⟩

theorem trans {related' : B → C → Prop} {run'' : Run C} (runs : Interchangeable related run run')
    (runs' : Interchangeable related' run' run'') :
    Interchangeable (Relation.Comp related related') run run'' := by
  intro before before''
  obtain ⟨both, relates⟩ := runs before .initial
  obtain ⟨both', relates'⟩ := runs' .initial before''
  refine ⟨both.trans both', fun result after result'' after'' ended ended'' => ?_⟩
  obtain ⟨result', after', ended'⟩ := both.mp ⟨result, after, ended⟩
  exact ⟨result', relates _ _ _ _ ended ended', relates' _ _ _ _ ended' ended''⟩

theorem pure {value : A} {value' : B} (holds : related value value') :
    Interchangeable related (pure value) (pure value') := by
  intro before before'
  refine ⟨⟨fun _ => ⟨_, _, ends_pure.mpr ⟨rfl, rfl⟩⟩, fun _ => ⟨_, _, ends_pure.mpr ⟨rfl, rfl⟩⟩⟩,
    fun result after result' after' ended ended' => ?_⟩
  obtain ⟨rfl, -⟩ := ends_pure.mp ended
  obtain ⟨rfl, -⟩ := ends_pure.mp ended'
  exact holds

theorem bind {related' : A' → B' → Prop} {next : A → Run A'} {next' : B → Run B'}
    (first : Interchangeable related run run')
    (continues : ∀ value value', related value value' →
      Interchangeable related' (next value) (next' value')) :
    Interchangeable related' (run >>= next) (run' >>= next') := by
  intro before before'
  obtain ⟨both, relates⟩ := first before before'
  refine ⟨⟨?_, ?_⟩, ?_⟩
  · intro ⟨result, after, ended⟩
    obtain ⟨value, middle, firstEnds, nextEnds⟩ := ends_bind.mp ended
    obtain ⟨value', middle', firstEnds'⟩ := both.mp ⟨value, middle, firstEnds⟩
    have holds := relates _ _ _ _ firstEnds firstEnds'
    obtain ⟨result', after', nextEnds'⟩ :=
      (continues value value' holds middle middle').1.mp ⟨result, after, nextEnds⟩
    exact ⟨result', after', ends_bind.mpr ⟨value', middle', firstEnds', nextEnds'⟩⟩
  · intro ⟨result', after', ended'⟩
    obtain ⟨value', middle', firstEnds', nextEnds'⟩ := ends_bind.mp ended'
    obtain ⟨value, middle, firstEnds⟩ := both.mpr ⟨value', middle', firstEnds'⟩
    have holds := relates _ _ _ _ firstEnds firstEnds'
    obtain ⟨result, after, nextEnds⟩ :=
      (continues value value' holds middle middle').1.mpr ⟨result', after', nextEnds'⟩
    exact ⟨result, after, ends_bind.mpr ⟨value, middle, firstEnds, nextEnds⟩⟩
  · intro result after result' after' ended ended'
    obtain ⟨value, middle, firstEnds, nextEnds⟩ := ends_bind.mp ended
    obtain ⟨value', middle', firstEnds', nextEnds'⟩ := ends_bind.mp ended'
    have holds := relates _ _ _ _ firstEnds firstEnds'
    exact (continues value value' holds middle middle').2 _ _ _ _ nextEnds nextEnds'

theorem abort (fault : Fault) :
    Interchangeable related (Aborts.abort fault) (Aborts.abort fault) := by
  intro before before'
  refine ⟨⟨fun ⟨_, _, ended⟩ => absurd ended not_ends_abort,
    fun ⟨_, _, ended⟩ => absurd ended not_ends_abort⟩, fun _ _ _ _ ended => ?_⟩
  exact absurd ended not_ends_abort

/-- What one machine does besides makes no difference, as long as it is done with. -/
theorem act {action : Run C} {next : C → Run A}
    (done : ∀ before, ∃ value after, action.Ends before value after)
    (continues : ∀ value, Interchangeable related (next value) run') :
    Interchangeable related (action >>= next) run' := by
  intro before before'
  refine ⟨⟨?_, ?_⟩, ?_⟩
  · intro ⟨result, after, ended⟩
    obtain ⟨value, middle, -, nextEnds⟩ := ends_bind.mp ended
    exact (continues value middle before').1.mp ⟨result, after, nextEnds⟩
  · intro returned
    obtain ⟨value, middle, acted⟩ := done before
    obtain ⟨result, after, nextEnds⟩ := (continues value middle before').1.mpr returned
    exact ⟨result, after, ends_bind.mpr ⟨value, middle, acted, nextEnds⟩⟩
  · intro result after result' after' ended ended'
    obtain ⟨value, middle, -, nextEnds⟩ := ends_bind.mp ended
    exact (continues value middle before').2 _ _ _ _ nextEnds ended'

end Interchangeable

/-- Runs on machines are compared by whether they can take each other's place. -/
def interchange : Comparison Run Run where
  Holds := Interchangeable
  pure := .pure
  bind := .bind
  abort := .abort

end Run

/-! ## Editions -/

/-- What an edition of a grammar changes. -/
structure Edition where
  /-- Whether wrappers of this form are taken off. -/
  drops : Form → Bool
  /-- What becomes of a text that stands in this form. -/
  text : Form → String → String

namespace Edition

/-- Nobody watches, and nothing is deferred. -/
def unwatched : Edition where
  drops
    | .traced | .deferred => true
    | _ => false
  text _ text := text

/-- Besides, failures are neither reported in other words nor by name. -/
def bare : Edition where
  drops
    | .traced | .deferred | .reportAs | .named => true
    | _ => false
  text _ text := text

/-- What is left has no words either. -/
def silent : Edition where
  drops := bare.drops
  text _ _ := ""

/-- Where diagnostics have to stay the same, the edition leaves reports, names and texts alone. -/
def Respects (exact : Prop) (edition : Edition) : Prop :=
  exact → edition.drops .reportAs = false ∧ edition.drops .named = false ∧
    ∀ form text, edition.text form text = text

theorem unwatched_respects : unwatched.Respects True :=
  fun _ => ⟨rfl, rfl, fun _ _ => rfl⟩

theorem respects_false (edition : Edition) : edition.Respects False := False.elim

theorem Respects.text_eq {exact : Prop} {edition : Edition} (respects : edition.Respects exact)
    (form : Form) (text : String) : exact → text = edition.text form text :=
  fun asked => ((respects asked).2.2 form text).symm

end Edition

variable {N : Names} {τ α : Type}

/-- The grammar in an edition: in all its parts, those that continuations may build included,
wrappers are taken off and texts are changed. -/
def Grammar.edit (edition : Edition) {α : Type} : Grammar N τ α → Grammar N τ α
  | satisfy accepts expected => .satisfy accepts (edition.text .satisfy expected)
  | succeed value => .succeed value
  | fail message => .fail (edition.text .fail message)
  | endOfInput => .endOfInput
  | custom run => .custom run
  | map f p => .map f (p.edit edition)
  | sequence ps => .sequence fun i => (ps i).edit edition
  | bind p held next => .bind (p.edit edition) held fun value => (next value).edit edition
  | bindAll p held nexts =>
    .bindAll (p.edit edition) held fun i value => (nexts i value).edit edition
  | choice policy ps => .choice policy fun i => (ps i).edit edition
  | first p => .first (p.edit edition)
  | repeated extent p => .repeated extent (p.edit edition)
  | chainRight policy p op => .chainRight policy (p.edit edition) (op.edit edition)
  | gather p => .gather (p.edit edition)
  | reportAs message p =>
    if edition.drops .reportAs then p.edit edition
    else .reportAs (edition.text .reportAs message) (p.edit edition)
  | recover message default p =>
    .recover (edition.text .recover message) default (p.edit edition)
  | named name p =>
    if edition.drops .named then p.edit edition
    else .named (edition.text .named name) (p.edit edition)
  | lookAhead p => .lookAhead (p.edit edition)
  | notAhead p => .notAhead (p.edit edition)
  | traced tracer name p =>
    if edition.drops .traced then p.edit edition
    else .traced tracer (edition.text .traced name) (p.edit edition)
  | withDepth tracer p => .withDepth tracer (p.edit edition)
  | deferred cell p =>
    if edition.drops .deferred then p.edit edition else .deferred cell (p.edit edition)
  | rule r => .rule r

/-- The rules with their patterns in an edition. -/
def Rules.edit (edition : Edition) (rules : Rules N τ) : Rules N τ :=
  fun rule => (rules rule).map (Grammar.edit edition)

namespace Grammar

section Wrapped

variable (edition : Edition) (p : Grammar N τ α)

theorem edit_reportAs (message : String) :
    (reportAs message p).edit edition =
      if edition.drops .reportAs then p.edit edition
      else .reportAs (edition.text .reportAs message) (p.edit edition) := rfl

theorem edit_named (name : String) :
    (named name p).edit edition =
      if edition.drops .named then p.edit edition
      else .named (edition.text .named name) (p.edit edition) := rfl

theorem edit_traced (tracer : N.Tracer) (name : String) :
    (traced tracer name p).edit edition =
      if edition.drops .traced then p.edit edition
      else .traced tracer (edition.text .traced name) (p.edit edition) := rfl

theorem edit_deferred (cell : Nat) :
    (deferred cell p).edit edition =
      if edition.drops .deferred then p.edit edition else .deferred cell (p.edit edition) := rfl

end Wrapped

/-- An edition looks at the depth of a tracer exactly where the grammar does. -/
theorem depthless_edit {edition : Edition} {g : Grammar N τ α} :
    (g.edit edition).BuiltFrom (· ≠ .withDepth) ↔ g.BuiltFrom (· ≠ .withDepth) := by
  induction g with
  | satisfy | succeed | fail | endOfInput | custom | rule => exact Iff.rfl
  | map _ p ih | first p ih | repeated _ p ih | gather p ih | recover _ _ p ih | lookAhead p ih
  | notAhead p ih | withDepth _ p ih => exact and_congr_right' ih
  | sequence ps ih | choice _ ps ih => exact and_congr_right' (forall_congr' ih)
  | bind p held next ih ihNext => exact and_congr_right' (and_congr ih (forall_congr' ihNext))
  | bindAll p held nexts ih ihNexts =>
    exact and_congr_right' (and_congr ih (forall_congr' fun i => forall_congr' (ihNexts i)))
  | chainRight policy p op ih ihOp => exact and_congr_right' (and_congr ih ihOp)
  | reportAs _ p ih | named _ p ih | traced _ _ p ih | deferred _ p ih =>
    simp only [edit_reportAs, edit_named, edit_traced, edit_deferred]
    split
    · exact ih.trans (and_iff_right Form.noConfusion).symm
    · exact and_congr_right' ih

/-- An edition has the custom parts of the grammar. -/
theorem customs_edit {edition : Edition}
    {holds : {β : Type} → (Residual τ → Outcome τ β) → Prop} {g : Grammar N τ α} :
    (g.edit edition).Customs holds ↔ g.Customs holds := by
  induction g with
  | satisfy | succeed | fail | endOfInput | custom | rule => exact Iff.rfl
  | map _ p ih | first p ih | repeated _ p ih | gather p ih | recover _ _ p ih | lookAhead p ih
  | notAhead p ih | withDepth _ p ih => exact ih
  | sequence ps ih | choice _ ps ih => exact forall_congr' ih
  | bind p held next ih ihNext => exact and_congr ih (forall_congr' ihNext)
  | bindAll p held nexts ih ihNexts =>
    exact and_congr ih (forall_congr' fun i => forall_congr' (ihNexts i))
  | chainRight policy p op ih ihOp => exact and_congr ih ihOp
  | reportAs _ p ih | named _ p ih | traced _ _ p ih | deferred _ p ih =>
    simp only [edit_reportAs, edit_named, edit_traced, edit_deferred]
    split
    · exact ih
    · exact ih

end Grammar

namespace Rules

/-- Rules agree in an edition if their patterns do, and if the same ones have none. -/
theorem exists_of_edit_eq {edition : Edition} {rules rules' : Rules N τ}
    (same : rules'.edit edition = rules.edit edition) {rule : N.Rule}
    {pattern' : Grammar N τ (N.Result rule)} (found : rules' rule = .ok pattern') :
    ∃ pattern, rules rule = .ok pattern ∧ pattern'.edit edition = pattern.edit edition := by
  have there := congrFun same rule
  unfold Rules.edit at there
  rw [found] at there
  cases stands : rules rule with
  | error fault =>
    rw [stands] at there
    cases there
  | ok pattern =>
    rw [stands] at there
    exact ⟨pattern, rfl, Except.ok.inj there⟩

end Rules

/-! ## Wrappers that can be taken off -/

section Wrappers

open Run

variable {B : Type} {related : Outcome τ α → B → Prop} {p : Parser Run τ α} {run' : Run B}
  {input : Residual τ}

/-- Whoever watches, the run goes its way. -/
theorem Parser.traced_interchangeable {θ : Type} [Observes θ Run] [Unobtrusive θ] (tracer : θ)
    (name : String) (runs : Interchangeable related (p input) run') :
    Interchangeable related (traced tracer name p input) run' := by
  apply Interchangeable.act (Unobtrusive.enters tracer name _)
  intro depth
  rw [← bind_pure run']
  apply Interchangeable.bind runs
  intro outcome outcome' holds
  apply Interchangeable.act (Unobtrusive.leaves tracer _)
  intro left
  exact .pure holds

/-- It makes no difference when a parser is built. -/
theorem Parser.deferred_interchangeable (cell : Nat)
    (runs : Interchangeable related (p input) run') :
    Interchangeable related (deferred cell p input) run' :=
  .act (fun _ => ⟨(), _, rfl⟩) fun _ => runs

/-- Where words do not count, a failure may be left as it is instead of being reported for another
reason at the same place. -/
theorem Parser.onFailure_interchangeable {exact : Prop} (loose : ¬ exact) {q : Parser Run τ α}
    (part : Corresponds Run.interchange exact p q)
    (reason : Residual τ → Option Diagnostic → Diagnostic)
    (stays : ∀ input error, error.isSome →
      Diagnostic.depth (some (reason input error)) = Diagnostic.depth error) :
    Corresponds Run.interchange exact
      (fun input => p input >>= fun outcome =>
        if outcome.success then pure outcome
        else pure (.failure (reason input outcome.error))) q := by
  intro input
  change Interchangeable _ _ (q input)
  rw [← bind_pure (q input)]
  apply Run.interchange.bind_alike (part input)
  intro success readings error error' errors formed
  cases success with
  | true => exact .pure ⟨rfl, rfl, errors, formed⟩
  | false =>
    obtain rfl : readings = [] := formed.barren rfl
    have place := (stays input error (formed.reason rfl)).trans errors.place
    exact .pure ⟨rfl, rfl, ⟨place, fun asked => absurd asked loose⟩, fun _ => rfl, fun _ => rfl⟩

end Wrappers

/-! ## Grammars and their editions -/

/-- The outcomes agree on success, on the readings and their order, and on where the diagnostic
lies. -/
structure Outcome.SameFindings (outcome outcome' : Outcome τ α) : Prop where
  success : outcome.success = outcome'.success
  readings : outcome.readings = outcome'.readings
  place : outcome.error.map Diagnostic.position = outcome'.error.map Diagnostic.position

theorem Outcome.Alike.sameFindings {exact : Prop} {outcome outcome' : Outcome τ α}
    (alike : outcome.Alike exact outcome') : outcome.SameFindings outcome' :=
  ⟨alike.success, alike.readings, alike.error.place⟩

section Editions

variable [Observes N.Tracer Run] [Unobtrusive N.Tracer] [Token τ] {exact : Prop}
  {edition : Edition}

/-- In an edition a grammar has outcomes that are alike, if the rules have. -/
theorem Grammar.edit_corresponds (respects : edition.Respects exact)
    {call call' : (rule : N.Rule) → Parser Run τ (N.Result rule)}
    (called : ∀ rule, Parser.Corresponds Run.interchange exact (call rule) (call' rule))
    (g : Grammar N τ α) (depthless : g.BuiltFrom (· ≠ .withDepth))
    (customs : g.Customs fun run => ∀ input, (run input).WellFormed) :
    Parser.Corresponds Run.interchange exact (g.interpret call)
      ((g.edit edition).interpret call') := by
  induction g with
  | satisfy accepts expected =>
    exact Parser.satisfy_corresponds accepts (respects.text_eq .satisfy expected)
  | succeed value => exact Parser.succeed_corresponds value
  | fail message => exact Parser.fail_corresponds (respects.text_eq .fail message)
  | endOfInput => exact Parser.endOfInput_corresponds
  | custom run => exact Parser.custom_corresponds customs
  | map f p ih => exact Parser.map_corresponds (ih depthless.2 customs) f
  | sequence ps ih =>
    exact Parser.sequence_corresponds
      (forall₂_ofFn fun i => ih i (depthless.2 i) (customs i))
  | bind p held next ih ihNext =>
    apply Parser.bind_corresponds (ih depthless.2.1 customs.1)
    intro value
    exact ihNext value (depthless.2.2 value) (customs.2 value)
  | bindAll p held nexts ih ihNexts =>
    apply Parser.bindAll_corresponds (ih depthless.2.1 customs.1)
    apply forall₂_ofFn
    intro i value
    exact ihNexts i value (depthless.2.2 i value) (customs.2 i value)
  | choice policy ps ih =>
    exact Parser.choice_corresponds policy
      (forall₂_ofFn fun i => ih i (depthless.2 i) (customs i))
  | first p ih => exact Parser.first_corresponds (ih depthless.2 customs)
  | repeated extent p ih => exact Parser.repeated_corresponds (ih depthless.2 customs) extent
  | chainRight policy p op ih ihOp =>
    exact Parser.chainRight_corresponds policy (ih depthless.2.1 customs.1)
      (ihOp depthless.2.2 customs.2)
  | gather p ih => exact Parser.gather_corresponds (ih depthless.2 customs)
  | recover message default p ih =>
    exact Parser.recover_corresponds (ih depthless.2 customs) (respects.text_eq .recover message)
      default
  | lookAhead p ih => exact Parser.lookAhead_corresponds (ih depthless.2 customs)
  | notAhead p ih => exact Parser.notAhead_corresponds (ih depthless.2 customs)
  | reportAs message p ih =>
    have part := ih depthless.2 customs
    rw [edit_reportAs]
    split
    next dropped =>
      have loose : ¬ exact := fun asked => by simp [(respects asked).1] at dropped
      exact Parser.onFailure_interchangeable loose part
        (fun _ error => Diagnostic.rephrase message error)
        fun _ _ present => Diagnostic.depth_rephrase message present
    next => exact Parser.reportAs_corresponds part (respects.text_eq .reportAs message)
  | named name p ih =>
    have part := ih depthless.2 customs
    rw [edit_named]
    split
    next dropped =>
      have loose : ¬ exact := fun asked => by simp [(respects asked).2.1] at dropped
      exact Parser.onFailure_interchangeable loose part
        (fun input error => Diagnostic.wantedAs name input.position error)
        fun input _ present => Diagnostic.depth_wantedAs name input.position present
    next => exact Parser.named_corresponds part (respects.text_eq .named name)
  | traced tracer name p ih =>
    intro input
    have watched := Parser.traced_interchangeable tracer name (ih depthless.2 customs input)
    rw [edit_traced]
    split
    next => exact watched
    next => exact (Parser.traced_interchangeable tracer _ watched.symm).symm
  | deferred cell p ih =>
    intro input
    have built := Parser.deferred_interchangeable cell (ih depthless.2 customs input)
    rw [edit_deferred]
    split
    next => exact built
    next => exact (Parser.deferred_interchangeable cell built.symm).symm
  | withDepth tracer p ih => exact absurd rfl depthless.1
  | rule r => exact called r

/-- In an edition the rules have outcomes that are alike, under every limit on rule calls. -/
theorem Rules.edit_corresponds (respects : edition.Respects exact) {rules : Rules N τ}
    (depthless : rules.BuiltFrom (· ≠ .withDepth))
    (customs : rules.Customs fun run => ∀ input, (run input).WellFormed) (limit : Nat)
    (rule : N.Rule) :
    Parser.Corresponds Run.interchange exact (rules.call limit rule)
      ((rules.edit edition).call limit rule) := by
  induction limit generalizing rule with
  | zero => exact fun input => .abort .runaway
  | succ limit ih =>
    intro input
    rw [Rules.call, Rules.call, Rules.edit]
    cases found : rules rule with
    | error fault => exact .abort fault
    | ok pattern =>
      exact Grammar.edit_corresponds respects ih pattern (depthless rule pattern found)
        (customs rule pattern found) input

theorem Grammar.run_edit_corresponds (respects : edition.Respects exact) {rules : Rules N τ}
    (rulesDepthless : rules.BuiltFrom (· ≠ .withDepth))
    (rulesCustoms : rules.Customs fun run => ∀ input, (run input).WellFormed) (limit : Nat)
    {g : Grammar N τ α} (depthless : g.BuiltFrom (· ≠ .withDepth))
    (customs : g.Customs fun run => ∀ input, (run input).WellFormed) :
    Parser.Corresponds Run.interchange exact (g.run rules limit)
      ((g.edit edition).run (rules.edit edition) limit) :=
  Grammar.edit_corresponds respects
    (Rules.edit_corresponds respects rulesDepthless rulesCustoms limit) g depthless customs

/-- **Neither wording nor watching changes what is recognised.** Take any grammar that does not look
at the depth of a tracer and whose custom parts are well-formed, under such rules. From any two
machines, with tracers that are switched on or off: without its tracers and deferrals it returns
exactly where it did, and the same outcomes. Without reports and names, too, it returns exactly
where it did, with the same success, the same readings in the same order, and diagnostics at the
same places. The same holds for all grammars and rules that differ from these in such wrappers and
in texts only. -/
theorem wording_inert (rules : Rules N τ) (limit : Nat) (g : Grammar N τ α) (input : Residual τ)
    (rulesDepthless : rules.BuiltFrom (· ≠ .withDepth)) (depthless : g.BuiltFrom (· ≠ .withDepth))
    (rulesCustoms : rules.Customs fun run => ∀ input, (run input).WellFormed)
    (customs : g.Customs fun run => ∀ input, (run input).WellFormed) :
    Run.Interchangeable (· = ·) (g.run rules limit input)
      ((g.edit .unwatched).run (rules.edit .unwatched) limit input) ∧
    Run.Interchangeable Outcome.SameFindings (g.run rules limit input)
      ((g.edit .bare).run (rules.edit .bare) limit input) ∧
    ∀ (rules' : Rules N τ) (g' : Grammar N τ α), rules'.edit .silent = rules.edit .silent →
      g'.edit .silent = g.edit .silent →
        Run.Interchangeable Outcome.SameFindings (g.run rules limit input)
          (g'.run rules' limit input) := by
  have edits : ∀ {exact : Prop} {edition : Edition}, edition.Respects exact →
      Run.Interchangeable (Outcome.Alike exact) (g.run rules limit input)
        ((g.edit edition).run (rules.edit edition) limit input) := fun respects =>
    Grammar.run_edit_corresponds respects rulesDepthless rulesCustoms limit depthless customs input
  refine ⟨?_, ?_, ?_⟩
  · apply (edits Edition.unwatched_respects).mono
    intro outcome outcome' alike
    exact alike.eq_of_exact
  · apply (edits Edition.bare.respects_false).mono
    intro outcome outcome' alike
    exact alike.sameFindings
  · intro rules' g' sameRules same
    have depthless' : g'.BuiltFrom (· ≠ .withDepth) := by
      rw [← Grammar.depthless_edit, same]
      exact Grammar.depthless_edit.mpr depthless
    have customs' : g'.Customs fun run => ∀ input, (run input).WellFormed := by
      rw [← Grammar.customs_edit, same]
      exact Grammar.customs_edit.mpr customs
    have rulesDepthless' : rules'.BuiltFrom (· ≠ .withDepth) := by
      intro rule pattern' found
      obtain ⟨pattern, stands, samePattern⟩ := Rules.exists_of_edit_eq sameRules found
      rw [← Grammar.depthless_edit, samePattern]
      exact Grammar.depthless_edit.mpr (rulesDepthless rule pattern stands)
    have rulesCustoms' : rules'.Customs fun run => ∀ input, (run input).WellFormed := by
      intro rule pattern' found
      obtain ⟨pattern, stands, samePattern⟩ := Rules.exists_of_edit_eq sameRules found
      rw [← Grammar.customs_edit, samePattern]
      exact Grammar.customs_edit.mpr (rulesCustoms rule pattern stands)
    -- Both grammars have the same silent edition.
    have silenced := Grammar.run_edit_corresponds Edition.silent.respects_false rulesDepthless'
      rulesCustoms' limit depthless' customs' input
    rw [same, sameRules] at silenced
    apply ((edits Edition.silent.respects_false).trans silenced.symm).mono
    intro outcome outcome'' ⟨outcome', alike, alike'⟩
    exact ⟨alike.success.trans alike'.success.symm, alike.readings.trans alike'.readings.symm,
      alike.error.place.trans alike'.error.place.symm⟩

end Editions

section Wrapped

open Grammar

/-- A token in parentheses within each other, in words of its own. -/
def wrapped : Grammar enclosedNames Word Unit :=
  reportAs "not wrapped" (traced (N := enclosedNames) 0 "wrapped" (deferred 0 (firstOf
    [named "parentheses"
        (map (fun _ => ()) (triple (literal "(") (rule (N := enclosedNames) ()) (literal ")"))),
      map (fun _ => ()) (literal "a")])))

/-- The rule of wrapped tokens. -/
def wrappedRules : Rules enclosedNames Word := fun _ => .ok wrapped

theorem wrapped_builtFrom {allowed : Form → Prop}
    (allows : ∀ form, form ≠ .custom → form ≠ .withDepth → allowed form) :
    wrapped.BuiltFrom allowed := by
  simp [wrapped, firstOf, choiceOf, triple, pair, literal, Fin.forall_fin_two, allows]

/-- What is wrong with `( a (` lies at the last token in whatever words it is reported, and whether
or not a tracer is in use. -/
theorem wording_inert_wrapped :
    ∃ outcome after outcome' after',
      Run.Ends (wrapped.run wrappedRules 3 (.start (["(", "a", "("].map Word.ofLexeme)))
        ⟨[⟨true, 2⟩], [], []⟩ outcome after ∧
      Run.Ends ((wrapped.edit .bare).run (wrappedRules.edit .bare) 3
        (.start (["(", "a", "("].map Word.ofLexeme))) .initial outcome' after' ∧
      outcome.error.map Diagnostic.message = some "not wrapped" ∧
      outcome'.error.map Diagnostic.message = some "unexpected token" ∧
      outcome.SameFindings outcome' := by
  have depthless : wrapped.BuiltFrom (· ≠ .withDepth) := wrapped_builtFrom fun _ _ other => other
  have plain : wrapped.BuiltFrom (· ≠ .custom) := wrapped_builtFrom fun _ other _ => other
  obtain ⟨-, bare, -⟩ := wording_inert wrappedRules 3 wrapped
    (.start (["(", "a", "("].map Word.ofLexeme))
    (fun _ _ stands => Except.ok.inj stands ▸ depthless) depthless
    (fun _ _ stands => Except.ok.inj stands ▸ plain.customs (· rfl)) (plain.customs (· rfl))
  obtain ⟨-, relates⟩ := bare ⟨[⟨true, 2⟩], [], []⟩ .initial
  obtain ⟨outcome, after, returned, words⟩ : ∃ outcome after,
      Run.Ends (wrapped.run wrappedRules 3 (.start (["(", "a", "("].map Word.ofLexeme)))
        ⟨[⟨true, 2⟩], [], []⟩ outcome after ∧
        outcome.error.map Diagnostic.message = some "not wrapped" := ⟨_, _, rfl, rfl⟩
  obtain ⟨outcome', after', returned', words'⟩ : ∃ outcome' after',
      Run.Ends ((wrapped.edit .bare).run (wrappedRules.edit .bare) 3
        (.start (["(", "a", "("].map Word.ofLexeme))) .initial outcome' after' ∧
        outcome'.error.map Diagnostic.message = some "unexpected token" := ⟨_, _, rfl, rfl⟩
  exact ⟨outcome, after, outcome', after', returned, returned', words, words',
    relates outcome after outcome' after' returned returned'⟩

end Wrapped

end Multiparse
