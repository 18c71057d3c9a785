import Mathlib.Order.Bounds.Basic
import Multiparse.Grammar.Derived
import Multiparse.Proofs.Accountable
import Multiparse.Word

/-!
# The farthest failure is the one reported

Whatever parsers a grammar is put together from, the diagnostic of its outcome lies as deep as the
deepest failure that was raised in the run, and where none was raised it has no place
(`farthest_raised`).
-/

namespace Multiparse

open Diagnostic

variable {τ α : Type}

section Grammars

variable {N : Names} [Observes N.Tracer Run] [Token τ]

/-- A grammar without custom parsers accounts for what is raised, if its rules do. -/
theorem Grammar.watch_accountable
    {watched : (rule : N.Rule) → Parser Watch τ (N.Result rule)}
    {plain : (rule : N.Rule) → Parser Run τ (N.Result rule)}
    (rules : ∀ rule, Parser.Accountable (watched rule) (plain rule)) (g : Grammar N τ α)
    (built : g.BuiltFrom (· ≠ .custom)) :
    Parser.Accountable (g.watch watched) (g.interpret plain) := by
  induction g with
  | satisfy accepts expected => exact Parser.satisfy_accountable accepts expected
  | succeed value => exact Parser.succeed_accountable value
  | fail message => exact Parser.fail_accountable message
  | endOfInput => exact Parser.endOfInput_accountable
  | custom run => exact absurd rfl built
  | map f p ih => exact Parser.map_accountable (ih built.2) f
  | sequence ps ih => exact Parser.sequence_accountable fun i => ih i (built.2 i)
  | bind p held next ih ihNext =>
    exact Parser.bind_accountable (ih built.2.1) fun value => ihNext value (built.2.2 value)
  | bindAll p held nexts ih ihNexts =>
    exact Parser.bindAll_accountable (ih built.2.1)
      fun i value => ihNexts i value (built.2.2 i value)
  | choice policy ps ih =>
    exact Parser.choice_accountable policy (forall₂_ofFn fun i => ih i (built.2 i))
  | first p ih => exact Parser.first_accountable (ih built.2)
  | repeated extent p ih => exact Parser.repeated_accountable (ih built.2) extent
  | chainRight policy p op ih ihOp =>
    exact Parser.chainRight_accountable policy (ih built.2.1) (ihOp built.2.2)
  | gather p ih => exact Parser.gather_accountable (ih built.2)
  | reportAs message p ih => exact Parser.reportAs_accountable (ih built.2) message
  | recover message default p ih => exact Parser.recover_accountable (ih built.2) message default
  | named name p ih => exact Parser.named_accountable (ih built.2) name
  | lookAhead p ih => exact Parser.lookAhead_accountable (ih built.2)
  | notAhead p ih => exact Parser.notAhead_accountable (ih built.2)
  | traced tracer name p ih => exact Parser.traced_accountable tracer name (ih built.2)
  | withDepth tracer p ih => exact Parser.withDepth_accountable tracer (ih built.2)
  | deferred cell p ih => exact Parser.deferred_accountable cell (ih built.2)
  | rule r => exact rules r

/-- The rules account for what is raised, under every limit on rule calls. -/
theorem Rules.watch_accountable {rules : Rules N τ} (built : rules.BuiltFrom (· ≠ .custom))
    (limit : Nat) (rule : N.Rule) :
    Parser.Accountable (rules.watch limit rule) (rules.call limit rule) := by
  induction limit generalizing rule with
  | zero => exact fun input => .abort
  | succ limit ih =>
    intro input
    rw [Rules.watch, Rules.call]
    cases found : rules rule with
    | error fault => exact .abort
    | ok pattern => exact Grammar.watch_accountable ih pattern (built rule pattern found) input

/-- **The diagnostic lies at the farthest failure raised.** Take any grammar without custom parsers,
under rules without any, and a run of it that returns. The same run, watched, writes down where
failures were raised outside of what must not follow; the diagnostic of the outcome lies at the
greatest of these positions, and if there are none, it has no place. -/
theorem farthest_raised (rules : Rules N τ) (limit : Nat) (g : Grammar N τ α) (input : Residual τ)
    (rulesBuilt : rules.BuiltFrom (· ≠ .custom)) (built : g.BuiltFrom (· ≠ .custom))
    {before after : Machine} {outcome : Outcome τ α}
    (returned : Run.Ends (g.run rules limit input) before outcome after) :
    ∃ raised, (g.watch (rules.watch limit) input).run.Ends before (outcome, raised) after ∧
      (raised = [] → ∀ error, outcome.error = some error → error.position = .unknown) ∧
      (raised ≠ [] → ∃ error, outcome.error = some error ∧
        IsGreatest {position | position ∈ raised} error.position) := by
  obtain ⟨raised, watched, accounts⟩ :=
    Grammar.watch_accountable (rules.watch_accountable rulesBuilt limit) g built input
      before outcome after returned
  have tracks := accounts.tracks
  rw [max_bot_left] at tracks
  refine ⟨raised, watched, ?_, ?_⟩
  · rintro rfl error present
    have within := tracks.within
    rw [present, depth_some, List.maximum_nil, max_bot_left, WithBot.coe_le_coe] at within
    exact le_antisymm within (Position.unknown_le _)
  · intro nonempty
    obtain ⟨deepest, isDeepest⟩ :=
      WithBot.ne_bot_iff_exists.mp (List.maximum_ne_bot_of_ne_nil nonempty)
    have placed : (Position.unknown : WithBot Position) ≤ raised.maximum := by
      rw [← isDeepest, WithBot.coe_le_coe]
      exact Position.unknown_le deepest
    have there : depth outcome.error = raised.maximum :=
      le_antisymm (tracks.within.trans (max_le le_rfl placed)) tracks.reaches
    cases present : outcome.error with
    | none =>
      rw [present, ← isDeepest] at there
      exact absurd there WithBot.bot_ne_coe
    | some error =>
      rw [present, depth_some] at there
      obtain ⟨member, greatest⟩ := List.maximum_eq_coe_iff.mp there.symm
      exact ⟨error, rfl, member, greatest⟩

end Grammars

section Enclosed

open Grammar

/-- Names for one rule, and numbered tracers. -/
abbrev enclosedNames : Names := ⟨Unit, fun _ => Unit, Nat⟩

/-- A token that closes nothing, or parentheses around such a thing. -/
def enclosed : Grammar enclosedNames Word Unit :=
  traced (N := enclosedNames) 0 "enclosed" (anyOf
    [map (fun _ => ()) (triple (literal "(") (rule (N := enclosedNames) ()) (literal ")")),
      map (fun _ => ()) (pair (notAhead (literal ")")) anyToken)])

theorem enclosed_builtFrom : enclosed.BuiltFrom (· ≠ .custom) := by
  simp [enclosed, anyOf, choiceOf, triple, pair, literal, anyToken, Fin.forall_fin_two]

/-- The rule of enclosed tokens. -/
def enclosedRules : Rules enclosedNames Word := fun _ => .ok enclosed

theorem enclosedRules_builtFrom : enclosedRules.BuiltFrom (· ≠ .custom) := by
  rintro rule pattern ⟨⟩
  exact enclosed_builtFrom

/-- Of `( a (` only the first token is read, and what did not match is the last one. -/
theorem farthest_raised_enclosed :
    ∃ outcome after raised error,
      Run.Ends (enclosed.run enclosedRules 3 (.start (["(", "a", "("].map Word.ofLexeme)))
        .initial outcome after ∧
      (enclosed.watch (enclosedRules.watch 3)
        (.start (["(", "a", "("].map Word.ofLexeme))).run.Ends .initial (outcome, raised) after ∧
      outcome.success = true ∧ outcome.error = some error ∧ error.position = .token 2 ∧
      IsGreatest {position | position ∈ raised} error.position := by
  obtain ⟨outcome, after, returned, success, there⟩ : ∃ outcome after,
      Run.Ends (enclosed.run enclosedRules 3 (.start (["(", "a", "("].map Word.ofLexeme)))
        .initial outcome after ∧ outcome.success = true ∧
        outcome.error.map Diagnostic.position = some (.token 2) := ⟨_, _, rfl, rfl, rfl⟩
  obtain ⟨raised, watched, unplaced, placed⟩ :=
    farthest_raised enclosedRules 3 enclosed _ enclosedRules_builtFrom enclosed_builtFrom returned
  obtain ⟨error, present, place⟩ := Option.map_eq_some_iff.mp there
  have nonempty : raised ≠ [] := by
    intro empty
    rw [unplaced empty error present] at place
    cases place
  obtain ⟨error', present', greatest⟩ := placed nonempty
  obtain rfl := Option.some.inj (present.symm.trans present')
  exact ⟨outcome, after, raised, error, returned, watched, success, present, place, greatest⟩

end Enclosed

end Multiparse
