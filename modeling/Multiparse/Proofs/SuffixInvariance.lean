import Multiparse.Proofs.FarthestError
import Multiparse.Proofs.Mirror

/-!
# Only what is left of the input matters

A grammar that has consumed some tokens does on the others what it would do on them alone, except
that all offsets are greater by what was consumed (`run_behind_consumed`).
-/

namespace Multiparse

variable {τ α : Type}

theorem Residual.start_advanceBy {tokens : List τ} {count : Nat} (inside : count ≤ tokens.length) :
    (Residual.start tokens).advanceBy count =
      (Residual.start (tokens.drop count)).shift count := by
  rw [advanceBy, shift]
  simp only [start, Nat.zero_add, Nat.min_eq_left inside]

section Grammars

variable {N : Names} [Observes N.Tracer Run] [Unobtrusive N.Tracer] [Token τ]

/-- **What was consumed before makes no difference.** Take any grammar without custom parts that
does not look at the depth of a tracer, under such rules. Behind `count` tokens of a sequence and on
a sequence of the others alone, starting from any two machines, either both runs return or neither
does; and the outcomes are the same up to adding `count` to the offsets of rests and of positions of
tokens. -/
theorem run_behind_consumed (rules : Rules N τ) (limit : Nat) (g : Grammar N τ α)
    (rulesBuilt : rules.BuiltFrom Form.Blind) (built : g.BuiltFrom Form.Blind) (tokens : List τ)
    (count : Nat) (inside : count ≤ tokens.length) (before before' : Machine) :
    ((∃ outcome after, Run.Ends (g.run rules limit ((Residual.start tokens).advanceBy count))
        before outcome after) ↔
      ∃ outcome after, Run.Ends (g.run rules limit (.start (tokens.drop count)))
        before' outcome after) ∧
    ∀ outcome after outcome' after',
      Run.Ends (g.run rules limit ((Residual.start tokens).advanceBy count))
        before outcome after →
      Run.Ends (g.run rules limit (.start (tokens.drop count))) before' outcome' after' →
        outcome = outcome'.shift count := by
  rw [Residual.start_advanceBy inside]
  -- Both runs mirror the plain run on the tokens that are left.
  have behind := Grammar.run_mirrors count rulesBuilt limit built
    (.start (tokens.drop count))
  have alone := Grammar.run_mirrors 0 rulesBuilt limit built
    (.start (tokens.drop count))
  refine ⟨(behind.returns_iff before).trans (alone.returns_iff before').symm,
    fun outcome after outcome' after' returned returned' => ?_⟩
  obtain ⟨plain, ran, rfl⟩ := (behind before outcome).mp ⟨after, returned⟩
  obtain ⟨plain', ran', rfl⟩ := (alone before' outcome').mp ⟨after', returned'⟩
  obtain rfl := Except.ok.inj (ran.symm.trans ran')
  rw [Outcome.shift_zero]

end Grammars

section Enclosed

open Grammar

theorem enclosed_blind : enclosed.BuiltFrom Form.Blind := by
  simp [enclosed, anyOf, choiceOf, triple, pair, literal, anyToken, Form.Blind,
    Fin.forall_fin_two]

theorem enclosedRules_blind : enclosedRules.BuiltFrom Form.Blind := by
  rintro rule pattern ⟨⟩
  exact enclosed_blind

/-- Behind `)`, what is wrong with `( a (` lies one token farther, and a tracer that is in use
already changes nothing. -/
theorem run_behind_consumed_enclosed :
    ∃ outcome after outcome' after',
      Run.Ends (enclosed.run enclosedRules 3
        ((Residual.start ([")", "(", "a", "("].map Word.ofLexeme)).advanceBy 1))
        .initial outcome after ∧
      Run.Ends (enclosed.run enclosedRules 3 (.start (["(", "a", "("].map Word.ofLexeme)))
        ⟨[⟨true, 2⟩], [], []⟩ outcome' after' ∧
      outcome'.error.map Diagnostic.position = some (.token 2) ∧
      outcome.error.map Diagnostic.position = some (.token 3) ∧ outcome = outcome'.shift 1 := by
  obtain ⟨outcome', after', returned', there⟩ : ∃ outcome' after',
      Run.Ends (enclosed.run enclosedRules 3 (.start (["(", "a", "("].map Word.ofLexeme)))
        ⟨[⟨true, 2⟩], [], []⟩ outcome' after' ∧
      outcome'.error.map Diagnostic.position = some (.token 2) := ⟨_, _, rfl, rfl⟩
  obtain ⟨both, same⟩ := run_behind_consumed enclosedRules 3 enclosed enclosedRules_blind
    enclosed_blind ([")", "(", "a", "("].map Word.ofLexeme) 1 (by simp) .initial
    ⟨[⟨true, 2⟩], [], []⟩
  obtain ⟨outcome, after, returned⟩ := both.mpr ⟨outcome', after', returned'⟩
  have moved := same outcome after outcome' after' returned returned'
  obtain ⟨error, present, place⟩ := Option.map_eq_some_iff.mp there
  refine ⟨outcome, after, outcome', after', returned, returned', there, ?_, moved⟩
  simp [moved, Outcome.shift, present, Diagnostic.shift, Diagnostic.moveTo, place, Position.shift]

end Enclosed

end Multiparse
