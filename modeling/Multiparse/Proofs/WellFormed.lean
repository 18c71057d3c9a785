import Multiparse.Grammar.Derived
import Multiparse.Proofs.Contract
import Multiparse.Word

/-!
# Well-formed outcomes

A well-formed outcome has no readings and gives a reason if it is a failure; a fruitful one has a
reading if it is a success. All ways to put parsers together keep them well-formed, and fruitful
besides. So a grammar without custom parts succeeds exactly where it has a reading, and gives a
reason where it has none (`wellFormed_of_parts`).
-/

namespace Multiparse

variable {τ α : Type}

/-- A failure has no readings and gives a reason. -/
structure Outcome.WellFormed (outcome : Outcome τ α) : Prop where
  barren : outcome.success = false → outcome.readings = []
  reason : outcome.success = false → outcome.error.isSome

/-- A success has a reading. -/
def Outcome.Fruitful (outcome : Outcome τ α) : Prop :=
  outcome.success = true → outcome.readings ≠ []

/-- Whatever the parser returns is well-formed. -/
def Parser.WellFormed (p : Parser Run τ α) : Prop :=
  ∀ input, (p input).Ensures Outcome.WellFormed

/-- Whatever the parser returns is fruitful. -/
def Parser.Fruitful (p : Parser Run τ α) : Prop := ∀ input, (p input).Ensures Outcome.Fruitful

/-- The contract that is met by well-formed parsers, or by those that are fruitful besides. -/
def Contract.bare (fruitful : Prop) : Contract τ where
  leaves _ _ := True
  places _ _ := True
  fruitful := fruitful
  leaves_self _ := trivial
  leaves_advance _ := trivial
  leaves_trans _ _ := trivial
  places_unknown _ := trivial
  places_here _ := trivial
  places_later _ _ := trivial

theorem Outcome.meets_bare_iff {fruitful : Prop} {input : Residual τ} {outcome : Outcome τ α} :
    outcome.Meets (.bare fruitful) input ↔
      outcome.WellFormed ∧ (fruitful → outcome.Fruitful) := by
  refine ⟨fun meets => ⟨⟨meets.barren, meets.reason⟩, meets.fruitful⟩, fun holds => ?_⟩
  exact
    { leaves := fun _ _ => trivial
      places := fun _ _ => trivial
      barren := holds.1.barren
      reason := holds.1.reason
      fruitful := holds.2 }

theorem Parser.meets_bare_iff (fruitful : Prop) {p : Parser Run τ α} :
    p.Meets (.bare fruitful) ↔ p.WellFormed ∧ (fruitful → p.Fruitful) := by
  refine ⟨fun meets => ⟨fun input => ?_, fun asked input => ?_⟩, fun holds input => ?_⟩
  · exact (meets input).mono fun _ found => (Outcome.meets_bare_iff.mp found).1
  · exact (meets input).mono fun _ found => (Outcome.meets_bare_iff.mp found).2 asked
  · intro before outcome after ended
    exact Outcome.meets_bare_iff.mpr ⟨holds.1 input before outcome after ended,
      fun asked => holds.2 asked input before outcome after ended⟩

section Grammars

variable {N : Names} [Observes N.Tracer Run] [Token τ]

/-- **Parts that are well-formed make a whole that is.** First, take any grammar and let its rules
and its custom parts be any well-formed parsers; they stand for the arguments of the forms that the
grammar is put together from. The grammar is well-formed, and if the parts are fruitful, it is so
too. Second, the same holds for rules whose patterns have such parts. Third, under rules without
custom parts every run of a grammar without any that returns is a success exactly if it has a
reading, and a failure gives a reason. -/
theorem wellFormed_of_parts :
    (∀ (call : (rule : N.Rule) → Parser Run τ (N.Result rule)) (g : Grammar N τ α),
      ((∀ rule, (call rule).WellFormed) →
        g.Customs (fun run => ∀ input, (run input).WellFormed) →
          (g.interpret call).WellFormed) ∧
      ((∀ rule, (call rule).WellFormed ∧ (call rule).Fruitful) →
        g.Customs (fun run => ∀ input, (run input).WellFormed ∧ (run input).Fruitful) →
          (g.interpret call).Fruitful)) ∧
    (∀ (rules : Rules N τ) (limit : Nat) (rule : N.Rule),
      (rules.Customs (fun run => ∀ input, (run input).WellFormed) →
        Parser.WellFormed (rules.call limit rule)) ∧
      (rules.Customs (fun run => ∀ input, (run input).WellFormed ∧ (run input).Fruitful) →
        Parser.Fruitful (rules.call limit rule))) ∧
    (∀ (rules : Rules N τ) (limit : Nat) (g : Grammar N τ α) (input : Residual τ),
      rules.BuiltFrom (· ≠ .custom) → g.BuiltFrom (· ≠ .custom) →
        ∀ before outcome after, Run.Ends (g.run rules limit input) before outcome after →
          (outcome.success = true ↔ outcome.readings ≠ []) ∧
            (outcome.success = false → outcome.error.isSome)) := by
  refine ⟨fun call g => ⟨fun called customs => ?_, fun called customs => ?_⟩,
    fun rules limit rule => ⟨fun customs => ?_, fun customs => ?_⟩,
    fun rules limit g input rulesBuilt built before outcome after returned => ?_⟩
  · refine ((Parser.meets_bare_iff False).mp (Grammar.interpret_meets (fun rule => ?_)
      g ?_)).1
    · exact (Parser.meets_bare_iff False).mpr ⟨called rule, False.elim⟩
    · simpa only [Outcome.meets_bare_iff, false_implies, and_true] using customs
  · refine ((Parser.meets_bare_iff True).mp (Grammar.interpret_meets (fun rule => ?_)
      g ?_)).2 trivial
    · exact (Parser.meets_bare_iff True).mpr ⟨(called rule).1, fun _ => (called rule).2⟩
    · simpa only [Outcome.meets_bare_iff, true_implies] using customs
  · refine ((Parser.meets_bare_iff False).mp (Rules.call_meets ?_ limit rule)).1
    simpa only [Outcome.meets_bare_iff, false_implies, and_true] using customs
  · refine ((Parser.meets_bare_iff True).mp (Rules.call_meets ?_ limit rule)).2 trivial
    simpa only [Outcome.meets_bare_iff, true_implies] using customs
  · have meets : outcome.Meets (.bare True) input := Grammar.interpret_meets
      (Rules.call_meets (rulesBuilt.customs (· rfl)) limit) g (built.customs (· rfl)) input
      before outcome after returned
    refine ⟨⟨meets.fruitful trivial, fun nonempty => ?_⟩, meets.reason⟩
    by_contra failed
    exact nonempty (meets.barren (by simpa using failed))

end Grammars

section Towers

open Grammar

/-- Names for one rule that reads numbers. -/
abbrev towerNames : Names := ⟨Unit, fun _ => Nat, Nat⟩

/-- Parentheses around a tower. -/
def storey : Grammar towerNames Word Nat :=
  map (· + 1) (between (literal "(") (rule (N := towerNames) ()) (literal ")"))

/-- Parentheses within each other; the value is how many pairs there are. -/
def tower : Grammar towerNames Word Nat := firstOf [storey, succeed 0]

/-- The rule of towers. -/
def towerRules : Rules towerNames Word := fun _ => .ok tower

theorem storey_builtFrom : storey.BuiltFrom (· ≠ .custom) := by
  simp [storey, between, triple, pair, literal]

theorem towerRules_builtFrom : towerRules.BuiltFrom (· ≠ .custom) := by
  rintro rule pattern ⟨⟩
  simpa [tower, firstOf, choiceOf, Fin.forall_fin_two] using storey_builtFrom

/-- A choice between towers is well-formed even if they have no readings, and `( ( )` is not read as
a tower for some reason. -/
theorem wellFormed_of_parts_towers :
    ((firstOf [storey, storey]).interpret fun _ => .ofFunction fun _ => .barren).WellFormed ∧
      ∃ outcome after,
        Run.Ends (storey.run towerRules 3 (.start (["(", "(", ")"].map Word.ofLexeme)))
          .initial outcome after ∧
        outcome.readings = [] ∧ outcome.success = false ∧ outcome.error.isSome := by
  obtain ⟨parts, -, runs⟩ := wellFormed_of_parts (N := towerNames) (τ := Word) (α := Nat)
  refine ⟨(parts _ _).1 (fun _ _ => .pure ⟨Bool.noConfusion, Bool.noConfusion⟩) ?_, ?_⟩
  · have built : (firstOf [storey, storey]).BuiltFrom (· ≠ .custom) := by
      simpa [firstOf, choiceOf, Fin.forall_fin_two] using storey_builtFrom
    exact built.customs (· rfl)
  · obtain ⟨outcome, after, returned, readings⟩ : ∃ outcome after,
        Run.Ends (storey.run towerRules 3 (.start (["(", "(", ")"].map Word.ofLexeme)))
          .initial outcome after ∧ outcome.readings = [] := ⟨_, _, rfl, rfl⟩
    obtain ⟨succeeds, reason⟩ := runs towerRules 3 storey _ towerRules_builtFrom storey_builtFrom
      .initial outcome after returned
    have failed : outcome.success = false := by
      by_contra succeeded
      exact succeeds.mp (by simpa using succeeded) readings
    exact ⟨outcome, after, returned, readings, failed, reason failed⟩

end Towers

end Multiparse
