import Multiparse.Grammar.Lemmas
import Multiparse.Proofs.Computed

/-!
# Choices and their branches

Where all branches of a choice return, the choice returns what is chosen from their outcomes
(`Outcome.chosen`). An exhaustive choice joins the readings of all branches that succeed, an ordered
one goes through the branches up to the first of them. So the ordered choice finds a beginning of
what the exhaustive one finds (`policies_agree`).
-/

namespace Multiparse

open Diagnostic

variable {m : Type → Type} [Monad m] {τ α : Type}

/-! ## Choosing from outcomes -/

namespace Outcome

/-- The readings that an outcome adds to an exhaustive choice. -/
def counted (outcome : Outcome τ α) : List (Reading τ α) :=
  if outcome.success then outcome.readings else []

/-- The farthest of a diagnostic and those of outcomes behind it. -/
def mergedInto (earlier : Option Diagnostic) (outcomes : List (Outcome τ α)) : Option Diagnostic :=
  (outcomes.map error).foldl farthest earlier

/-- The first success, or a failure if there is none. -/
def firstAfter (earlier : Option Diagnostic) : List (Outcome τ α) → Outcome τ α
  | [] => .conclude false [] earlier
  | outcome :: outcomes =>
    if outcome.success then outcome.withEarlier earlier
    else firstAfter (farthest earlier outcome.error) outcomes

/-- What a choice returns if its branches return these outcomes. -/
def chosen : Policy → List (Outcome τ α) → Outcome τ α
  | .exhaustive, outcomes =>
    .conclude (outcomes.any success) (outcomes.flatMap counted) (mergedInto none outcomes)
  | .ordered, outcomes => firstAfter none outcomes

end Outcome

namespace Parser

/-- On an input the parsers return these outcomes, one for each of them. -/
abbrev Return (input : Residual τ) : List (Parser m τ α) → List (Outcome τ α) → Prop :=
  List.Forall₂ fun p outcome => p input = pure outcome

theorem ne_nil_of_forall₂ {A B : Type _} {R : A → B → Prop} {items : List A} {partners : List B}
    (related : List.Forall₂ R items partners) (filled : items ≠ []) : partners ≠ [] := by
  cases related with
  | nil => exact absurd rfl filled
  | cons => exact List.cons_ne_nil _ _

variable [LawfulMonad m] {input : Residual τ} {ps : List (Parser m τ α)}
  {outcomes : List (Outcome τ α)}

theorem anyOfFrom_of_return (returns : Return input ps outcomes) (success : Bool)
    (readings : List (Reading τ α)) (error : Option Diagnostic) :
    anyOfFrom input ps success readings error =
      pure (.conclude (success || outcomes.any Outcome.success)
        (readings ++ outcomes.flatMap Outcome.counted) (Outcome.mergedInto error outcomes)) := by
  induction returns generalizing success readings error with
  | nil => simp [anyOfFrom, Outcome.mergedInto]
  | @cons p outcome ps outcomes ran returns ih =>
    rw [anyOfFrom, ran, pure_bind]
    cases succeeded : outcome.success <;>
      simp [ih, succeeded, Outcome.counted, Outcome.mergedInto]

theorem firstOfFrom_of_return (returns : Return input ps outcomes) (error : Option Diagnostic) :
    firstOfFrom input ps error = pure (Outcome.firstAfter error outcomes) := by
  induction returns generalizing error with
  | nil => rfl
  | @cons p outcome ps outcomes ran returns ih =>
    rw [firstOfFrom, ran, pure_bind, Outcome.firstAfter]
    split
    · rfl
    · exact ih _

/-- A choice whose branches return returns what is chosen from their outcomes. -/
theorem choice_of_return (returns : Return input ps outcomes) (policy : Policy) :
    choice policy ps input = pure (Outcome.chosen policy outcomes) := by
  cases policy with
  | exhaustive => exact anyOfFrom_of_return returns false [] none
  | ordered => exact firstOfFrom_of_return returns none

end Parser

/-! ## The first success -/

namespace Outcome

variable {outcomes failed others : List (Outcome τ α)} {outcome winner : Outcome τ α}

/-- Outcomes all fail, or one of them is the first to succeed. -/
theorem failed_or_first (outcomes : List (Outcome τ α)) :
    (∀ outcome ∈ outcomes, outcome.success = false) ∨
      ∃ failed winner others, outcomes = failed ++ winner :: others ∧
        (∀ outcome ∈ failed, outcome.success = false) ∧ winner.success = true := by
  cases found : outcomes.find? success with
  | none =>
    left
    intro outcome member
    simpa using List.find?_eq_none.mp found outcome member
  | some winner =>
    right
    obtain ⟨succeeded, failed, others, split, before⟩ := List.find?_eq_some_iff_append.mp found
    exact ⟨failed, winner, others, split, by simpa using before, succeeded⟩

theorem mergedInto_cons (earlier : Option Diagnostic) (outcome : Outcome τ α)
    (outcomes : List (Outcome τ α)) :
    mergedInto earlier (outcome :: outcomes) =
      mergedInto (farthest earlier outcome.error) outcomes :=
  rfl

theorem mergedInto_append (earlier : Option Diagnostic) (outcomes others : List (Outcome τ α)) :
    mergedInto earlier (outcomes ++ others) = mergedInto (mergedInto earlier outcomes) others := by
  rw [mergedInto, List.map_append, List.foldl_append]
  rfl

theorem depth_mergedInto_le_iff {earlier : Option Diagnostic} {bound : WithBot Position} :
    depth (mergedInto earlier outcomes) ≤ bound ↔
      depth earlier ≤ bound ∧ ∀ outcome ∈ outcomes, depth outcome.error ≤ bound := by
  rw [mergedInto, depth_foldl_le_iff, List.forall_mem_map]

theorem depth_le_mergedInto {earlier : Option Diagnostic} (outcomes : List (Outcome τ α)) :
    depth earlier ≤ depth (mergedInto earlier outcomes) :=
  (depth_mergedInto_le_iff.mp le_rfl).1

/-- Outcomes that fail leave no more than their diagnostics. -/
theorem firstAfter_append (fail : ∀ outcome ∈ failed, outcome.success = false)
    (earlier : Option Diagnostic) (others : List (Outcome τ α)) :
    firstAfter earlier (failed ++ others) = firstAfter (mergedInto earlier failed) others := by
  induction failed generalizing earlier with
  | nil => rfl
  | cons outcome failed ih =>
    obtain ⟨fails, fail⟩ := List.forall_mem_cons.mp fail
    rw [List.cons_append, firstAfter, if_neg (by simp [fails]), ih fail]
    rfl

theorem firstAfter_of_failed (fail : ∀ outcome ∈ failed, outcome.success = false)
    (earlier : Option Diagnostic) :
    firstAfter earlier failed = .conclude false [] (mergedInto earlier failed) := by
  have ended := firstAfter_append fail earlier []
  rwa [List.append_nil] at ended

theorem firstAfter_of_first (fail : ∀ outcome ∈ failed, outcome.success = false)
    (succeeded : winner.success = true) (earlier : Option Diagnostic) :
    firstAfter earlier (failed ++ winner :: others) =
      winner.withEarlier (mergedInto earlier failed) := by
  rw [firstAfter_append fail, firstAfter, if_pos succeeded]

theorem counted_of_failed (fail : ∀ outcome ∈ failed, outcome.success = false) :
    failed.flatMap counted = [] := by
  rw [List.flatMap_eq_nil_iff]
  intro outcome member
  rw [counted, if_neg (by simp [fail outcome member])]

theorem chosen_of_failed (fail : ∀ outcome ∈ failed, outcome.success = false) (policy : Policy) :
    chosen policy failed = .conclude false [] (mergedInto none failed) := by
  cases policy with
  | exhaustive =>
    have none : failed.any success = false := by simpa using fail
    rw [chosen, none, counted_of_failed fail]
  | ordered => exact firstAfter_of_failed fail none

/-- Where all branches fail, one of them says why. -/
theorem isSome_mergedInto (filled : outcomes ≠ [])
    (formed : ∀ outcome ∈ outcomes, outcome.WellFormed)
    (fail : ∀ outcome ∈ outcomes, outcome.success = false) :
    (mergedInto none outcomes).isSome := by
  obtain ⟨outcome, member⟩ := List.exists_mem_of_ne_nil outcomes filled
  exact foldl_isSome_of_mem (List.mem_map_of_mem member)
    ((formed outcome member).reason (fail outcome member))

theorem chosen_of_failed_error (filled : outcomes ≠ [])
    (formed : ∀ outcome ∈ outcomes, outcome.WellFormed)
    (fail : ∀ outcome ∈ outcomes, outcome.success = false) (policy : Policy) :
    (chosen policy outcomes).success = false ∧
      (chosen policy outcomes).error = mergedInto none outcomes := by
  obtain ⟨reason, explained⟩ := Option.isSome_iff_exists.mp (isSome_mergedInto filled formed fail)
  rw [chosen_of_failed fail, explained]
  exact ⟨rfl, rfl⟩

theorem chosen_exhaustive_of_first (fail : ∀ outcome ∈ failed, outcome.success = false)
    (succeeded : winner.success = true) (others : List (Outcome τ α)) :
    chosen .exhaustive (failed ++ winner :: others) =
      .ofReadings (winner.readings ++ others.flatMap counted)
        (mergedInto none (failed ++ winner :: others)) := by
  have found : (failed ++ winner :: others).any success = true := by simp [succeeded]
  rw [chosen, found, List.flatMap_append, counted_of_failed fail, List.flatMap_cons, counted,
    if_pos succeeded]
  rfl

theorem chosen_exhaustive_success (outcomes : List (Outcome τ α)) :
    (chosen .exhaustive outcomes).success = outcomes.any success := by
  rw [chosen, conclude]
  split
  next found => exact found.symm
  next missed => exact (Bool.eq_false_of_not_eq_true missed).symm

theorem chosen_exhaustive_readings (outcomes : List (Outcome τ α)) :
    (chosen .exhaustive outcomes).readings = outcomes.flatMap counted := by
  obtain fail | ⟨failed, winner, others, rfl, fail, succeeded⟩ := failed_or_first outcomes
  · rw [chosen_of_failed fail, counted_of_failed fail]
    rfl
  · rw [chosen_exhaustive_of_first fail succeeded, List.flatMap_append, counted_of_failed fail,
      List.flatMap_cons, counted, if_pos succeeded]
    rfl

theorem counted_eq (barren : outcome.success = false → outcome.readings = []) :
    outcome.counted = outcome.readings := by
  rw [counted]
  split
  · rfl
  next failed => exact (barren (Bool.eq_false_of_not_eq_true failed)).symm

/-- An exhaustive choice counts with all its branches. -/
theorem chosen_exhaustive_counted (outcomes : List (Outcome τ α)) :
    (chosen .exhaustive outcomes).counted = outcomes.flatMap counted := by
  rw [counted_eq, chosen_exhaustive_readings]
  intro failed
  rw [chosen_exhaustive_success] at failed
  have fail : ∀ outcome ∈ outcomes, outcome.success = false := by simpa using failed
  rw [chosen_exhaustive_readings, counted_of_failed fail]

theorem chosen_exhaustive_error (filled : outcomes ≠ [])
    (formed : ∀ outcome ∈ outcomes, outcome.WellFormed) :
    (chosen .exhaustive outcomes).error = mergedInto none outcomes := by
  obtain fail | ⟨failed, winner, others, rfl, fail, succeeded⟩ := failed_or_first outcomes
  · exact (chosen_of_failed_error filled formed fail .exhaustive).2
  · rw [chosen_exhaustive_of_first fail succeeded]
    rfl

theorem chosen_ordered_of_first (fail : ∀ outcome ∈ failed, outcome.success = false)
    (succeeded : winner.success = true) (others : List (Outcome τ α)) :
    chosen .ordered (failed ++ winner :: others) = winner.withEarlier (mergedInto none failed) :=
  firstAfter_of_first fail succeeded none

end Outcome

/-! ## The policies -/

/-- **The two policies of choice agree up to pruning.** Let the branches return on an input. The
exhaustive choice succeeds if one of them does, and then finds what the successful ones find. The
ordered choice succeeds if the exhaustive one does, and it finds a beginning of that: all of it, if
at most one branch succeeds. Their outcomes are the same altogether if no branch but the last
succeeds, and the diagnostic of the ordered choice never lies deeper. -/
theorem policies_agree {N : Names} [LawfulMonad m] [Aborts m] [Defers m] [Observes N.Tracer m]
    [Token τ] {call : (rule : N.Rule) → Parser m τ (N.Result rule)} {ps : List (Grammar N τ α)}
    {input : Residual τ} {outcomes : List (Outcome τ α)}
    (returns : Parser.Return input (ps.map fun p => p.interpret call) outcomes) :
    ∃ all one, (Grammar.anyOf ps).interpret call input = pure all ∧
      (Grammar.firstOf ps).interpret call input = pure one ∧
      all.success = outcomes.any Outcome.success ∧
      all.readings = outcomes.flatMap Outcome.counted ∧
      all.success = one.success ∧ one.readings <+: all.readings ∧
      ((outcomes.filter Outcome.success).length ≤ 1 → one.readings = all.readings) ∧
      ((∀ outcome ∈ outcomes.dropLast, outcome.success = false) → one = all) ∧
      depth one.error ≤ depth all.error := by
  have ran := Parser.choice_of_return returns
  simp only [← Grammar.interpret_choiceOf] at ran
  refine ⟨_, _, ran .exhaustive, ran .ordered, Outcome.chosen_exhaustive_success _,
    Outcome.chosen_exhaustive_readings _, ?_⟩
  obtain fail | ⟨failed, winner, others, rfl, fail, succeeded⟩ := Outcome.failed_or_first outcomes
  · rw [Outcome.chosen_of_failed fail, Outcome.chosen_of_failed fail]
    exact ⟨rfl, List.prefix_rfl, fun _ => rfl, fun _ => rfl, le_rfl⟩
  · rw [Outcome.chosen_exhaustive_of_first fail succeeded,
      Outcome.chosen_ordered_of_first fail succeeded]
    refine ⟨succeeded.symm, List.prefix_append _ _, fun few => ?alone, fun only => ?last, ?place⟩
    case alone =>
      rw [List.filter_append, List.length_append, List.filter_cons_of_pos succeeded,
        List.length_cons] at few
      have none : others.filter Outcome.success = [] := List.length_eq_zero_iff.mp (by omega)
      have fail' : ∀ outcome ∈ others, outcome.success = false := by
        simpa using List.filter_eq_nil_iff.mp none
      rw [Outcome.counted_of_failed fail']
      exact (List.append_nil _).symm
    case last =>
      cases others with
      | nil =>
        obtain ⟨success, readings, error⟩ := winner
        obtain rfl : success = true := succeeded
        rw [Outcome.mergedInto_append, List.flatMap_nil, List.append_nil]
        rfl
      | cons other others =>
        have among : winner ∈ (failed ++ winner :: other :: others).dropLast := by simp
        exact absurd succeeded (by simp [only winner among])
    case place =>
      rw [Outcome.mergedInto_append]
      exact Outcome.depth_le_mergedInto others

section Roses

/-- Looks for an article, for anything at all, and for a lily in the second place. -/
def flowers : List (Grammar towerNames Word Word) :=
  [.literal "the", .anyToken, .keepLeft .anyToken (.literal "lily")]

/-- A rose. -/
def aRose : Residual Word := .start (["a", "rose"].map Word.ofLexeme)

/-- Both choices take a word. Only the exhaustive one goes on to miss the lily behind it. -/
theorem policies_agree_rose :
    ∃ (call : (rule : Unit) → Parser (Except Fault) Word Nat) (outcomes : List (Outcome Word Word)),
      Parser.Return aRose (flowers.map fun p => p.interpret call) outcomes ∧
      ∃ all one, (Grammar.anyOf flowers).interpret call aRose = .ok all ∧
        (Grammar.firstOf flowers).interpret call aRose = .ok one ∧
        all.values = [Word.ofLexeme "a"] ∧ one.readings = all.readings ∧
        all.error = some (.mismatch "'lily'" "'rose'" 1) ∧
        one.error = some (.mismatch "'the'" "'a'" 0) := by
  let call : (rule : Unit) → Parser (Except Fault) Word Nat := fun _ => .fail "no rule"
  have returns : Parser.Return aRose (flowers.map fun p => p.interpret call)
      [.failure (.mismatch "'the'" "'a'" 0),
        .ofReadings [⟨Word.ofLexeme "a", aRose.advance⟩] none,
        .failure (.mismatch "'lily'" "'rose'" 1)] :=
    .cons rfl (.cons rfl (.cons rfl .nil))
  obtain ⟨all, one, allRan, oneRan, -, -, -, -, single, -, -⟩ := policies_agree returns
  refine ⟨call, _, returns, all, one, allRan, oneRan, ?_, single (by decide), ?_, ?_⟩
  · cases allRan
    rfl
  · cases allRan
    rfl
  · cases oneRan
    rfl

end Roses

end Multiparse
