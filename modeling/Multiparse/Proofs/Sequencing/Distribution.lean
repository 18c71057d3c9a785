import Multiparse.Proofs.Chain.Derivations
import Multiparse.Proofs.Choice.Branches
import Multiparse.Proofs.Sequencing.Folds

/-!
# Sequencing distributes over choice

What comes behind a choice may be put behind each of its branches, and a parser in front of a choice
may be put in front of each of them (`sequencing_distributes`). In the first case the readings keep
their order. In the second one they are sorted by branches first, so they come in another order, but
each of them as often.
-/

namespace Multiparse

open Diagnostic

variable {m : Type → Type} [Monad m] {τ α β : Type}

/-! ## Choices between sound outcomes -/

namespace Outcome

variable {first : Outcome τ α} {outcomes : List (Outcome τ α)}
  {next : Reading τ α → Outcome τ β} {nexts : List (Reading τ α → Outcome τ β)}

/-- Goes on to a second value behind a reading. -/
def pairWith (second : Residual τ → Outcome τ β) (reading : Reading τ α) : Outcome τ (α × β) :=
  (second reading.rest).map (reading.value, ·)

/-- Two outcomes find the same things, each as often, and the diagnostics lie at the same place. -/
structure Reorders (outcome outcome' : Outcome τ α) : Prop where
  success : outcome.success = outcome'.success
  readings : outcome.readings.Perm outcome'.readings
  place : depth outcome.error = depth outcome'.error

theorem counted_map (f : α → β) (outcome : Outcome τ α) :
    (outcome.map f).counted = outcome.counted.map (Reading.map f) := by
  rw [counted, counted, map_success]
  split <;> rfl

theorem map_chosen_exhaustive (f : α → β) (outcomes : List (Outcome τ α)) :
    (chosen .exhaustive outcomes).map f = chosen .exhaustive (outcomes.map (map f)) := by
  have flags : (outcomes.map (map f)).any success = outcomes.any success := List.any_map
  have counts : (outcomes.map (map f)).flatMap counted =
      (outcomes.flatMap counted).map (Reading.map f) := by
    simp only [List.flatMap_map, counted_map, List.map_flatMap]
  have errors : mergedInto none (outcomes.map (map f)) = mergedInto none outcomes := by
    rw [mergedInto, List.map_map]
    rfl
  rw [chosen, chosen, flags, counts, errors]
  cases outcomes.any success <;> rfl

theorem chosen_exhaustive_sound (sounds : ∀ outcome ∈ outcomes, outcome.Sound) :
    (chosen .exhaustive outcomes).Sound := by
  obtain fail | ⟨failed, winner, others, rfl, fail, succeeded⟩ := failed_or_first outcomes
  · rw [chosen_of_failed fail]
    exact failure_sound _
  · rw [chosen_exhaustive_of_first fail succeeded]
    have found := (sounds winner (by simp)).fruitful succeeded
    exact ofReadings_sound _ (List.append_ne_nil_of_left_ne_nil found _)

theorem readings_of_sound (sounds : ∀ outcome ∈ outcomes, outcome.Sound) :
    (chosen .exhaustive outcomes).readings = outcomes.flatMap readings := by
  rw [chosen_exhaustive_readings]
  exact List.flatMap_congr fun outcome member => counted_eq (sounds outcome member).barren

theorem depth_chosen_exhaustive_le_iff (filled : outcomes ≠ [])
    (sounds : ∀ outcome ∈ outcomes, outcome.Sound) {bound : WithBot Position} :
    depth (chosen .exhaustive outcomes).error ≤ bound ↔
      ∀ outcome ∈ outcomes, depth outcome.error ≤ bound := by
  rw [chosen_exhaustive_error filled fun outcome member => (sounds outcome member).toWellFormed,
    depth_mergedInto_le_iff]
  exact and_iff_right bot_le

/-- What comes behind a choice may come behind each of its branches. -/
theorem chosen_exhaustive_andThen (sounds : ∀ outcome ∈ outcomes, outcome.Sound)
    (nextSounds : ∀ reading, (next reading).Sound) :
    ((chosen .exhaustive outcomes).andThen next).SameFindings
      (chosen .exhaustive (outcomes.map fun outcome => outcome.andThen next)) := by
  have sound := chosen_exhaustive_sound sounds
  have apart : ∀ outcome ∈ outcomes.map fun outcome => outcome.andThen next, outcome.Sound :=
    List.forall_mem_map.mpr fun outcome member => (sounds outcome member).andThen next
  apply (sound.andThen next).sameFindings (chosen_exhaustive_sound apart)
  · rw [sound.andThen_readings, readings_of_sound sounds,
      readings_of_sound apart, List.flatMap_map, List.flatMap_assoc]
    exact List.flatMap_congr fun outcome member =>
      ((sounds outcome member).andThen_readings next).symm
  · -- Without branches both sides fail for want of an alternative.
    obtain rfl | filled := eq_or_ne outcomes []
    · rfl
    have filled' : (outcomes.map fun outcome => outcome.andThen next) ≠ [] :=
      mt List.map_eq_nil_iff.mp filled
    apply eq_of_forall_ge_iff
    intro bound
    rw [sound.depth_andThen_le_iff nextSounds, depth_chosen_exhaustive_le_iff filled sounds,
      readings_of_sound sounds, List.forall_mem_flatMap,
      depth_chosen_exhaustive_le_iff filled' apart, List.forall_mem_map, ← forall₂_and]
    exact forall₂_congr fun outcome member =>
      ((sounds outcome member).depth_andThen_le_iff nextSounds).symm

/-- What comes before a choice may come before each of its branches; then all readings of one branch
come before those of the next. -/
theorem Sound.andThen_chosen_exhaustive (sound : first.Sound) (filled : nexts ≠ [])
    (sounds : ∀ next ∈ nexts, ∀ reading, (next reading).Sound) :
    (first.andThen fun reading => chosen .exhaustive (nexts.map (· reading))).Reorders
      (chosen .exhaustive (nexts.map first.andThen)) := by
  have here : ∀ reading, ∀ outcome ∈ nexts.map (· reading), outcome.Sound := fun reading =>
    List.forall_mem_map.mpr fun next member => sounds next member reading
  have choices := fun reading => chosen_exhaustive_sound (here reading)
  have together := sound.andThen fun reading => chosen .exhaustive (nexts.map (· reading))
  have each : ∀ outcome ∈ nexts.map first.andThen, outcome.Sound :=
    List.forall_mem_map.mpr fun next _ => sound.andThen next
  have sorted : (first.andThen fun reading => chosen .exhaustive (nexts.map (· reading))).readings
      |>.Perm (chosen .exhaustive (nexts.map first.andThen)).readings := by
    rw [sound.andThen_readings, readings_of_sound each, List.flatMap_map]
    simp only [readings_of_sound (here _), List.flatMap_map, sound.andThen_readings]
    exact Chain.flatMap_swap_perm _ _ _
  refine ⟨?success, sorted, ?place⟩
  case success =>
    rw [together.success_eq, (chosen_exhaustive_sound each).success_eq, sorted.isEmpty_eq]
  case place =>
    have filledHere := fun reading : Reading τ α =>
      mt (List.map_eq_nil_iff (f := (· reading))).mp filled
    apply eq_of_forall_ge_iff
    intro bound
    rw [sound.depth_andThen_le_iff choices,
      depth_chosen_exhaustive_le_iff (mt List.map_eq_nil_iff.mp filled) each, List.forall_mem_map]
    simp only [depth_chosen_exhaustive_le_iff (filledHere _) (here _), List.forall_mem_map]
    constructor
    · intro ⟨before, behind⟩ next member
      exact (sound.depth_andThen_le_iff (sounds next member)).mpr
        ⟨before, fun reading read => behind reading read next member⟩
    · intro bounded
      have parts := fun next member =>
        (sound.depth_andThen_le_iff (sounds next member)).mp (bounded next member)
      -- The diagnostic in front counts once for each branch, so there has to be one.
      obtain ⟨next, member⟩ := List.exists_mem_of_ne_nil nexts filled
      exact ⟨(parts next member).1, fun reading read next member =>
        (parts next member).2 reading read⟩

end Outcome

/-! ## Choices between parsers -/

namespace Parser

variable {p : Parser m τ α} {ps : List (Parser m τ α)} {qs : List (Parser m τ β)}
  {runs : List (Residual τ → Outcome τ α)} {next : α → Parser m τ β}

theorem exists_runs (sounds : ∀ p ∈ ps, p.Sound) :
    ∃ runs, List.Forall₂ Computes ps runs ∧ ∀ run ∈ runs, ∀ input, (run input).Sound := by
  induction ps with
  | nil => exact ⟨[], .nil, by simp⟩
  | cons p ps ih =>
    obtain ⟨⟨run, computes, sound⟩, sounds⟩ := List.forall_mem_cons.mp sounds
    obtain ⟨runs, others, othersSound⟩ := ih sounds
    exact ⟨run :: runs, .cons computes others, List.forall_mem_cons.mpr ⟨sound, othersSound⟩⟩

variable [LawfulMonad m]

theorem anyOf_computes (computes : List.Forall₂ Computes ps runs) :
    (anyOf ps).Computes fun input => .chosen .exhaustive (runs.map (· input)) := by
  intro input
  have returns : Return input ps (runs.map (· input)) :=
    List.forall₂_map_right_iff.mpr (computes.imp fun p run ran => ran input)
  exact choice_of_return returns .exhaustive

/-- Binding a choice is choosing between binds. -/
theorem anyOf_bind (sounds : ∀ p ∈ ps, p.Sound) (nextSounds : ∀ value, (next value).Sound) :
    (bind (anyOf ps) next).FindsSame (anyOf (ps.map fun p => bind p next)) := by
  obtain ⟨runs, computes, sounds⟩ := exists_runs sounds
  choose continued continues nextSounds using nextSounds
  have each : List.Forall₂ Computes (ps.map fun p => bind p next)
      (runs.map fun run input =>
        (run input).andThen fun reading => continued reading.value reading.rest) := by
    rw [List.forall₂_map_left_iff, List.forall₂_map_right_iff]
    exact computes.imp fun p run ran => ran.bind continues
  intro input
  refine ⟨_, _, (anyOf_computes computes).bind continues input, anyOf_computes each input, ?_⟩
  have here : ∀ outcome ∈ runs.map (· input), outcome.Sound :=
    List.forall_mem_map.mpr fun run member => sounds run member input
  have same := Outcome.chosen_exhaustive_andThen here fun reading =>
    nextSounds reading.value reading.rest
  simp only [List.map_map] at same ⊢
  exact same

/-- A choice behind a parser is a choice between sequences. -/
theorem bind_anyOf (sound : p.Sound) (filled : qs ≠ []) (sounds : ∀ q ∈ qs, q.Sound)
    (input : Residual τ) :
    ∃ left right,
      bind p (fun value => map (value, ·) (anyOf qs)) input = pure left ∧
      anyOf (qs.map fun q => bind p fun value => map (value, ·) q) input = pure right ∧
      left.Reorders right := by
  obtain ⟨run, ran, sound⟩ := sound
  obtain ⟨runs, computes, sounds⟩ := exists_runs sounds
  have together := ran.bind fun value => (anyOf_computes computes).map (value, ·)
  have each : List.Forall₂ Computes (qs.map fun q => bind p fun value => map (value, ·) q)
      (runs.map fun second input => (run input).andThen (Outcome.pairWith second)) := by
    rw [List.forall₂_map_left_iff, List.forall₂_map_right_iff]
    exact computes.imp fun q second ranSecond => ran.bind fun value => ranSecond.map (value, ·)
  refine ⟨_, _, together input, anyOf_computes each input, ?_⟩
  have some : runs.map (Outcome.pairWith (α := α)) ≠ [] :=
    mt List.map_eq_nil_iff.mp (ne_nil_of_forall₂ computes filled)
  have pairs : ∀ next ∈ runs.map (Outcome.pairWith (α := α)), ∀ reading, (next reading).Sound :=
    List.forall_mem_map.mpr fun second member reading =>
      (sounds second member reading.rest).map (reading.value, ·)
  have reorders := (sound input).andThen_chosen_exhaustive some pairs
  simp only [List.map_map, Outcome.map_chosen_exhaustive] at reorders ⊢
  exact reorders

end Parser

/-- **Sequencing distributes over choice.** Let the branches of an exhaustive choice compute and be
sound. If a continuation follows the choice, or another parser, it may as well follow each of the
branches: the same readings are found in the same order, and the diagnostics lie at the same place.
If there is a branch, a parser in front of the choice may as well stand in front of each of them:
the same readings are found equally often, and the diagnostics lie at the same place. -/
theorem sequencing_distributes {N : Names} [LawfulMonad m] [Aborts m] [Defers m]
    [Observes N.Tracer m] [Token τ] {call : (rule : N.Rule) → Parser m τ (N.Result rule)}
    {branches : List (Grammar N τ α)} (sounds : ∀ p ∈ branches, (p.interpret call).Sound) :
    (∀ (held : List N.Rule) (next : α → Grammar N τ β),
      (∀ value, ((next value).interpret call).Sound) →
        (((Grammar.anyOf branches).bind held next).interpret call).FindsSame
          ((Grammar.anyOf (branches.map fun p => p.bind held next)).interpret call)) ∧
    (∀ r : Grammar N τ β, (r.interpret call).Sound →
      (((Grammar.anyOf branches).pair r).interpret call).FindsSame
        ((Grammar.anyOf (branches.map fun p => p.pair r)).interpret call)) ∧
    ∀ p : Grammar N τ β, (p.interpret call).Sound → branches ≠ [] → ∀ input, ∃ left right,
      (p.pair (Grammar.anyOf branches)).interpret call input = pure left ∧
      (Grammar.anyOf (branches.map fun q => p.pair q)).interpret call input = pure right ∧
      left.Reorders right := by
  have parts : ∀ p ∈ branches.map fun p => p.interpret call, p.Sound :=
    List.forall_mem_map.mpr sounds
  refine ⟨fun held next nextSounds => ?bind, fun r sound => ?behind,
    fun p sound filled input => ?before⟩
  case bind =>
    have distributes := Parser.anyOf_bind parts nextSounds
    rw [List.map_map] at distributes
    rw [Grammar.interpret_bind, Grammar.interpret_anyOf, Grammar.interpret_anyOf, List.map_map]
    exact distributes
  case behind =>
    have distributes := Parser.anyOf_bind parts fun value => sound.map (value, ·)
    rw [List.map_map] at distributes
    rw [Grammar.interpret_pair, Grammar.interpret_anyOf, Grammar.interpret_anyOf, List.map_map]
    exact distributes
  case before =>
    have reorders := Parser.bind_anyOf sound (mt List.map_eq_nil_iff.mp filled) parts input
    rw [List.map_map] at reorders
    rw [Grammar.interpret_pair, Grammar.interpret_anyOf, Grammar.interpret_anyOf, List.map_map]
    exact reorders

section Glimpses

/-- A glimpse follows a choice between two others, and precedes it. -/
theorem sequencing_distributes_glimpse :
    ∃ call : (rule : Unit) → Parser (Except Fault) Word Nat,
      (∀ p ∈ [another 0, another 10], (p.interpret call).Sound) ∧
      (∀ seen, ((another seen).interpret call).Sound) ∧
      (∃ left right,
        ((Grammar.anyOf [another 0, another 10]).bind [] another).interpret call fourWords =
          .ok left ∧
        (Grammar.anyOf ([another 0, another 10].map fun p => p.bind [] another)).interpret call
          fourWords = .ok right ∧
        left.SameFindings right ∧ left.values = [2, 3, 3, 4, 12, 13, 13, 14]) ∧
      ∃ left right,
        ((another 0).pair (Grammar.anyOf [another 0, another 10])).interpret call fourWords =
          .ok left ∧
        (Grammar.anyOf ([another 0, another 10].map fun q => (another 0).pair q)).interpret call
          fourWords = .ok right ∧
        left.Reorders right ∧
        left.values = [(1, 1), (1, 2), (1, 11), (1, 12), (2, 1), (2, 2), (2, 11), (2, 12)] ∧
        right.values = [(1, 1), (1, 2), (2, 1), (2, 2), (1, 11), (1, 12), (2, 11), (2, 12)] := by
  let call : (rule : Unit) → Parser (Except Fault) Word Nat := fun _ => .fail "no rule"
  have sounds : ∀ p ∈ [another 0, another 10], (p.interpret call).Sound := by
    simp [another_sound]
  obtain ⟨bind, -, pair⟩ := sequencing_distributes (N := towerNames) (β := Nat) sounds
  have nextSounds := another_sound call
  obtain ⟨left, right, leftRan, rightRan, same⟩ := bind [] another nextSounds fourWords
  obtain ⟨left', right', leftRan', rightRan', reorders⟩ :=
    pair (another 0) (nextSounds 0) (List.cons_ne_nil _ _) fourWords
  refine ⟨call, sounds, nextSounds, ⟨left, right, leftRan, rightRan, same, ?_⟩, left', right',
    leftRan', rightRan', reorders, ?_, ?_⟩
  · cases leftRan
    rfl
  · cases leftRan'
    rfl
  · cases rightRan'
    rfl

end Glimpses

end Multiparse
