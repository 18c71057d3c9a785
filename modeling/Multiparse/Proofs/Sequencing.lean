import Multiparse.Grammar.Lemmas
import Multiparse.Proofs.Computed
import Multiparse.Proofs.Wording

/-!
# Laws of sequencing

Parsers that compute and are sound may be sequenced in any grouping: what is read comes in the same
order, and what is wrong lies at the same place, although the stages are run in another order and
their diagnostics are merged in another one. A parser that reads a value without consuming anything
is neutral on both sides, down to the words of the diagnostic (`sequencing_lawful`).
-/

namespace Multiparse

open Diagnostic

variable {τ α β γ : Type}

namespace Outcome

variable {first : Outcome τ α} {next : Reading τ α → Outcome τ β}
  {further : Reading τ β → Outcome τ γ}

/-- Sound outcomes with the same readings only have to agree on where something is wrong. -/
theorem Sound.sameFindings {outcome : Outcome τ α} (sound : first.Sound) (sound' : outcome.Sound)
    (same : first.readings = outcome.readings) (deep : depth first.error = depth outcome.error) :
    first.SameFindings outcome :=
  { success := by rw [sound.success_eq, sound'.success_eq, same]
    readings := same
    place := deep }

/-- Sequencing is associative. -/
theorem Sound.andThen_assoc (sound : first.Sound) (sounds : ∀ reading, (next reading).Sound)
    (furtherSounds : ∀ reading, (further reading).Sound) :
    ((first.andThen next).andThen further).SameFindings
      (first.andThen fun reading => (next reading).andThen further) := by
  have inner := sound.andThen next
  have laterSounds := fun reading => (sounds reading).andThen further
  apply (inner.andThen further).sameFindings (sound.andThen _)
  · rw [inner.andThen_readings, sound.andThen_readings, sound.andThen_readings,
      List.flatMap_assoc]
    exact List.flatMap_congr fun reading _ => ((sounds reading).andThen_readings further).symm
  · -- The diagnostics are merged in another order, so what lies below a bound is compared.
    apply eq_of_forall_ge_iff
    intro bound
    rw [inner.depth_andThen_le_iff furtherSounds, sound.depth_andThen_le_iff sounds,
      sound.depth_andThen_le_iff laterSounds, sound.andThen_readings, List.forall_mem_flatMap,
      and_assoc, ← forall₂_and]
    exact and_congr_right fun _ => forall₂_congr fun reading _ =>
      ((sounds reading).depth_andThen_le_iff furtherSounds).symm

theorem map_conclude (f : α → β) (readings : List (Reading τ α)) (error : Option Diagnostic) :
    (Layer.conclude ⟨readings, error⟩).map f =
      Layer.conclude ⟨readings.map (Reading.map f), error⟩ := by
  cases readings <;> rfl

/-- Values may be changed before or after sequencing. -/
theorem map_andThen (f : β → γ) :
    (first.andThen next).map f = first.andThen fun reading => (next reading).map f := by
  cases succeeded : first.success with
  | false =>
    rw [andThen_of_failed succeeded, andThen_of_failed succeeded]
    rfl
  | true =>
    rw [andThen_of_success succeeded, andThen_of_success succeeded, map_conclude,
      List.map_flatMap]
    rfl

theorem andThen_map (f : γ → α) {first : Outcome τ γ} :
    (first.map f).andThen next = first.andThen fun reading => next (reading.map f) := by
  simp only [andThen, map_success, map_readings, map_error, List.flatMap_map, List.map_map]
  rfl

theorem map_map (f : α → β) (g : β → γ) :
    (first.map f).map g = first.map fun value => g (f value) := by
  simp only [map, List.map_map]
  rfl

theorem Sound.conclude_eq (sound : first.Sound) :
    Layer.conclude ⟨first.readings, first.error⟩ = first := by
  obtain ⟨success, readings, error⟩ := first
  cases success with
  | true =>
    cases readings with
    | nil => exact absurd rfl (sound.fruitful rfl)
    | cons reading others => rfl
  | false =>
    obtain rfl : readings = [] := sound.barren rfl
    obtain ⟨reason, rfl⟩ := Option.isSome_iff_exists.mp (sound.reason rfl)
    rfl

/-- Going on from one value is what comes behind it. -/
theorem andThen_single {value : α} {input : Residual τ} (sound : (next ⟨value, input⟩).Sound) :
    (ofReadings [⟨value, input⟩] none).andThen next = next ⟨value, input⟩ := by
  rw [andThen_of_success rfl]
  refine Eq.trans ?_ sound.conclude_eq
  simp [ofReadings]

/-- Going on with nothing more changes nothing. -/
theorem Sound.andThen_self (sound : first.Sound) :
    (first.andThen fun reading => ofReadings [reading] none) = first := by
  refine Eq.trans ?_ sound.conclude_eq
  cases succeeded : first.success with
  | false =>
    rw [andThen_of_failed succeeded, sound.barren succeeded]
    obtain ⟨reason, explained⟩ := Option.isSome_iff_exists.mp (sound.reason succeeded)
    rw [Outcome.toFailure, explained]
    rfl
  | true =>
    have silent : (first.readings.map fun _ => none).foldl farthest first.error = first.error := by
      induction first.readings with
      | nil => rfl
      | cons reading others ih => simpa using ih
    rw [andThen_of_success succeeded]
    simp only [ofReadings, List.flatMap_singleton', silent]

/-- Three outcomes in sequence, with their values paired up on the way. -/
theorem Sound.pairs_assoc {second : Residual τ → Outcome τ β} {third : Residual τ → Outcome τ γ}
    (sound : first.Sound) (secondSound : ∀ input, (second input).Sound)
    (thirdSound : ∀ input, (third input).Sound) :
    (((first.andThen fun left => (second left.rest).map (left.value, ·)).andThen
      fun pair => (third pair.rest).map (pair.value, ·)).map
        fun values => (values.1.1, values.1.2, values.2)).SameFindings
      (first.andThen fun left => ((second left.rest).andThen
        fun middle => (third middle.rest).map (middle.value, ·)).map (left.value, ·)) := by
  have reassociated := sound.andThen_assoc
    (fun left => (secondSound left.rest).map (left.value, ·))
    (fun pair => (thirdSound pair.rest).map fun value => (pair.value.1, pair.value.2, value))
  simp only [map_andThen, map_map, andThen_map] at reassociated ⊢
  exact reassociated

end Outcome

/-- **Sequencing is associative, and binding is a monad.** Let grammars stand for parsers that
compute and are sound. Three in sequence may be grouped to the left or to the right: up to the
grouping of the values the same readings are found in the same order, and the diagnostics lie at the
same place. So may two continuations behind a grammar. A value that is read without consuming
anything is left out in front of a continuation and behind a grammar, which leaves the outcome as it
is, the diagnostic included. -/
theorem sequencing_lawful {N : Names} {m : Type → Type} [Monad m] [LawfulMonad m] [Aborts m]
    [Defers m] [Observes N.Tracer m] [Token τ] {call : (rule : N.Rule) → Parser m τ (N.Result rule)}
    {p : Grammar N τ α} {q : Grammar N τ β} {r : Grammar N τ γ} {next : α → Grammar N τ β}
    {further : β → Grammar N τ γ} (soundP : (p.interpret call).Sound)
    (soundQ : (q.interpret call).Sound) (soundR : (r.interpret call).Sound)
    (soundNext : ∀ value, ((next value).interpret call).Sound)
    (soundFurther : ∀ value, ((further value).interpret call).Sound)
    (held held' : List N.Rule) (input : Residual τ) :
    (∃ left right, (Grammar.pair (.pair p q) r).interpret call input = pure left ∧
      (Grammar.pair p (.pair q r)).interpret call input = pure right ∧
      (left.map fun values => (values.1.1, values.1.2, values.2)).SameFindings right) ∧
    (∃ left right, ((p.bind held next).bind held' further).interpret call input = pure left ∧
      (p.bind held fun value => (next value).bind held' further).interpret call input =
        pure right ∧
      left.SameFindings right) ∧
    (∀ value : α, ((Grammar.succeed value).bind held next).interpret call input =
      (next value).interpret call input) ∧
    (p.bind held .succeed).interpret call input = p.interpret call input := by
  obtain ⟨first, firstRan, firstSound⟩ := soundP
  obtain ⟨second, secondRan, secondSound⟩ := soundQ
  obtain ⟨third, thirdRan, thirdSound⟩ := soundR
  choose continued nextRan nextSound using soundNext
  choose finished furtherRan furtherSound using soundFurther
  refine ⟨?pairs, ?binds, ?left, ?right⟩
  case pairs =>
    have grouped := (firstRan.bind fun left => secondRan.map (left, ·)).bind
      fun pair => thirdRan.map (pair, ·)
    have nested := firstRan.bind fun left =>
      (secondRan.bind fun middle => thirdRan.map (middle, ·)).map (left, ·)
    exact ⟨_, _, grouped input, nested input, (firstSound input).pairs_assoc secondSound thirdSound⟩
  case binds =>
    have grouped := (firstRan.bind nextRan).bind furtherRan
    have nested := firstRan.bind fun value => (nextRan value).bind furtherRan
    exact ⟨_, _, grouped input, nested input, (firstSound input).andThen_assoc
      (fun reading => nextSound reading.value reading.rest)
      fun reading => furtherSound reading.value reading.rest⟩
  case left =>
    intro value
    calc ((Grammar.succeed value).bind held next).interpret call input
      _ = pure ((Outcome.ofReadings [⟨value, input⟩] none).andThen fun reading =>
            continued reading.value reading.rest) :=
          (Parser.ofFunction_computes _).bind nextRan input
      _ = pure (continued value input) :=
          congrArg pure (Outcome.andThen_single (nextSound value input))
      _ = (next value).interpret call input := (nextRan value input).symm
  case right =>
    calc (p.bind held .succeed).interpret call input
      _ = pure ((first input).andThen fun reading => .ofReadings [reading] none) :=
          firstRan.bind (fun _ => Parser.ofFunction_computes _) input
      _ = pure (first input) := congrArg pure (firstSound input).andThen_self
      _ = p.interpret call input := (firstRan input).symm

section Glimpses

/-- Words are taken one at a time or, where there are as many, two at a time. -/
def glimpse (input : Residual Word) : Outcome Word Nat :=
  match input.tokens with
  | [] => .failure (.exhausted "word")
  | [_] => .ofReadings [⟨1, input.advance⟩] (some (.exhausted "word"))
  | _ => .ofReadings [⟨1, input.advance⟩, ⟨2, input.advanceBy 2⟩] none

/-- A glimpse, with what has been seen before. -/
def another (seen : Nat) : Grammar towerNames Word Nat := .map (seen + ·) (.custom glimpse)

/-- Four words. -/
def fourWords : Residual Word :=
  .start (["a", "rose", "is", "red"].map fun lexeme => ⟨"WORD", lexeme, none⟩)

theorem glimpse_sound (input : Residual Word) : (glimpse input).Sound := by
  rw [glimpse]
  split
  · exact Outcome.failure_sound _
  · exact Outcome.ofReadings_sound _ (List.cons_ne_nil _ _)
  · exact Outcome.ofReadings_sound _ (List.cons_ne_nil _ _)

/-- Three glimpses at four words see three of them or, in three ways, all four. -/
theorem sequencing_lawful_glimpse :
    ∃ call : (rule : Unit) → Parser (Except Fault) Word Nat,
      (∀ seen, ((another seen).interpret call).Sound) ∧
      (∃ left right,
        (((another 0).pair (another 0)).pair (another 0)).interpret call fourWords = .ok left ∧
        ((another 0).pair ((another 0).pair (another 0))).interpret call fourWords = .ok right ∧
        left.values = [((1, 1), 1), ((1, 1), 2), ((1, 2), 1), ((2, 1), 1)] ∧
        right.values = [(1, 1, 1), (1, 1, 2), (1, 2, 1), (2, 1, 1)] ∧
        depth left.error = depth right.error) ∧
      (∃ left right,
        (((another 0).bind [] another).bind [] another).interpret call fourWords = .ok left ∧
        ((another 0).bind [] fun seen => (another seen).bind [] another).interpret call fourWords =
          .ok right ∧
        left.SameFindings right ∧ left.values = [3, 4, 4, 4]) ∧
      ((Grammar.succeed 3).bind [] another).interpret call fourWords =
        (another 3).interpret call fourWords ∧
      ((another 0).bind [] .succeed).interpret call fourWords =
        (another 0).interpret call fourWords := by
  let call : (rule : Unit) → Parser (Except Fault) Word Nat := fun _ => .fail "no rule"
  have sounds : ∀ seen, ((another seen).interpret call).Sound := fun seen =>
    ⟨_, (Parser.ofFunction_computes glimpse).map (seen + ·),
      fun input => (glimpse_sound input).map (seen + ·)⟩
  obtain ⟨⟨left, right, leftRan, rightRan, paired⟩, ⟨left', right', leftRan', rightRan', bound⟩,
    before, behind⟩ :=
    sequencing_lawful (sounds 0) (sounds 0) (sounds 0) sounds sounds [] [] fourWords
  have grouped : left.values = [((1, 1), 1), ((1, 1), 2), ((1, 2), 1), ((2, 1), 1)] := by
    cases leftRan
    rfl
  have sums : left'.values = [3, 4, 4, 4] := by
    cases leftRan'
    rfl
  have nested : right.values = [(1, 1, 1), (1, 1, 2), (1, 2, 1), (2, 1, 1)] := by
    rw [Outcome.values, ← paired.readings]
    cases leftRan
    rfl
  exact ⟨call, sounds, ⟨left, right, leftRan, rightRan, grouped, nested, paired.place⟩,
    ⟨left', right', leftRan', rightRan', bound, sums⟩, before 3, behind⟩

end Glimpses

end Multiparse
