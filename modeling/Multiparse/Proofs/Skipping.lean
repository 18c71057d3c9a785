import Multiparse.Proofs.Repetition.Proceeding
import Multiparse.Proofs.Sequencing.Distribution

/-!
# Skipping the items of a repetition

A repetition whose items are skipped is put together from one item, more of them, and nothing. Only
the items behind the first one have to consume something, so a first item that consumes nothing has
the whole repetition behind it once more. A skipped repetition leaves the same rests as the
repetition, but all of them as often as there are ways to read nothing: none of the items, or one
that consumes nothing (`skipping_repeats`). The greedy form is put together from a whole repetition
and leaves each rest as often as that does.
-/

namespace Multiparse

open Repetition

variable {m : Type → Type} [Monad m] {τ α β : Type}

/-! ## Rests -/

namespace Outcome

/-- What each reading leaves, in order. -/
def rests (outcome : Outcome τ α) : List (Residual τ) := outcome.readings.map Reading.rest

/-- The rests of the readings that consume nothing of the input. -/
def stays (input : Residual τ) (outcome : Outcome τ α) : List (Residual τ) :=
  outcome.rests.filter fun rest => decide (rest.offset ≤ input.offset)

/-- A repetition succeeds and finds its empty reading once. The one that skips its items succeeds
too, and leaves all rests of the repetition once, and once more for each of so many idle readings of
an item. -/
structure Skips (input : Residual τ) (idle : Nat) (all : Outcome τ (List α))
    (skipped : Outcome τ Unit) : Prop where
  success : all.success = true
  skipped_success : skipped.success = true
  rests : skipped.rests.Perm (List.replicate (idle + 1) all.rests).flatten
  stays : all.stays input = [input]

@[simp] theorem rests_map (f : α → β) (outcome : Outcome τ α) :
    (outcome.map f).rests = outcome.rests := by
  rw [rests, map_readings, List.map_map]
  rfl

namespace Skips

variable {input : Residual τ} {idle : Nat} {all : Outcome τ (List α)} {skipped : Outcome τ Unit}

/-- The empty repetition is found as often as anything else. -/
theorem skipped_stays (skips : Skips input idle all skipped) :
    skipped.stays input = List.replicate (idle + 1) input := by
  rw [← List.perm_replicate]
  have filtered := skips.rests.filter fun rest => decide (rest.offset ≤ input.offset)
  have once := skips.stays
  rw [Outcome.stays] at once
  rwa [List.filter_flatten, List.map_replicate, once, List.flatten_replicate_singleton] at filtered

theorem agrees_iff (skips : Skips input idle all skipped) :
    skipped.rests.Perm all.rests ↔ idle = 0 := by
  constructor
  · intro agrees
    have counted : (skipped.stays input).length = (all.stays input).length :=
      (agrees.filter fun rest : Residual τ => decide (rest.offset ≤ input.offset)).length_eq
    rw [skips.skipped_stays, skips.stays, List.length_replicate] at counted
    exact Nat.succ.inj counted
  · rintro rfl
    simpa using skips.rests

end Skips

end Outcome

/-! ## What a repetition reaches -/

namespace Repetition

variable {run : Residual τ → Outcome τ α} {input : Residual τ} {extent : Extent}

/-- The readings of an item that consume something. -/
def moving (run : Residual τ → Outcome τ α) (input : Residual τ) : List (Reading τ α) :=
  (run input).readings.filter fun item => decide (input.offset < item.rest.offset)

/-- The readings of an item that consume nothing. -/
def resting (run : Residual τ → Outcome τ α) (input : Residual τ) : List (Reading τ α) :=
  (run input).readings.filter fun item => !decide (input.offset < item.rest.offset)

/-- What any number of items leave, fewest of them first. -/
def reached (run : Residual τ → Outcome τ α) (input : Residual τ) : List (Residual τ) :=
  (below run input (input.remaining + 1)).map Reading.rest

/-- Every number of items counts. -/
def Exploring (extent : Extent) : Prop := extent = .shortestFirst ∨ extent = .longestFirst

/-- Without items the input is left, and with some of them what is reached behind the first. -/
theorem reached_perm (proceeds : Proceeds run) (input : Residual τ) :
    (reached run input).Perm
      (input :: (moving run input).flatMap fun item => reached run item.rest) := by
  have behind : ∀ item ∈ moving run input,
      ((List.range input.remaining).flatMap fun count =>
        (level run item.rest count).map Reading.rest) = reached run item.rest := by
    intro item member
    obtain ⟨read, consumes⟩ := List.mem_filter.mp member
    have fewer := (proceeds.leads _ _ read).remaining_lt (of_decide_eq_true consumes)
    rw [reached, ← below_of_remaining_lt proceeds fewer, below, List.map_flatMap]
  have first : ∀ count, (level run input (count + 1)).map Reading.rest =
      (moving run input).flatMap fun item => (level run item.rest count).map Reading.rest := by
    intro count
    rw [level_succ_eq, List.map_flatMap]
    simp only [List.map_map]
    rfl
  rw [reached, below, List.range_succ_eq_map, List.flatMap_cons, List.map_append, List.flatMap_map,
    List.map_flatMap, ← List.flatMap_congr behind]
  simp only [Nat.succ_eq_add_one, first]
  exact (Chain.flatMap_swap_perm _ _ _).cons input

theorem flatten_replicate_perm {A : Type} {items others : List A} (same : items.Perm others)
    (times : Nat) :
    (List.replicate times items).flatten.Perm (List.replicate times others).flatten := by
  induction times with
  | zero => exact .refl _
  | succ times ih =>
    rw [List.replicate_succ, List.replicate_succ, List.flatten_cons, List.flatten_cons]
    exact same.append ih

theorem stays_length (run : Residual τ → Outcome τ α) (input : Residual τ) :
    ((run input).stays input).length = (resting run input).length := by
  rw [Outcome.stays, Outcome.rests, List.filter_map, List.length_map, resting]
  simp only [Function.comp_def, ← decide_not, not_lt]

/-- Behind each item that consumes nothing everything is reached once more. -/
theorem resting_reached (proceeds : Proceeds run) (input : Residual τ) :
    ((resting run input).flatMap fun item => reached run item.rest) =
      (List.replicate (resting run input).length (reached run input)).flatten := by
  have still : ∀ item ∈ resting run input, reached run item.rest = reached run input := by
    intro item member
    obtain ⟨read, stays⟩ := List.mem_filter.mp member
    have shallow : item.rest.offset ≤ input.offset := by simpa using stays
    rw [(proceeds.leads _ _ read).eq_of_offset_le shallow]
  rw [List.flatMap_congr still, List.flatMap, List.map_const']

/-- One item with any number behind it, or nothing: the items behind the first are counted with it
where the first consumes something, and all over again where it does not. -/
theorem reached_again (proceeds : Proceeds run) (input : Residual τ) :
    (input :: (run input).readings.flatMap fun item => reached run item.rest).Perm
      (List.replicate (((run input).stays input).length + 1) (reached run input)).flatten := by
  have sorted : ((run input).readings.flatMap fun item => reached run item.rest).Perm
      (((moving run input).flatMap fun item => reached run item.rest) ++
        (List.replicate (resting run input).length (reached run input)).flatten) := by
    rw [← resting_reached proceeds, ← List.flatMap_append]
    exact (List.filter_append_perm _ _).symm.flatMap_right _
  rw [stays_length, List.replicate_succ, List.flatten_cons]
  exact (sorted.cons input).trans ((reached_perm proceeds input).symm.append_right _)

/-- Only the empty repetition leaves the input. -/
theorem reached_stays (run : Residual τ → Outcome τ α) (input : Residual τ) :
    ((reached run input).filter fun rest => decide (rest.offset ≤ input.offset)) = [input] := by
  have empty : ∀ items ∈ below run input (input.remaining + 1),
      decide (items.rest.offset ≤ input.offset) = items.value.isEmpty := by
    intro items member
    obtain ⟨count, -, present⟩ := mem_below.mp member
    have climbed := (climbs_of_mem_level present).offset_le
    rw [length_of_mem_level present] at climbed
    cases count with
    | zero =>
      obtain rfl := List.mem_singleton.mp present
      simp
    | succ count =>
      have filled : items.value ≠ [] := by
        have counted := length_of_mem_level present
        exact List.ne_nil_of_length_eq_add_one counted
      rw [List.isEmpty_eq_false_iff.mpr filled, decide_eq_false_iff_not]
      omega
  rw [reached, List.filter_map, Function.comp_def, List.filter_congr empty, filter_below]
  rfl

theorem kept_rests (exploring : Exploring extent) (input : Residual τ) :
    (kept run input input.remaining extent).rests.Perm (reached run input) := by
  rcases exploring with rfl | rfl
  · exact .refl _
  · exact (List.reverse_perm _).map _

theorem kept_success (exploring : Exploring extent) (input : Residual τ) :
    (kept run input input.remaining extent).success = true := by
  rcases exploring with rfl | rfl <;> rfl

theorem skips_of_perm (proceeds : Proceeds run) (exploring : Exploring extent)
    {skipped : Outcome τ Unit} (success : skipped.success = true)
    (again : skipped.rests.Perm
      (input :: (run input).readings.flatMap fun item => reached run item.rest)) :
    Outcome.Skips input ((run input).stays input).length (kept run input input.remaining extent)
      skipped where
  success := kept_success exploring input
  skipped_success := success
  rests :=
    (again.trans (reached_again proceeds input)).trans
      (flatten_replicate_perm (kept_rests exploring input).symm _)
  stays := by
    rw [← List.perm_singleton, ← reached_stays run input]
    exact (kept_rests exploring input).filter _

variable [LawfulMonad m] {q : Parser m τ α}

theorem repeated_computes (computes : q.Computes run) (proceeds : Proceeds run)
    (exploring : Exploring extent) :
    (Parser.repeated extent q).Computes fun input => kept run input input.remaining extent := by
  intro input
  obtain ⟨last, shallow, exact⟩ := exists_last_of_proceeds proceeds input
  have all := below_of_dry (Nat.succ_le_succ shallow) (dry_behind_last exact)
  rw [repeated_pure computes shallow exact extent]
  rcases exploring with rfl | rfl <;> simp only [kept, all]

end Repetition

/-! ## One item and more, or nothing -/

namespace Outcome

variable {run : Residual τ → Outcome τ α} {extent : Extent}

/-- One item and what an extent keeps of the levels behind it. -/
def oneAnd (run : Residual τ → Outcome τ α) (extent : Extent) (input : Residual τ) :
    Outcome τ (List α) :=
  ((run input).andThen fun item =>
    (kept run item.rest item.rest.remaining extent).map (item.value, ·)).map
    fun values => values.1 :: values.2

theorem oneAnd_sound (proceeds : Proceeds run) (extent : Extent) (input : Residual τ) :
    (oneAnd run extent input).Sound :=
  ((proceeds.sounds input).andThen _).map _

theorem oneAnd_rests (proceeds : Proceeds run) (exploring : Exploring extent)
    (input : Residual τ) :
    (oneAnd run extent input).rests.Perm
      ((run input).readings.flatMap fun item => reached run item.rest) := by
  rw [oneAnd, rests_map, rests, (proceeds.sounds input).andThen_readings, List.map_flatMap]
  apply List.Perm.flatMap_left
  intro item _
  rw [← rests, rests_map]
  exact kept_rests exploring item.rest

/-- A reading of nothing. -/
def ofNothing (value : α) (input : Residual τ) : Outcome τ α := .ofReadings [⟨value, input⟩] none

theorem ofNothing_sound (value : α) (input : Residual τ) : (ofNothing value input).Sound :=
  ofReadings_sound none (List.cons_ne_nil _ _)

theorem readings_chosen_pair {first second : Outcome τ α} (firstSound : first.Sound)
    (secondSound : second.Sound) :
    (chosen .exhaustive [first, second]).readings = first.readings ++ second.readings := by
  have sounds : ∀ outcome ∈ [first, second], outcome.Sound :=
    List.forall_mem_cons.mpr ⟨firstSound, List.forall_mem_singleton.mpr secondSound⟩
  rw [readings_of_sound sounds, List.flatMap_cons, List.flatMap_singleton]

theorem rests_chosen_pair {first second : Outcome τ α} (firstSound : first.Sound)
    (secondSound : second.Sound) :
    (chosen .exhaustive [first, second]).rests = first.rests ++ second.rests := by
  rw [rests, readings_chosen_pair firstSound secondSound, List.map_append]
  rfl

end Outcome

theorem satisfy_proceeds [Token τ] (accepts : τ → Bool) (expected : String) :
    ∃ run, (Parser.satisfy accepts expected : Parser m τ τ).Computes run ∧ Proceeds run := by
  refine ⟨_, Parser.ofFunction_computes _, fun input => ?_, fun input reading member => ?_⟩
  · split
    · exact Outcome.failure_sound _
    · split
      · exact Outcome.ofReadings_sound _ (List.cons_ne_nil _ _)
      · exact Outcome.failure_sound _
  · split at member
    · cases member
    · split at member
      · obtain rfl := List.mem_singleton.mp member
        exact .advance input
      · cases member

theorem Proceeds.optional {run : Residual τ → Outcome τ α} (proceeds : Proceeds run) :
    Proceeds fun input =>
      .chosen .exhaustive [(run input).map some, .ofNothing none input] where
  sounds input := by
    apply Outcome.chosen_exhaustive_sound
    exact List.forall_mem_cons.mpr ⟨(proceeds.sounds input).map some,
      List.forall_mem_singleton.mpr (Outcome.ofNothing_sound none input)⟩
  leads input reading member := by
    have left : reading.rest ∈ (Outcome.chosen .exhaustive
        [(run input).map some, .ofNothing none input]).rests := List.mem_map_of_mem member
    rw [Outcome.rests_chosen_pair ((proceeds.sounds input).map some)
      (Outcome.ofNothing_sound none input), Outcome.rests_map] at left
    rcases List.mem_append.mp left with own | nothing
    · obtain ⟨item, read, same⟩ := List.mem_map.mp own
      rw [← same]
      exact proceeds.leads input item read
    · rw [List.mem_singleton.mp nothing]
      exact .refl input

section Grammars

variable {N : Names} [LawfulMonad m] [Aborts m] [Defers m] [Observes N.Tracer m] [Token τ]
  {call : (rule : N.Rule) → Parser m τ (N.Result rule)} {p : Grammar N τ α}
  {run : Residual τ → Outcome τ α} {extent : Extent}

theorem oneAnd_computes (computes : (p.interpret call).Computes run) (proceeds : Proceeds run)
    (exploring : Exploring extent) :
    ((Grammar.oneAnd extent p).interpret call).Computes (Outcome.oneAnd run extent) :=
  (computes.bind fun first =>
    (repeated_computes computes proceeds exploring).map fun others => (first, others)).map _

theorem optional_of_pure {input : Residual τ} {outcome : Outcome τ α}
    (ran : p.interpret call input = pure outcome) (policy : Policy) :
    (Grammar.optional policy p).interpret call input =
      pure (.chosen policy [outcome.map some, .ofNothing none input]) := by
  rw [Grammar.optional, Grammar.interpret_choiceOf]
  exact Parser.choice_of_return (.cons (Parser.map_of_pure ran some) (.cons rfl .nil)) policy

theorem skip_of_pure {input : Residual τ} {outcome : Outcome τ α}
    (ran : p.interpret call input = pure outcome) (policy : Policy) :
    (Grammar.skip policy p).interpret call input =
      pure ((Outcome.chosen policy [outcome.map some, .ofNothing none input]).map fun _ => ()) :=
  Parser.map_of_pure (optional_of_pure ran policy) _

/-- Most items first, and nothing behind the others. -/
theorem skipMany_skips (computes : (p.interpret call).Computes run) (proceeds : Proceeds run)
    (input : Residual τ) :
    ∃ all skipped, (Grammar.many p).interpret call input = pure all ∧
      (Grammar.skipMany p).interpret call input = pure skipped ∧
      Outcome.Skips input ((run input).stays input).length all skipped := by
  have exploring : Exploring .longestFirst := .inr rfl
  have one := oneAnd_computes computes proceeds exploring input
  have sound := Outcome.oneAnd_sound proceeds .longestFirst input
  refine ⟨_, _, repeated_computes computes proceeds exploring input,
    skip_of_pure one .exhaustive, skips_of_perm proceeds exploring ?_ ?_⟩
  · rw [Outcome.map_success, Outcome.chosen_exhaustive_success]
    simp [Outcome.ofNothing, Outcome.ofReadings]
  · rw [Outcome.rests_map,
      Outcome.rests_chosen_pair (sound.map some) (Outcome.ofNothing_sound none input),
      Outcome.rests_map]
    exact (List.perm_append_singleton _ _).trans
      ((Outcome.oneAnd_rests proceeds exploring input).cons input)

/-- Fewest items first, and nothing before the others. -/
theorem skipManyShortest_skips (computes : (p.interpret call).Computes run)
    (proceeds : Proceeds run) (input : Residual τ) :
    ∃ all skipped, (Grammar.manyShortest p).interpret call input = pure all ∧
      (Grammar.skipManyShortest p).interpret call input = pure skipped ∧
      Outcome.Skips input ((run input).stays input).length all skipped := by
  have exploring : Exploring .shortestFirst := .inl rfl
  have one := oneAnd_computes computes proceeds exploring input
  have sound := Outcome.oneAnd_sound proceeds .shortestFirst input
  have ran : (Grammar.skipManyShortest p).interpret call input =
      pure (.chosen .exhaustive [.ofNothing () input,
        (Outcome.oneAnd run .shortestFirst input).map fun _ => ()]) := by
    rw [Grammar.skipManyShortest, Grammar.interpret_anyOf]
    exact Parser.choice_of_return (.cons rfl (.cons (Parser.map_of_pure one _) .nil)) .exhaustive
  refine ⟨_, _, repeated_computes computes proceeds exploring input, ran,
    skips_of_perm proceeds exploring ?_ ?_⟩
  · rw [Outcome.chosen_exhaustive_success]
    simp [Outcome.ofNothing, Outcome.ofReadings]
  · rw [Outcome.rests_chosen_pair (Outcome.ofNothing_sound () input) (sound.map _),
      Outcome.rests_map]
    exact (Outcome.oneAnd_rests proceeds exploring input).cons input

/-- As many items as can be: nothing is only read where there are none. -/
theorem skipManyGreedy_rests (computes : (p.interpret call).Computes run)
    (proceeds : Proceeds run) (input : Residual τ) :
    ∃ deepest skipped, (Grammar.manyGreedy p).interpret call input = pure deepest ∧
      (Grammar.skipManyGreedy p).interpret call input = pure skipped ∧
      deepest.success = true ∧ skipped.success = true ∧ skipped.rests = deepest.rests := by
  obtain ⟨last, shallow, exact⟩ := exists_last_of_proceeds proceeds input
  have most : (Grammar.manyGreedy p).interpret call input = pure (kept run input last .greedy) :=
    repeated_pure computes shallow exact .greedy
  refine ⟨_, _, most, skip_of_pure most .ordered, rfl, rfl, ?_⟩
  rw [Outcome.rests_map]
  exact Outcome.rests_map some (kept run input last .greedy)

end Grammars

/-- **Skipping repeats the empty items.** Let the items be read by a grammar that computes, whose
outcomes are sound and which never moves back. A repetition of any length, most or fewest items
first, and the one that skips its items both succeed. The repetition finds its empty reading once.
The one that skips leaves all that the repetition leaves, once for the empty reading and once more
for each reading of an item that consumes nothing of the input, and the input as often as that; so
the two leave the same rests equally often if and only if there is no such reading. A greedy
repetition and the one that skips its items always leave the same rests. -/
theorem skipping_repeats {N : Names} [LawfulMonad m] [Aborts m] [Defers m] [Observes N.Tracer m]
    [Token τ] {call : (rule : N.Rule) → Parser m τ (N.Result rule)} {p : Grammar N τ α}
    {run : Residual τ → Outcome τ α} (computes : (p.interpret call).Computes run)
    (proceeds : Proceeds run) (input : Residual τ) :
    (∀ forms ∈ [(Grammar.many p, Grammar.skipMany p),
        (Grammar.manyShortest p, Grammar.skipManyShortest p)],
      ∃ all skipped, forms.1.interpret call input = pure all ∧
        forms.2.interpret call input = pure skipped ∧
        Outcome.Skips input ((run input).stays input).length all skipped ∧
        skipped.stays input = List.replicate (((run input).stays input).length + 1) input ∧
        (skipped.rests.Perm all.rests ↔ (run input).stays input = [])) ∧
    ∃ deepest skipped, (Grammar.manyGreedy p).interpret call input = pure deepest ∧
      (Grammar.skipManyGreedy p).interpret call input = pure skipped ∧
      deepest.success = true ∧ skipped.success = true ∧ skipped.rests = deepest.rests := by
  refine ⟨List.forall_mem_cons.mpr ⟨?most, List.forall_mem_singleton.mpr ?fewest⟩,
    skipManyGreedy_rests computes proceeds input⟩
  case most =>
    obtain ⟨all, skipped, ran, skippedRan, skips⟩ := skipMany_skips computes proceeds input
    exact ⟨all, skipped, ran, skippedRan, skips, skips.skipped_stays,
      skips.agrees_iff.trans List.length_eq_zero_iff⟩
  case fewest =>
    obtain ⟨all, skipped, ran, skippedRan, skips⟩ := skipManyShortest_skips computes proceeds input
    exact ⟨all, skipped, ran, skippedRan, skips, skips.skipped_stays,
      skips.agrees_iff.trans List.length_eq_zero_iff⟩

section Pauses

open Grammar

/-- One word, or nothing, in two ways. -/
def saunter (rest : Residual Word) : Outcome Word Nat :=
  .ofReadings [⟨1, rest.advance⟩, ⟨2, rest⟩, ⟨3, rest⟩] none

theorem saunter_proceeds : Proceeds saunter where
  sounds input := Outcome.ofReadings_sound none (List.cons_ne_nil _ _)
  leads input reading member := by
    simp only [saunter, Outcome.ofReadings, List.mem_cons, List.not_mem_nil, or_false] at member
    rcases member with rfl | rfl | rfl
    · exact .advance input
    · exact .refl input
    · exact .refl input

/-- Nothing can be read in two ways, so everything is left three times. -/
theorem skipping_repeats_saunter :
    ∃ call : (rule : Unit) → Parser (Except Fault) Word Nat,
      ((custom saunter : Grammar towerNames Word Nat).interpret call).Computes saunter ∧
      Proceeds saunter ∧
      ∃ all skipped,
        (many (.custom saunter) : Grammar towerNames Word _).interpret call
          (.start [Word.ofLexeme "a"]) = .ok all ∧
        (skipMany (.custom saunter) : Grammar towerNames Word _).interpret call
          (.start [Word.ofLexeme "a"]) = .ok skipped ∧
        all.stops = [1, 0] ∧ skipped.stops = [1, 1, 0, 1, 0, 0] ∧
        ¬skipped.rests.Perm all.rests := by
  let call : (rule : Unit) → Parser (Except Fault) Word Nat := fun _ => .fail "no rule"
  have computes : ((custom saunter : Grammar towerNames Word Nat).interpret call).Computes
      saunter :=
    Parser.ofFunction_computes saunter
  obtain ⟨forms, -⟩ := skipping_repeats computes saunter_proceeds (.start [Word.ofLexeme "a"])
  obtain ⟨all, skipped, ran, skippedRan, -, -, agrees⟩ := forms _ List.mem_cons_self
  refine ⟨call, computes, saunter_proceeds, all, skipped, ran, skippedRan, ?_, ?_,
    mt agrees.mp (List.cons_ne_nil _ _)⟩
  · cases ran
    rfl
  · cases skippedRan
    rfl

/-- The letter, or nothing. -/
def perhapsLetter : Grammar towerNames Word (Option Word) := optional .exhaustive (literal "a")

theorem perhapsLetter_proceeds (call : (rule : Unit) → Parser (Except Fault) Word Nat) :
    ∃ run, (perhapsLetter.interpret call).Computes run ∧ Proceeds run := by
  obtain ⟨run, computes, proceeds⟩ := satisfy_proceeds (m := Except Fault)
    (fun word : Word => Token.lexeme word == "a") "'a'"
  have letter : ((literal "a" : Grammar towerNames Word Word).interpret call).Computes run :=
    computes
  exact ⟨_, fun input => optional_of_pure (letter input) .exhaustive, proceeds.optional⟩

/-- A letter or nothing consumes all of a letter in one way if it is repeated, and in two ways if
it is skipped. -/
theorem perhapsLetter_skipped_twice :
    ∃ (call : (rule : Unit) → Parser (Except Fault) Word Nat)
      (run : Residual Word → Outcome Word (Option Word)),
      (perhapsLetter.interpret call).Computes run ∧ Proceeds run ∧
      ∃ all skipped,
        (many perhapsLetter).interpret call (.start [Word.ofLexeme "a"]) = .ok all ∧
        (skipMany perhapsLetter).interpret call (.start [Word.ofLexeme "a"]) = .ok skipped ∧
        ¬skipped.rests.Perm all.rests ∧
        all.stops = [1, 0] ∧ skipped.stops = [1, 1, 0, 0] ∧
        all.whole = .ok [some (Word.ofLexeme "a")] ∧
        skipped.whole = .error (.ofMessage "multiple results are returned") := by
  let call : (rule : Unit) → Parser (Except Fault) Word Nat := fun _ => .fail "no rule"
  obtain ⟨run, computes, proceeds⟩ := perhapsLetter_proceeds call
  refine ⟨call, run, computes, proceeds, _, _, rfl, rfl, fun same => ?_, rfl, rfl, rfl, rfl⟩
  have counted := same.length_eq
  cases counted

end Pauses

end Multiparse
