import Multiparse.Proofs.Chain.Right
import Multiparse.Proofs.Repetition.Proceeding

/-!
# The longest run of items

A grammar in which something stands to the left of itself is read as a head and a repetition of what
may follow it, folded from the left. Where a head and an item have one reading at most, the items
make one longest run behind the head. All beginnings of the run are readings, the longest of them
first, and the greedy form has the first of these readings and the same diagnostic
(`longest_run_first`).
-/

namespace Multiparse

open Diagnostic Repetition

variable {m : Type → Type} [Monad m] {τ α β : Type}

/-- The items follow each other, each of them consumes something, and behind the last of them no
item consumes anything. -/
inductive LongestRun (item : Residual τ → Outcome τ β) :
    Residual τ → List (Reading τ β) → Prop where
  | stop {rest : Residual τ}
      (stuck : ∀ reading ∈ (item rest).readings, reading.rest.offset ≤ rest.offset) :
      LongestRun item rest []
  | step {rest : Residual τ} {reading : Reading τ β} {later : List (Reading τ β)}
      (member : reading ∈ (item rest).readings) (consumes : rest.offset < reading.rest.offset)
      (run : LongestRun item reading.rest later) : LongestRun item rest (reading :: later)

/-- What the last of the items leaves. -/
def restBehind (rest : Residual τ) (items : List (Reading τ β)) : Residual τ :=
  (items.getLast?.map Reading.rest).getD rest

/-- The values of the items are folded into the value of the head. -/
def foldedInto (f : α → β → α) (head : Reading τ α) (items : List (Reading τ β)) : Reading τ α :=
  ⟨(items.map Reading.value).foldl f head.value, restBehind head.rest items⟩

theorem restBehind_cons (rest : Residual τ) (reading : Reading τ β)
    (later : List (Reading τ β)) :
    restBehind rest (reading :: later) = restBehind reading.rest later := by
  rw [restBehind, restBehind, List.getLast?_cons]
  cases later.getLast? <;> rfl

/-- The beginnings of some items leave the input, and what each of the items leaves. -/
theorem map_restBehind_take (rest : Residual τ) (items : List (Reading τ β)) :
    ((List.range (items.length + 1)).map fun count => restBehind rest (items.take count)) =
      rest :: items.map Reading.rest := by
  induction items generalizing rest with
  | nil => rfl
  | cons reading later ih =>
    rw [List.length_cons, List.range_succ_eq_map, List.map_cons, List.map_map, List.map_cons,
      ← ih reading.rest]
    simp only [Function.comp_def, Nat.succ_eq_add_one, List.take_succ_cons, restBehind_cons]
    rfl

namespace LongestRun

variable {item : Residual τ → Outcome τ β} {rest : Residual τ} {items : List (Reading τ β)}

theorem readings_eq (one : ∀ input, (item input).readings.length ≤ 1) {reading : Reading τ β}
    (member : reading ∈ (item rest).readings) : (item rest).readings = [reading] := by
  obtain nothing | ⟨only, read⟩ := Chain.eq_nil_or_singleton (one rest)
  · rw [nothing] at member
    cases member
  · rw [read] at member ⊢
    rw [List.mem_singleton.mp member]

/-- Without ambiguity the levels of a repetition are the beginnings of the longest run. -/
theorem level_eq (one : ∀ input, (item input).readings.length ≤ 1)
    (longest : LongestRun item rest items) (count : Nat) :
    level item rest count =
      if count ≤ items.length then
        [⟨(items.take count).map Reading.value, restBehind rest (items.take count)⟩]
      else [] := by
  induction longest generalizing count with
  | @stop rest stuck =>
    cases count with
    | zero => rfl
    | succ count =>
      have still : ((item rest).readings.filter fun reading =>
          decide (rest.offset < reading.rest.offset)) = [] := by
        rw [List.filter_eq_nil_iff]
        intro reading member
        have shallow := stuck reading member
        simpa using shallow
      rw [level_succ_eq, still]
      rfl
  | @step rest reading later member consumes run ih =>
    cases count with
    | zero => rfl
    | succ count =>
      rw [level_succ_eq, readings_eq one member, List.filter_singleton, decide_eq_true consumes,
        cond_true, List.flatMap_singleton, ih, List.length_cons, List.take_succ_cons,
        restBehind_cons]
      simp only [Nat.add_le_add_iff_right]
      split <;> rfl

/-- Where items never move back, the longest run ends. -/
theorem exists_longest (proceeds : Proceeds item) (rest : Residual τ) :
    ∃ items, LongestRun item rest items := by
  generalize measured : rest.remaining = remaining
  induction remaining using Nat.strongRecOn generalizing rest with
  | ind remaining ih =>
    subst measured
    by_cases stuck : ∀ reading ∈ (item rest).readings, reading.rest.offset ≤ rest.offset
    · exact ⟨[], .stop stuck⟩
    · push Not at stuck
      obtain ⟨reading, member, consumes⟩ := stuck
      have shorter := (proceeds.leads rest reading member).remaining_lt consumes
      obtain ⟨later, run⟩ := ih _ shorter reading.rest rfl
      exact ⟨reading :: later, .step member consumes run⟩

/-- Without ambiguity there is only one. -/
theorem unique (one : ∀ input, (item input).readings.length ≤ 1)
    (longest : LongestRun item rest items) {others : List (Reading τ β)}
    (longest' : LongestRun item rest others) : others = items := by
  induction longest generalizing others with
  | stop stuck =>
    cases longest' with
    | stop => rfl
    | step member consumes run => exact absurd consumes (stuck _ member).not_gt
  | step member consumes run ih =>
    cases longest' with
    | stop stuck => exact absurd consumes (stuck _ member).not_gt
    | step member' consumes' run' =>
      have same := (readings_eq one member).symm.trans (readings_eq one member')
      obtain rfl := List.head_eq_of_cons_eq same
      rw [ih run']

theorem deepest_eq (one : ∀ input, (item input).readings.length ≤ 1) (proceeds : Proceeds item)
    (longest : LongestRun item rest items) : deepest item rest = items.length := by
  have filled : ∀ count, count ≤ deepest item rest ↔ count ≤ items.length := by
    intro count
    rw [← level_ne_nil_iff proceeds, longest.level_eq one]
    split <;> simp [*]
  exact le_antisymm ((filled _).mp le_rfl) ((filled _).mpr le_rfl)

theorem below_eq (one : ∀ input, (item input).readings.length ≤ 1)
    (longest : LongestRun item rest items) :
    Repetition.below item rest (items.length + 1) =
      (List.range (items.length + 1)).map fun count =>
        ⟨(items.take count).map Reading.value, restBehind rest (items.take count)⟩ := by
  rw [Repetition.below, List.map_eq_flatMap]
  apply List.flatMap_congr
  intro count early
  rw [longest.level_eq one, if_pos (Nat.le_of_lt_succ (List.mem_range.mp early))]

/-- What is met behind the beginnings of the run is met behind the head and behind each item. -/
theorem met_eq (one : ∀ input, (item input).readings.length ≤ 1)
    (longest : LongestRun item rest items) :
    met item (Repetition.below item rest (items.length + 1)) =
      ((rest :: items.map Reading.rest).map fun place => (item place).error).foldl farthest
        none := by
  rw [met, longest.below_eq one, ← map_restBehind_take, List.map_map, List.map_map]
  rfl

theorem harvest_longestFirst (one : ∀ input, (item input).readings.length ≤ 1)
    (proceeds : Proceeds item) (longest : LongestRun item rest items) :
    harvest item .longestFirst rest =
      .ofReadings
        ((List.range (items.length + 1)).reverse.map fun count =>
          ⟨(items.take count).map Reading.value, restBehind rest (items.take count)⟩)
        (((rest :: items.map Reading.rest).map fun place => (item place).error).foldl farthest
          none) := by
  rw [harvest, kept, longest.deepest_eq one proceeds, longest.met_eq one, longest.below_eq one,
    List.map_reverse]

theorem harvest_greedy (one : ∀ input, (item input).readings.length ≤ 1)
    (proceeds : Proceeds item) (longest : LongestRun item rest items) :
    harvest item .greedy rest =
      .ofReadings [⟨items.map Reading.value, restBehind rest items⟩]
        (((rest :: items.map Reading.rest).map fun place => (item place).error).foldl farthest
          none) := by
  rw [harvest, kept, longest.deepest_eq one proceeds, longest.met_eq one, longest.level_eq one,
    if_pos le_rfl, List.take_length]

end LongestRun

/-! ## Folding from the left -/

namespace Outcome

variable {first : Residual τ → Outcome τ α} {item : Residual τ → Outcome τ β} {input : Residual τ}
  {head : Reading τ α} {items : List (Reading τ β)}

/-- A head into which the items behind it are folded. -/
def folded (f : α → β → α) (first : Residual τ → Outcome τ α) (item : Residual τ → Outcome τ β)
    (extent : Extent) (input : Residual τ) : Outcome τ α :=
  (headed first item extent input).map fun values => values.2.foldl f values.1

theorem folded_of_failed (f : α → β → α) (item : Residual τ → Outcome τ β) (extent : Extent)
    (failed : (first input).success = false) :
    folded f first item extent input = (first input).toFailure := by
  rw [folded, headed, andThen_of_failed failed]
  rfl

/-- Behind the only head, every reading of the repetition is folded into it. -/
theorem folded_of_head (f : α → β → α) (extent : Extent) (succeeded : (first input).success = true)
    (read : (first input).readings = [head])
    (filled : (harvest item extent head.rest).readings ≠ []) :
    folded f first item extent input =
      .ofReadings
        ((harvest item extent head.rest).readings.map (Reading.map (List.foldl f head.value)))
        (farthest (first input).error (harvest item extent head.rest).error) := by
  rw [folded, headed, andThen_of_success succeeded, read]
  simp [Layer.conclude, conclude, filled, ofReadings, map, Reading.map]

/-- Without ambiguity all beginnings of the longest run are folded, the longest of them first. -/
theorem folded_longestFirst (f : α → β → α) (one : ∀ input, (item input).readings.length ≤ 1)
    (proceeds : Proceeds item) (succeeded : (first input).success = true)
    (read : (first input).readings = [head]) (longest : LongestRun item head.rest items) :
    folded f first item .longestFirst input =
      .ofReadings
        ((List.range (items.length + 1)).reverse.map fun count =>
          foldedInto f head (items.take count))
        (farthest (first input).error
          (((head.rest :: items.map Reading.rest).map fun place => (item place).error).foldl
            farthest none)) := by
  have filled : (harvest item .longestFirst head.rest).readings ≠ [] :=
    (harvest_sound proceeds .longestFirst head.rest).fruitful rfl
  rw [folded_of_head f _ succeeded read filled, longest.harvest_longestFirst one proceeds]
  simp only [ofReadings, List.map_map]
  rfl

theorem folded_greedy (f : α → β → α) (one : ∀ input, (item input).readings.length ≤ 1)
    (proceeds : Proceeds item) (succeeded : (first input).success = true)
    (read : (first input).readings = [head]) (longest : LongestRun item head.rest items) :
    folded f first item .greedy input =
      .ofReadings [foldedInto f head items]
        (farthest (first input).error
          (((head.rest :: items.map Reading.rest).map fun place => (item place).error).foldl
            farthest none)) := by
  have filled : (harvest item .greedy head.rest).readings ≠ [] :=
    (harvest_sound proceeds .greedy head.rest).fruitful rfl
  rw [folded_of_head f _ succeeded read filled, longest.harvest_greedy one proceeds]
  rfl

/-- Without ambiguity the greedy form keeps the first reading of the exploring one. -/
theorem folded_greedy_eq (f : α → β → α) (firsts : Proceeds first)
    (firstOne : ∀ input, (first input).readings.length ≤ 1) (proceeds : Proceeds item)
    (one : ∀ input, (item input).readings.length ≤ 1) (input : Residual τ) :
    folded f first item .greedy input =
      { folded f first item .longestFirst input with
        readings := (folded f first item .longestFirst input).readings.take 1 } := by
  cases succeeded : (first input).success with
  | false =>
    rw [folded_of_failed f item _ succeeded, folded_of_failed f item _ succeeded]
    rfl
  | true =>
    obtain ⟨head, read⟩ := (Chain.eq_nil_or_singleton (firstOne input)).resolve_left
      ((firsts.sounds input).fruitful succeeded)
    obtain ⟨items, longest⟩ := LongestRun.exists_longest proceeds head.rest
    rw [folded_greedy f one proceeds succeeded read longest,
      folded_longestFirst f one proceeds succeeded read longest]
    simp [ofReadings, List.range_succ]

end Outcome

/-- **The longest run comes first.** Let a head and the items behind it be read by grammars that
compute, whose outcomes are sound, which never move back and have one reading at most. Folding the
items into the head from the left returns. It fails for the same reason where the head fails. Where
the head succeeds there is one longest run of items behind it, and there is a reading for each
beginning of the run, the longest first: its value is the head's with the values of the items
folded into it, and it leaves what the last of these items leaves. The diagnostic is the farthest of
those met at the head, behind it and behind each item of the run. The greedy fold is the exploring
one cut down to its first reading. -/
theorem longest_run_first {N : Names} [LawfulMonad m] [Aborts m] [Defers m] [Observes N.Tracer m]
    [Token τ] {call : (rule : N.Rule) → Parser m τ (N.Result rule)} {p : Grammar N τ α}
    {q : Grammar N τ β} {first : Residual τ → Outcome τ α} {item : Residual τ → Outcome τ β}
    (heads : (p.interpret call).Computes first) (items : (q.interpret call).Computes item)
    (headsProceed : Proceeds first) (itemsProceed : Proceeds item)
    (oneHead : ∀ input, (first input).readings.length ≤ 1)
    (oneItem : ∀ input, (item input).readings.length ≤ 1) (f : α → β → α) (input : Residual τ) :
    ∃ all, (Grammar.foldLeft .exhaustive f p q).interpret call input = pure all ∧
      ((first input).success = false → all = (first input).toFailure) ∧
      ((first input).success = true → all.success = true ∧ ∃ head run,
        (first input).readings = [head] ∧ LongestRun item head.rest run ∧
        (∀ other, LongestRun item head.rest other → other = run) ∧
        all.readings =
          (List.range (run.length + 1)).reverse.map (fun count =>
            foldedInto f head (run.take count)) ∧
        all.error =
          farthest (first input).error
            (((head.rest :: run.map Reading.rest).map fun place => (item place).error).foldl
              farthest none)) ∧
      (Grammar.foldLeft .ordered f p q).interpret call input =
        pure { all with readings := all.readings.take 1 } ∧
      (Grammar.foldLeft .ordered f p q).interpret call input =
        (Grammar.first (Grammar.foldLeft .exhaustive f p q)).interpret call input := by
  have exploring : ((Grammar.foldLeft .exhaustive f p q).interpret call).Computes
      (Outcome.folded f first item .longestFirst) :=
    (headed_computes heads items itemsProceed .longestFirst).map _
  have greedy : ((Grammar.foldLeft .ordered f p q).interpret call).Computes
      (Outcome.folded f first item .greedy) :=
    (headed_computes heads items itemsProceed .greedy).map _
  have cut := Outcome.folded_greedy_eq f headsProceed oneHead itemsProceed oneItem input
  refine ⟨_, exploring input, Outcome.folded_of_failed f item _, ?succeeds, ?first, ?same⟩
  case succeeds =>
    intro succeeded
    obtain ⟨head, read⟩ := (Chain.eq_nil_or_singleton (oneHead input)).resolve_left
      ((headsProceed.sounds input).fruitful succeeded)
    obtain ⟨run, longest⟩ := LongestRun.exists_longest itemsProceed head.rest
    rw [Outcome.folded_longestFirst f oneItem itemsProceed succeeded read longest]
    exact ⟨rfl, head, run, read, longest, fun other => longest.unique oneItem, rfl, rfl⟩
  case first =>
    rw [greedy input, cut]
  case same =>
    rw [greedy input, cut, Grammar.interpret_first, Parser.first, exploring input, pure_bind]

section Products

open Chain

/-- The product of two numbers. -/
def nextProduct (input : Residual Numeral) : Outcome Numeral Int :=
  match input.tokens with
  | left :: right :: _ => .ofReadings [⟨left.value * right.value, input.advanceBy 2⟩] none
  | _ => .failure (.exhausted "another factor")

theorem nextNumber_proceeds : Proceeds nextNumber where
  sounds := nextNumber_suited.operands
  leads := nextNumber_suited.operand_leads

theorem nextProduct_proceeds : Proceeds nextProduct where
  sounds input := by
    rw [nextProduct]
    split
    · exact Outcome.ofReadings_sound _ (List.cons_ne_nil _ _)
    · exact Outcome.failure_sound _
  leads input reading member := by
    rw [nextProduct] at member
    split at member
    · rw [List.mem_singleton.mp member]
      exact ⟨2, rfl⟩
    · cases member

theorem nextProduct_length_le (input : Residual Numeral) :
    (nextProduct input).readings.length ≤ 1 := by
  rw [nextProduct]
  split
  · exact le_rfl
  · exact Nat.zero_le 1

/-- From seven the product of three and two is taken away, but five has no other factor. -/
theorem longest_run_first_products :
    Proceeds nextNumber ∧ Proceeds nextProduct ∧
      ∃ (call : (rule : Empty) → Parser (Except Fault) Numeral Unit) (all : Outcome Numeral Int)
        (head : Reading Numeral Int) (run : List (Reading Numeral Int)),
        (Grammar.foldLeft .exhaustive (· - ·) number (.custom nextProduct)).interpret call
          (.start [⟨7⟩, ⟨3⟩, ⟨2⟩, ⟨5⟩]) = .ok all ∧
        LongestRun nextProduct head.rest run ∧
        all.readings = [⟨1, ⟨[⟨5⟩], 3⟩⟩, ⟨7, ⟨[⟨3⟩, ⟨2⟩, ⟨5⟩], 1⟩⟩] ∧
        all.error = some (.exhausted "another factor") ∧
        (Grammar.foldLeft .ordered (· - ·) number (.custom nextProduct)).interpret call
          (.start [⟨7⟩, ⟨3⟩, ⟨2⟩, ⟨5⟩]) =
            .ok (.ofReadings [⟨1, ⟨[⟨5⟩], 3⟩⟩] (some (.exhausted "another factor"))) := by
  let call : (rule : Empty) → Parser (Except Fault) Numeral Unit := nofun
  have heads : (number.interpret call).Computes nextNumber := by
    intro input
    obtain ⟨tokens, offset⟩ := input
    cases tokens <;> rfl
  have items : ((Grammar.custom nextProduct : Grammar plainNames Numeral Int).interpret
      call).Computes nextProduct :=
    Parser.ofFunction_computes nextProduct
  obtain ⟨all, ran, -, succeeds, cut, -⟩ :=
    longest_run_first heads items nextNumber_proceeds nextProduct_proceeds nextNumber_length_le
      nextProduct_length_le (· - ·) (.start [⟨7⟩, ⟨3⟩, ⟨2⟩, ⟨5⟩])
  obtain ⟨-, head, run, -, longest, -⟩ := succeeds rfl
  refine ⟨nextNumber_proceeds, nextProduct_proceeds, call, all, head, run, ran, longest, ?_⟩
  cases ran
  exact ⟨rfl, rfl, cut⟩

end Products

end Multiparse
