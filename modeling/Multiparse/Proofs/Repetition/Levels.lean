import Mathlib.Data.Nat.Find
import Multiparse.Parser.Repeat
import Multiparse.Proofs.Computed

/-!
# The levels of a repetition

Level `count` of a repetition holds the ways to read exactly `count` items, each of which consumes
something. The levels do not depend on how they are searched: if the items are read by a parser that
computes, every extent of the repetition can be given in terms of them. Since every item consumes
something, only finitely many levels have a reading, and there is a last one.
-/

namespace Multiparse.Repetition

open Diagnostic

variable {m : Type → Type} [Monad m] {τ α : Type} {run : Residual τ → Outcome τ α}
  {input : Residual τ}

/-- The ways to read one more item, which consumes something. -/
def onward (run : Residual τ → Outcome τ α) (items : Reading τ (List α)) :
    List (Reading τ (List α)) :=
  ((run items.rest).readings.filter fun item =>
    decide (items.rest.offset < item.rest.offset)).map fun item =>
      ⟨items.value ++ [item.value], item.rest⟩

/-- The ways to read exactly `count` items. -/
def level (run : Residual τ → Outcome τ α) (input : Residual τ) : Nat → List (Reading τ (List α))
  | 0 => [⟨[], input⟩]
  | count + 1 => (level run input count).flatMap (onward run)

/-- The ways to read fewer than `count` items, fewest first. -/
def below (run : Residual τ → Outcome τ α) (input : Residual τ) (count : Nat) :
    List (Reading τ (List α)) :=
  (List.range count).flatMap (level run input)

/-- The farthest of the diagnostics that are met behind the given readings. -/
def met (run : Residual τ → Outcome τ α) (readings : List (Reading τ (List α))) :
    Option Diagnostic :=
  (readings.map fun items => (run items.rest).error).foldl farthest none

/-- What an extent keeps of the levels up to the last one. -/
def kept (run : Residual τ → Outcome τ α) (input : Residual τ) (last : Nat) :
    Extent → Outcome τ (List α)
  | .shortestFirst =>
    .ofReadings (below run input (last + 1)) (met run (below run input (last + 1)))
  | .longestFirst =>
    .ofReadings (below run input (last + 1)).reverse (met run (below run input (last + 1)))
  | .greedy => .ofReadings (level run input last) (met run (below run input (last + 1)))
  | .exactly count =>
    if level run input count = [] then
      .failure ((met run (below run input count)).getD .noAlternative)
    else .ofReadings (level run input count) (met run (below run input count))

/-- The items are read one after another, each of them consumes something, and the rest is left. -/
inductive Climbs (run : Residual τ → Outcome τ α) (input : Residual τ) :
    List α → Residual τ → Prop where
  | start : Climbs run input [] input
  | step {values : List α} {middle : Residual τ} {item : Reading τ α}
      (climbs : Climbs run input values middle) (member : item ∈ (run middle).readings)
      (consumes : middle.offset < item.rest.offset) :
      Climbs run input (values ++ [item.value]) item.rest

/-- From the rests of the origin the function only leads to such rests, be they before or behind. -/
def Within (origin : Residual τ) (run : Residual τ → Outcome τ α) : Prop :=
  ∀ rest, origin.LeadsTo rest → ∀ reading ∈ (run rest).readings, origin.LeadsTo reading.rest

/-! ## Levels -/

theorem mem_onward {items next : Reading τ (List α)} :
    next ∈ onward run items ↔
      ∃ item ∈ (run items.rest).readings, items.rest.offset < item.rest.offset ∧
        next = ⟨items.value ++ [item.value], item.rest⟩ := by
  simp only [onward, List.mem_map, List.mem_filter, decide_eq_true_eq, and_assoc]
  constructor
  · rintro ⟨item, member, consumes, rfl⟩
    exact ⟨item, member, consumes, rfl⟩
  · rintro ⟨item, member, consumes, rfl⟩
    exact ⟨item, member, consumes, rfl⟩

theorem below_succ (count : Nat) :
    below run input (count + 1) = below run input count ++ level run input count := by
  simp [below, List.range_succ]

theorem length_of_mem_level {count : Nat} {items : Reading τ (List α)}
    (member : items ∈ level run input count) : items.value.length = count := by
  induction count generalizing items with
  | zero =>
    obtain rfl := List.mem_singleton.mp member
    rfl
  | succ count ih =>
    obtain ⟨earlier, present, further⟩ := List.mem_flatMap.mp member
    obtain ⟨item, -, -, rfl⟩ := mem_onward.mp further
    simp [ih present]

theorem climbs_of_mem_level {count : Nat} {items : Reading τ (List α)}
    (member : items ∈ level run input count) : Climbs run input items.value items.rest := by
  induction count generalizing items with
  | zero =>
    obtain rfl := List.mem_singleton.mp member
    exact .start
  | succ count ih =>
    obtain ⟨earlier, present, further⟩ := List.mem_flatMap.mp member
    obtain ⟨item, found, consumes, rfl⟩ := mem_onward.mp further
    exact .step (ih present) found consumes

theorem Climbs.offset_le {values : List α} {rest : Residual τ}
    (climbs : Climbs run input values rest) : input.offset + values.length ≤ rest.offset := by
  induction climbs with
  | start => exact le_rfl
  | step climbs member consumes ih =>
    rw [List.length_append, List.length_singleton]
    omega

theorem Climbs.leadsTo {origin : Residual τ} {values : List α} {rest : Residual τ}
    (climbs : Climbs run input values rest) (within : Within origin run)
    (inside : origin.LeadsTo input) : origin.LeadsTo rest := by
  induction climbs with
  | start => exact inside
  | step climbs member consumes ih => exact within _ ih _ member

/-- There are no more items than tokens left. -/
theorem Climbs.length_le {origin : Residual τ} {values : List α} {rest : Residual τ}
    (climbs : Climbs run input values rest) (within : Within origin run)
    (inside : origin.LeadsTo input) : values.length ≤ input.remaining := by
  have total := inside.total_eq
  have total' := (climbs.leadsTo within inside).total_eq
  have further := climbs.offset_le
  omega

theorem level_eq_nil_of_le {count more : Nat} (le : count ≤ more)
    (dry : level run input count = []) : level run input more = [] := by
  induction le with
  | refl => exact dry
  | step le ih => rw [level, ih, List.flatMap_nil]

theorem below_of_dry {count more : Nat} (le : count ≤ more) (dry : level run input count = []) :
    below run input more = below run input count := by
  induction le with
  | refl => rfl
  | step le ih => rw [below_succ, ih, level_eq_nil_of_le le dry, List.append_nil]

theorem mem_below {count : Nat} {items : Reading τ (List α)} :
    items ∈ below run input count ↔ ∃ fewer < count, items ∈ level run input fewer := by
  simp [below]

/-- Only one reading has no items. -/
theorem filter_below (count : Nat) :
    ((below run input (count + 1)).filter fun items => items.value.isEmpty) = [⟨[], input⟩] := by
  induction count with
  | zero => rfl
  | succ count ih =>
    have filled : ((level run input (count + 1)).filter fun items => items.value.isEmpty) = [] := by
      rw [List.filter_eq_nil_iff]
      intro items member empty
      have counted := length_of_mem_level member
      rw [List.isEmpty_iff.mp empty] at counted
      cases counted
    rw [below_succ, List.filter_append, ih, filled, List.append_nil]

theorem mem_level_of_kept {last : Nat} {extent : Extent} {items : Reading τ (List α)}
    (member : items ∈ (kept run input last extent).readings) :
    ∃ count, items ∈ level run input count := by
  cases extent with
  | shortestFirst =>
    obtain ⟨count, -, present⟩ := mem_below.mp member
    exact ⟨count, present⟩
  | longestFirst =>
    obtain ⟨count, -, present⟩ := mem_below.mp (List.mem_reverse.mp member)
    exact ⟨count, present⟩
  | greedy => exact ⟨last, member⟩
  | exactly count =>
    rw [kept] at member
    split at member
    · cases member
    · exact ⟨count, member⟩

theorem dry_behind_last {last : Nat} (exact : ∀ count, level run input count ≠ [] ↔ count ≤ last) :
    level run input (last + 1) = [] := by
  by_contra filled
  exact absurd ((exact _).mp filled) (by omega)

/-- The first item may be split off instead of the last one. -/
theorem level_succ_eq (count : Nat) :
    level run input (count + 1) =
      ((run input).readings.filter fun item => decide (input.offset < item.rest.offset)).flatMap
        fun item => (level run item.rest count).map (Reading.map (item.value :: ·)) := by
  induction count with
  | zero => simp [level, onward, Reading.map, List.map_eq_flatMap]
  | succ count ih =>
    have onward_map : ∀ (value : α) (items : Reading τ (List α)),
        onward run (items.map (value :: ·)) =
          (onward run items).map (Reading.map (value :: ·)) := by
      intro value items
      rw [onward, onward, List.map_map]
      rfl
    rw [level, ih, List.flatMap_assoc]
    simp only [List.flatMap_map, onward_map, level, List.map_flatMap]

/-- One of the levels is the last one with a reading, and it is not deeper than the input. -/
theorem exists_last {origin : Residual τ} (within : Within origin run)
    (inside : origin.LeadsTo input) :
    ∃ last ≤ input.remaining, ∀ count, level run input count ≠ [] ↔ count ≤ last := by
  have dry : level run input (input.remaining + 1) = [] := by
    rw [List.eq_nil_iff_forall_not_mem]
    intro items member
    have few := (climbs_of_mem_level member).length_le within inside
    rw [length_of_mem_level member] at few
    omega
  have ends : ∃ count, level run input (count + 1) = [] := ⟨_, dry⟩
  refine ⟨Nat.find ends, Nat.find_le dry, fun count => ⟨fun filled => ?_, fun early empty => ?_⟩⟩
  · by_contra late
    exact filled (level_eq_nil_of_le (by omega) (Nat.find_spec ends))
  · cases count with
    | zero => cases empty
    | succ count => exact Nat.find_min ends (by omega) empty

/-! ## Searching level by level -/

variable [LawfulMonad m] {p : Parser m τ α}

theorem met_append (first second : List (Reading τ (List α))) :
    met run (first ++ second) =
      (second.map fun items => (run items.rest).error).foldl farthest (met run first) := by
  rw [met, List.map_append, List.foldl_append]
  rfl

/-- A round leads from a level to the next one. -/
theorem round_pure (computes : p.Computes run) (count : Nat) :
    round p ⟨level run input count, met run (below run input count)⟩ =
      pure ⟨level run input (count + 1), met run (below run input (count + 1))⟩ := by
  have returns : ∀ items ∈ level run input count,
      (p items.rest >>= fun outcome =>
          pure ((progressing items.rest outcome).map fun value => items.value ++ [value])) =
        (pure ((progressing items.rest (run items.rest)).map fun value => items.value ++ [value]) :
          m (Outcome τ (List α))) := by
    intro items _
    rw [computes items.rest, pure_bind]
  have advanced := Layer.advance_pure returns (met run (below run input count))
  rw [below_succ, met_append]
  exact advanced

theorem layers_pure (computes : p.Computes run) {last : Nat}
    (exact : ∀ count, level run input count ≠ [] ↔ count ≤ last) (rounds : Nat) {count : Nat}
    (early : count ≤ last) (enough : last < count + rounds) :
    layers p rounds ⟨level run input count, met run (below run input count)⟩ =
      pure ((List.range' count (last + 1 - count)).map (level run input),
        met run (below run input (last + 1))) := by
  induction rounds generalizing count with
  | zero => omega
  | succ rounds ih =>
    rw [layers, round_pure computes, pure_bind]
    -- On the last level the round finds nothing, which ends the search and not the bound on rounds.
    rcases Nat.eq_or_lt_of_le early with rfl | earlier
    · simp [dry_behind_last exact]
    · have filled : level run input (count + 1) ≠ [] := (exact _).mpr earlier
      have shorter : last + 1 - count = last + 1 - (count + 1) + 1 := by omega
      simp only [List.isEmpty_iff, filled, ↓reduceIte]
      rw [ih earlier (by omega), pure_bind, shorter, List.range'_succ, List.map_cons]

/-- The exploration finds the levels that have a reading. -/
theorem explore_pure (computes : p.Computes run) {last : Nat} (shallow : last ≤ input.remaining)
    (exact : ∀ count, level run input count ≠ [] ↔ count ≤ last) :
    explore p input =
      pure ((List.range (last + 1)).map (level run input),
        met run (below run input (last + 1))) := by
  have found := layers_pure computes exact (input.remaining + 1) (Nat.zero_le last)
    (by omega)
  rwa [Nat.sub_zero, ← List.range_eq_range'] at found

theorem exactly_pure (computes : p.Computes run) (more : Nat) {count : Nat}
    (filled : level run input count ≠ []) :
    exactly p more ⟨level run input count, met run (below run input count)⟩ =
      pure (if level run input (count + more) = [] then
        .failure ((met run (below run input (count + more))).getD .noAlternative)
      else
        .ofReadings (level run input (count + more))
          (met run (below run input (count + more)))) := by
  induction more generalizing count with
  | zero => simp [exactly, filled]
  | succ more ih =>
    rw [exactly, round_pure computes, pure_bind, Nat.add_comm more 1, ← Nat.add_assoc]
    by_cases dry : level run input (count + 1) = []
    · have later := Nat.le_add_right (count + 1) more
      rw [level_eq_nil_of_le later dry, below_of_dry later dry]
      simp [dry, Outcome.conclude]
    · simp only [List.isEmpty_iff, dry, ↓reduceIte]
      exact ih dry

/-- A repetition returns what its extent keeps of the levels. -/
theorem repeated_pure (computes : p.Computes run) {last : Nat} (shallow : last ≤ input.remaining)
    (exact : ∀ count, level run input count ≠ [] ↔ count ≤ last) (extent : Extent) :
    Parser.repeated extent p input = pure (kept run input last extent) := by
  have explored := explore_pure computes shallow exact
  cases extent with
  | shortestFirst | longestFirst =>
    rw [Parser.repeated, explored, pure_bind]
    rfl
  | greedy =>
    rw [Parser.repeated, explored, pure_bind]
    simp [kept, List.range_succ]
  | exactly count =>
    have seeded : level run input 0 ≠ [] := List.cons_ne_nil _ _
    have counted := exactly_pure computes count seeded
    rwa [Nat.zero_add] at counted

end Multiparse.Repetition
