import Multiparse.Grammar.Lemmas
import Multiparse.Proofs.Chain.Derivations

/-!
# Chains that are grouped to the left

A chain that is grouped to the left is read as an operand and a repetition of steps, each an
operator and an operand, and the steps are folded into the operand. So it has one reading for each
way to read a chain: all of them, or the longest one if the repetition is greedy.
-/

namespace Multiparse.Chain

open Diagnostic Repetition

variable {τ α : Type} {operand : Residual τ → Outcome τ α}
  {operator : Residual τ → Outcome τ (α → α → α)} {input : Residual τ}

/-- The repetition that goes with a policy. -/
def extent : Policy → Extent
  | .exhaustive => .longestFirst
  | .ordered => .greedy

/-- From every rest the repetition of steps has a last level. -/
structure Lasts (operand : Residual τ → Outcome τ α)
    (operator : Residual τ → Outcome τ (α → α → α)) (last : Residual τ → Nat) : Prop where
  shallow : ∀ rest, last rest ≤ rest.remaining
  exact : ∀ rest count, level (further operand operator) rest count ≠ [] ↔ count ≤ last rest

/-- What a chain that is grouped to the left returns. -/
def readLeft (operand : Residual τ → Outcome τ α) (operator : Residual τ → Outcome τ (α → α → α))
    (last : Residual τ → Nat) (policy : Policy) (input : Residual τ) : Outcome τ α :=
  ((operand input).andThen fun first =>
    (kept (further operand operator) first.rest (last first.rest) (extent policy)).map
      fun steps => (first.value, steps)).map
    fun values => values.2.foldl (fun left step => step.1 left step.2) values.1

theorem exists_lasts (suited : Suited operand operator) :
    ∃ last, Lasts operand operator last := by
  have ends : ∀ rest : Residual τ, ∃ last ≤ rest.remaining,
      ∀ count, level (further operand operator) rest count ≠ [] ↔ count ≤ last :=
    fun rest => exists_last (further_within suited rest) (.refl rest)
  choose last shallow exact using ends
  exact ⟨last, shallow, exact⟩

section Grammars

variable {N : Names} {m : Type → Type} [Monad m] [LawfulMonad m] [Aborts m] [Defers m]
  [Observes N.Tracer m] [Token τ] {call : (rule : N.Rule) → Parser m τ (N.Result rule)}
  {p : Grammar N τ α} {op : Grammar N τ (α → α → α)}

theorem steps_compute (operands : (p.interpret call).Computes operand)
    (operators : (op.interpret call).Computes operator) {last : Residual τ → Nat}
    (lasts : Lasts operand operator last) (policy : Policy) :
    ((Grammar.manyUnder policy (Grammar.pair op p)).interpret call).Computes fun rest =>
      kept (further operand operator) rest (last rest) (extent policy) := by
  have step : ((Grammar.pair op p).interpret call).Computes (further operand operator) :=
    operators.bind fun apply => operands.map (apply, ·)
  intro rest
  cases policy with
  | exhaustive => exact repeated_pure step (lasts.shallow rest) (lasts.exact rest) .longestFirst
  | ordered => exact repeated_pure step (lasts.shallow rest) (lasts.exact rest) .greedy

theorem chainLeft_computes (operands : (p.interpret call).Computes operand)
    (operators : (op.interpret call).Computes operator) {last : Residual τ → Nat}
    (lasts : Lasts operand operator last) (policy : Policy) :
    ((Grammar.chainLeft policy p op).interpret call).Computes
      (readLeft operand operator last policy) := by
  have steps := steps_compute operands operators lasts policy
  exact (operands.bind fun first => steps.map fun values => (first, values)).map _

end Grammars

/-! ## Readings -/

variable {last : Residual τ → Nat}

theorem kept_sound (lasts : Lasts operand operator last) (policy : Policy) (rest : Residual τ) :
    (kept (further operand operator) rest (last rest) (extent policy)).Sound := by
  have deepest : level (further operand operator) rest (last rest) ≠ [] :=
    (lasts.exact rest _).mpr le_rfl
  cases policy with
  | exhaustive =>
    apply Outcome.ofReadings_sound
    intro empty
    apply deepest
    have nothing := List.reverse_eq_nil_iff.mp empty
    rw [below_succ, List.append_eq_nil_iff] at nothing
    exact nothing.2
  | ordered => exact Outcome.ofReadings_sound _ deepest

theorem readLeft_sound (suited : Suited operand operator) (policy : Policy) (input : Residual τ) :
    (readLeft operand operator last policy input).Sound :=
  ((suited.operands input).andThen _).map _

theorem readLeft_readings (suited : Suited operand operator) (policy : Policy)
    (input : Residual τ) :
    (readLeft operand operator last policy input).readings =
      (operand input).readings.flatMap fun first =>
        (kept (further operand operator) first.rest (last first.rest) (extent policy)).readings.map
          (Reading.map fun steps => groupedLeft ⟨first.value, steps⟩) := by
  rw [readLeft, Outcome.map_readings, (suited.operands input).andThen_readings, List.map_flatMap]
  simp only [Outcome.map_readings, List.map_map]
  rfl

/-- From the rest behind a first operand the steps are found below the bound for the input. -/
theorem below_remaining (suited : Suited operand operator) (lasts : Lasts operand operator last)
    {first : Reading τ α} (firstRead : first ∈ (operand input).readings) :
    below (further operand operator) first.rest (input.remaining + 1) =
      below (further operand operator) first.rest (last first.rest + 1) := by
  have leads := suited.operand_leads _ _ firstRead
  have total := leads.total_eq
  have forward := leads.offset_le
  have shallow := lasts.shallow first.rest
  exact below_of_dry (by omega) (dry_behind_last (lasts.exact first.rest))

theorem derivations_perm_below (suited : Suited operand operator)
    (lasts : Lasts operand operator last) (input : Residual τ) :
    (derivations operand operator input).Perm
      ((operand input).readings.flatMap fun first =>
        (below (further operand operator) first.rest (last first.rest + 1)).map
          (Reading.map (Chain.mk first.value))) := by
  rw [derivations, funext (ofSteps_eq suited input)]
  apply (flatMap_swap_perm _ _ _).trans
  apply List.Perm.flatMap_left
  intro first firstRead
  rw [← below_remaining suited lasts firstRead, below, List.map_flatMap]

theorem derivations_eq_below (suited : Suited operand operator)
    (lasts : Lasts operand operator last)
    (operandOne : ∀ input, (operand input).readings.length ≤ 1) (input : Residual τ) :
    derivations operand operator input =
      (operand input).readings.flatMap fun first =>
        (below (further operand operator) first.rest (last first.rest + 1)).map
          (Reading.map (Chain.mk first.value)) := by
  rw [derivations, funext (ofSteps_eq suited input), flatMap_swap_of_le_one _ (operandOne input)]
  apply List.flatMap_congr
  intro first firstRead
  rw [← below_remaining suited lasts firstRead, below, List.map_flatMap]

/-- Grouped to the left, every way to read a chain is a reading. -/
theorem readLeft_perm (suited : Suited operand operator) (lasts : Lasts operand operator last)
    (input : Residual τ) :
    (readLeft operand operator last .exhaustive input).readings.Perm
      ((derivations operand operator input).map (Reading.map groupedLeft)) := by
  rw [readLeft_readings suited]
  refine .trans ?_ ((derivations_perm_below suited lasts input).map _).symm
  rw [List.map_flatMap]
  apply List.Perm.flatMap_left
  intro first _
  rw [List.map_map]
  exact (List.reverse_perm _).map _

/-- Without ambiguity the longest chain comes first. -/
theorem readLeft_reverse (suited : Suited operand operator) (lasts : Lasts operand operator last)
    (operandOne : ∀ input, (operand input).readings.length ≤ 1) (input : Residual τ) :
    (readLeft operand operator last .exhaustive input).readings =
      ((derivations operand operator input).map (Reading.map groupedLeft)).reverse := by
  rw [readLeft_readings suited, derivations_eq_below suited lasts operandOne]
  obtain nothing | ⟨first, read⟩ := eq_nil_or_singleton (operandOne input)
  · rw [nothing]
    rfl
  · rw [read, List.flatMap_singleton, List.flatMap_singleton, List.map_map, ← List.map_reverse]
    rfl

theorem length_flatMap_le_one {A B : Type} {items : List A} {f : A → List B}
    (few : items.length ≤ 1) (each : ∀ item, (f item).length ≤ 1) :
    (items.flatMap f).length ≤ 1 := by
  obtain rfl | ⟨item, rfl⟩ := eq_nil_or_singleton few
  · exact Nat.zero_le 1
  · simpa using each item

theorem further_length_le_one (suited : Suited operand operator)
    (operandOne : ∀ input, (operand input).readings.length ≤ 1)
    (operatorOne : ∀ input, (operator input).readings.length ≤ 1) (input : Residual τ) :
    (further operand operator input).readings.length ≤ 1 := by
  rw [further_readings suited]
  apply length_flatMap_le_one (operatorOne input)
  intro apply
  rw [List.length_map]
  exact operandOne apply.rest

theorem level_length_le_one {run : Residual τ → Outcome τ α}
    (one : ∀ input, (run input).readings.length ≤ 1) (input : Residual τ) (count : Nat) :
    (level run input count).length ≤ 1 := by
  induction count with
  | zero => exact le_rfl
  | succ count ih =>
    apply length_flatMap_le_one ih
    intro items
    rw [onward, List.length_map]
    exact (List.length_filter_le _ _).trans (one items.rest)

/-- Without ambiguity a greedy chain is the longest one. -/
theorem readLeft_getLast (suited : Suited operand operator) (lasts : Lasts operand operator last)
    (operandOne : ∀ input, (operand input).readings.length ≤ 1)
    (operatorOne : ∀ input, (operator input).readings.length ≤ 1) (input : Residual τ) :
    (readLeft operand operator last .ordered input).readings =
      (derivations operand operator input).getLast?.toList.map (Reading.map groupedLeft) := by
  rw [readLeft_readings suited, derivations_eq_below suited lasts operandOne]
  obtain nothing | ⟨first, read⟩ := eq_nil_or_singleton (operandOne input)
  · rw [nothing]
    rfl
  · have deepest : level (further operand operator) first.rest (last first.rest) ≠ [] :=
      (lasts.exact first.rest _).mpr le_rfl
    have one := level_length_le_one (further_length_le_one suited operandOne operatorOne)
      first.rest (last first.rest)
    obtain ⟨steps, found⟩ := (eq_nil_or_singleton one).resolve_left deepest
    rw [read, List.flatMap_singleton, List.flatMap_singleton, below_succ, List.map_append]
    simp [extent, kept, Outcome.ofReadings, found, Reading.map]

/-! ## The diagnostic -/

theorem depth_met_le_iff {run : Residual τ → Outcome τ α} {readings : List (Reading τ (List α))}
    {bound : WithBot Position} :
    depth (met run readings) ≤ bound ↔
      ∀ items ∈ readings, depth (run items.rest).error ≤ bound := by
  rw [met, depth_foldl_le_iff, List.forall_mem_map, depth_none]
  exact and_iff_right bot_le

/-- Nothing that is met behind any number of steps lies deeper than the bound. -/
def Bounded (operand : Residual τ → Outcome τ α) (operator : Residual τ → Outcome τ (α → α → α))
    (bound : WithBot Position) (rest : Residual τ) : Prop :=
  ∀ count, ∀ steps ∈ level (further operand operator) rest count,
    depth (further operand operator steps.rest).error ≤ bound

theorem depth_kept_le_iff (lasts : Lasts operand operator last) (policy : Policy)
    (rest : Residual τ) {bound : WithBot Position} :
    depth (kept (further operand operator) rest (last rest) (extent policy)).error ≤ bound ↔
      Bounded operand operator bound rest := by
  have merged : (kept (further operand operator) rest (last rest) (extent policy)).error =
      met (further operand operator) (below (further operand operator) rest (last rest + 1)) := by
    cases policy <;> rfl
  rw [merged, depth_met_le_iff]
  constructor
  · intro within count steps member
    have early := (lasts.exact rest count).mp (List.ne_nil_of_mem member)
    exact within steps (mem_below.mpr ⟨count, by omega, member⟩)
  · intro bounded steps member
    obtain ⟨count, -, present⟩ := mem_below.mp member
    exact bounded count steps present

theorem depth_readLeft_le_iff (suited : Suited operand operator)
    (lasts : Lasts operand operator last) (policy : Policy) {bound : WithBot Position} :
    depth (readLeft operand operator last policy input).error ≤ bound ↔
      depth (operand input).error ≤ bound ∧
        ∀ first ∈ (operand input).readings, Bounded operand operator bound first.rest := by
  rw [readLeft, Outcome.map_error, (suited.operands input).depth_andThen_le_iff
    fun first => (kept_sound lasts policy first.rest).map _]
  simp only [Outcome.map_error, depth_kept_le_iff lasts]

theorem depth_further_le_iff (suited : Suited operand operator) {bound : WithBot Position} :
    depth (further operand operator input).error ≤ bound ↔
      depth (operator input).error ≤ bound ∧
        ∀ apply ∈ (operator input).readings, depth (operand apply.rest).error ≤ bound :=
  (suited.operators input).depth_andThen_le_iff fun apply => (suited.operands apply.rest).map _

/-- What is met behind any number of steps is met at once or behind the first of them. -/
theorem bounded_iff (suited : Suited operand operator) {bound : WithBot Position} :
    Bounded operand operator bound input ↔
      depth (further operand operator input).error ≤ bound ∧
        ∀ step ∈ (further operand operator input).readings,
          Bounded operand operator bound step.rest := by
  constructor
  · intro bounded
    refine ⟨bounded 0 _ (List.mem_singleton_self _), fun step stepRead count steps member => ?_⟩
    have longer : steps.map (step.value :: ·) ∈
        level (further operand operator) input (count + 1) := by
      rw [level_succ_eq, filter_further suited, List.mem_flatMap]
      exact ⟨step, stepRead, List.mem_map_of_mem member⟩
    exact bounded (count + 1) (steps.map (step.value :: ·)) longer
  · rintro ⟨here, later⟩ count steps member
    cases count with
    | zero =>
      obtain rfl := List.mem_singleton.mp member
      exact here
    | succ count =>
      rw [level_succ_eq, filter_further suited, List.mem_flatMap] at member
      obtain ⟨step, stepRead, among⟩ := member
      obtain ⟨shorter, present, rfl⟩ := List.mem_map.mp among
      exact later step stepRead count shorter present

end Multiparse.Chain
