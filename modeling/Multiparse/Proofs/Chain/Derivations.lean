import Mathlib.Data.Multiset.Bind
import Multiparse.Proofs.Repetition.Levels

/-!
# What chains are read from

A chain is a first operand and, behind it, operators with an operand each. It can be grouped to the
left or to the right; the ways to read it do not depend on that. This module counts them: first all
ways to read a chain with a given number of operators, then the chains of any length, which are
finitely many because an operator and an operand together consume something.
-/

namespace Multiparse

variable {τ α : Type}

/-- A first operand, and the operators behind it with an operand each. -/
structure Chain (α : Type) where
  first : α
  steps : List ((α → α → α) × α)

namespace Chain

/-- An operand and an operator before a chain. -/
def cons (left : α) (apply : α → α → α) (chain : Chain α) : Chain α :=
  ⟨left, (apply, chain.first) :: chain.steps⟩

/-- The operators are applied from left to right. -/
def groupedLeft (chain : Chain α) : α :=
  chain.steps.foldl (fun left step => step.1 left step.2) chain.first

/-- Each operator is applied to its left operand and to all that follows. -/
def foldRight : α → List ((α → α → α) × α) → α
  | first, [] => first
  | first, (apply, next) :: steps => apply first (foldRight next steps)

/-- The operators are applied from right to left. -/
def groupedRight (chain : Chain α) : α := foldRight chain.first chain.steps

/-- Operands and operators that may make up a chain: what they return is sound, they never move
back, and an operator and an operand together consume something. -/
structure Suited (operand : Residual τ → Outcome τ α)
    (operator : Residual τ → Outcome τ (α → α → α)) : Prop where
  operands : ∀ input, (operand input).Sound
  operators : ∀ input, (operator input).Sound
  operand_leads : ∀ input, ∀ reading ∈ (operand input).readings, input.LeadsTo reading.rest
  operator_leads : ∀ input, ∀ reading ∈ (operator input).readings, input.LeadsTo reading.rest
  consumes : ∀ input, ∀ apply ∈ (operator input).readings,
    ∀ right ∈ (operand apply.rest).readings, input.offset < right.rest.offset

/-- The ways to read a chain with exactly `count` operators. -/
def ofSteps (operand : Residual τ → Outcome τ α) (operator : Residual τ → Outcome τ (α → α → α))
    (input : Residual τ) : Nat → List (Reading τ (Chain α))
  | 0 => (operand input).readings.map (Reading.map fun first => ⟨first, []⟩)
  | count + 1 =>
    (operand input).readings.flatMap fun left =>
      (operator left.rest).readings.flatMap fun apply =>
        (ofSteps operand operator apply.rest count).map (Reading.map (cons left.value apply.value))

/-- The ways to read a chain, fewest operators first. -/
def derivations (operand : Residual τ → Outcome τ α)
    (operator : Residual τ → Outcome τ (α → α → α)) (input : Residual τ) :
    List (Reading τ (Chain α)) :=
  (List.range (input.remaining + 1)).flatMap (ofSteps operand operator input)

/-- An operator and the operand behind it. -/
def further (operand : Residual τ → Outcome τ α) (operator : Residual τ → Outcome τ (α → α → α))
    (input : Residual τ) : Outcome τ ((α → α → α) × α) :=
  (operator input).andThen fun apply =>
    (operand apply.rest).map fun right => (apply.value, right)

end Chain

namespace Chain

variable {operand : Residual τ → Outcome τ α} {operator : Residual τ → Outcome τ (α → α → α)}
  {input : Residual τ}

/-! ## What is consumed -/

namespace Suited

variable {left : Reading τ α} {apply : Reading τ (α → α → α)}

theorem leads (suited : Suited operand operator) (leftRead : left ∈ (operand input).readings)
    (applyRead : apply ∈ (operator left.rest).readings) : input.LeadsTo apply.rest :=
  (suited.operand_leads _ _ leftRead).trans (suited.operator_leads _ _ applyRead)

/-- An operand and an operator consume something: otherwise the same operand could be read again
behind the operator, and the two would consume nothing. -/
theorem advances (suited : Suited operand operator) (leftRead : left ∈ (operand input).readings)
    (applyRead : apply ∈ (operator left.rest).readings) : input.offset < apply.rest.offset := by
  by_contra stuck
  have leftLeads := suited.operand_leads _ _ leftRead
  have applyLeads := suited.operator_leads _ _ applyRead
  have below := leftLeads.offset_le
  have above := applyLeads.offset_le
  have stays : left.rest = input := leftLeads.eq_of_offset_le (by omega)
  have returns : apply.rest = input := (leftLeads.trans applyLeads).eq_of_offset_le (by omega)
  rw [stays] at applyRead
  rw [← returns] at leftRead
  have consumed := suited.consumes _ _ applyRead _ leftRead
  rw [stays] at consumed
  exact lt_irrefl _ consumed

theorem remaining_lt (suited : Suited operand operator) (leftRead : left ∈ (operand input).readings)
    (applyRead : apply ∈ (operator left.rest).readings) :
    apply.rest.remaining < input.remaining :=
  (suited.leads leftRead applyRead).remaining_lt (suited.advances leftRead applyRead)

/-- What holds from an input if it holds behind every operand and operator holds from any input. -/
theorem rest_induction (suited : Suited operand operator) {motive : Residual τ → Prop}
    (step : ∀ input, (∀ left ∈ (operand input).readings, ∀ apply ∈ (operator left.rest).readings,
      motive apply.rest) → motive input) (input : Residual τ) : motive input := by
  generalize measured : input.remaining = remaining
  induction remaining using Nat.strongRecOn generalizing input with
  | ind remaining ih =>
    subst measured
    apply step
    intro left leftRead apply applyRead
    exact ih _ (suited.remaining_lt leftRead applyRead) apply.rest rfl

end Suited

theorem length_le_of_mem (suited : Suited operand operator) {count : Nat}
    {chain : Reading τ (Chain α)} (member : chain ∈ ofSteps operand operator input count) :
    count ≤ input.remaining := by
  induction count generalizing input chain with
  | zero => exact Nat.zero_le _
  | succ count ih =>
    obtain ⟨left, leftRead, among⟩ := List.mem_flatMap.mp member
    obtain ⟨apply, applyRead, among⟩ := List.mem_flatMap.mp among
    obtain ⟨shorter, present, -⟩ := List.mem_map.mp among
    have fewer := ih present
    have lt := suited.remaining_lt leftRead applyRead
    omega

theorem ofSteps_eq_nil (suited : Suited operand operator) {count : Nat}
    (many : input.remaining < count) : ofSteps operand operator input count = [] := by
  rw [List.eq_nil_iff_forall_not_mem]
  intro chain member
  exact absurd (length_le_of_mem suited member) (by omega)

/-- Looking for more operators than there are tokens left finds nothing more. -/
theorem derivations_eq (suited : Suited operand operator) {bound : Nat}
    (enough : input.remaining < bound) :
    (List.range bound).flatMap (ofSteps operand operator input) =
      derivations operand operator input := by
  induction bound, enough using Nat.le_induction with
  | base => rfl
  | succ bound enough ih =>
    rw [List.range_succ, List.flatMap_append, ih, List.flatMap_singleton,
      ofSteps_eq_nil suited enough, List.append_nil]

/-! ## Splitting off the first operand -/

section Swapping

variable {A B C : Type}

theorem eq_nil_or_singleton {items : List A} (few : items.length ≤ 1) :
    items = [] ∨ ∃ item, items = [item] := by
  rcases Nat.le_one_iff_eq_zero_or_eq_one.mp few with empty | one
  · exact .inl (List.length_eq_zero_iff.mp empty)
  · exact .inr (List.length_eq_one_iff.mp one)

theorem flatMap_swap_perm (xs : List A) (ys : List B) (f : A → B → List C) :
    (xs.flatMap fun x => ys.flatMap (f x)).Perm
      (ys.flatMap fun y => xs.flatMap fun x => f x y) := by
  have swapped := Multiset.bind_bind (xs : Multiset A) (ys : Multiset B)
    (f := fun x y => (f x y : Multiset C))
  simpa using swapped

theorem flatMap_swap_of_le_one (xs : List A) {ys : List B} (few : ys.length ≤ 1)
    (f : A → B → List C) :
    (xs.flatMap fun x => ys.flatMap (f x)) = ys.flatMap fun y => xs.flatMap fun x => f x y := by
  obtain rfl | ⟨y, rfl⟩ := eq_nil_or_singleton few
  · simp
  · simp

end Swapping

/-- The chains that follow a first operand: an operator, and what is read behind it. -/
def behind (operand : Residual τ → Outcome τ α) (operator : Residual τ → Outcome τ (α → α → α))
    (left : Reading τ α) : List (Reading τ (Chain α)) :=
  (operator left.rest).readings.flatMap fun apply =>
    (derivations operand operator apply.rest).map (Reading.map (cons left.value apply.value))

/-- Behind an operator fewer tokens are left, so the chains there are found below the bound. -/
theorem flatMap_range_eq (suited : Suited operand operator) {left : Reading τ α}
    {apply : Reading τ (α → α → α)} (leftRead : left ∈ (operand input).readings)
    (applyRead : apply ∈ (operator left.rest).readings) :
    ((List.range input.remaining).flatMap fun count =>
        (ofSteps operand operator apply.rest count).map
          (Reading.map (cons left.value apply.value))) =
      (derivations operand operator apply.rest).map
        (Reading.map (cons left.value apply.value)) := by
  rw [← derivations_eq suited (suited.remaining_lt leftRead applyRead), List.map_flatMap]

theorem derivations_split (operand : Residual τ → Outcome τ α)
    (operator : Residual τ → Outcome τ (α → α → α)) (input : Residual τ) :
    derivations operand operator input =
      (operand input).readings.map (Reading.map fun first => ⟨first, []⟩) ++
        (List.range input.remaining).flatMap fun count =>
          (operand input).readings.flatMap fun left =>
            (operator left.rest).readings.flatMap fun apply =>
              (ofSteps operand operator apply.rest count).map
                (Reading.map (cons left.value apply.value)) := by
  rw [derivations, List.range_succ_eq_map, List.flatMap_cons, List.flatMap_map]
  rfl

/-- A chain is an operand alone, or one that is followed by an operator and a chain. -/
theorem derivations_perm (suited : Suited operand operator) (input : Residual τ) :
    (derivations operand operator input).Perm
      ((operand input).readings.flatMap fun left =>
        left.map (fun first => ⟨first, []⟩) :: behind operand operator left) := by
  rw [derivations_split]
  refine .trans (.append_left _ ?_) (List.map_append_flatMap_perm _ _ _)
  apply (flatMap_swap_perm _ _ _).trans
  apply List.Perm.flatMap_left
  intro left leftRead
  apply (flatMap_swap_perm _ _ _).trans
  apply List.Perm.flatMap_left
  intro apply applyRead
  rw [flatMap_range_eq suited leftRead applyRead]

/-- Without ambiguity the chains stand in the order of their lengths. -/
theorem derivations_of_le_one (suited : Suited operand operator)
    (operandOne : ∀ input, (operand input).readings.length ≤ 1)
    (operatorOne : ∀ input, (operator input).readings.length ≤ 1) (input : Residual τ) :
    derivations operand operator input =
      (operand input).readings.flatMap fun left =>
        left.map (fun first => ⟨first, []⟩) :: behind operand operator left := by
  rw [derivations_split, flatMap_swap_of_le_one _ (operandOne input)]
  obtain nothing | ⟨left, read⟩ := eq_nil_or_singleton (operandOne input)
  · rw [nothing]
    rfl
  · have leftRead : left ∈ (operand input).readings := by simp [read]
    rw [read, List.map_singleton, List.flatMap_singleton, List.flatMap_singleton,
      List.singleton_append, flatMap_swap_of_le_one _ (operatorOne left.rest), behind]
    congr 1
    exact List.flatMap_congr fun apply applyRead => flatMap_range_eq suited leftRead applyRead

/-! ## Chains and repetitions -/

theorem further_readings (suited : Suited operand operator) (input : Residual τ) :
    (further operand operator input).readings =
      (operator input).readings.flatMap fun apply =>
        (operand apply.rest).readings.map (Reading.map fun right => (apply.value, right)) :=
  (suited.operators input).andThen_readings _

theorem mem_further (suited : Suited operand operator) {step : Reading τ ((α → α → α) × α)} :
    step ∈ (further operand operator input).readings ↔
      ∃ apply ∈ (operator input).readings, ∃ right ∈ (operand apply.rest).readings,
        step = ⟨(apply.value, right.value), right.rest⟩ := by
  simp only [further_readings suited, List.mem_flatMap, List.mem_map, Reading.map, eq_comm]

/-- A step always consumes something, so a repetition drops none. -/
theorem filter_further (suited : Suited operand operator) (input : Residual τ) :
    ((further operand operator input).readings.filter fun step =>
        decide (input.offset < step.rest.offset)) =
      (further operand operator input).readings := by
  rw [List.filter_eq_self]
  intro step member
  obtain ⟨apply, applyRead, right, rightRead, rfl⟩ := (mem_further suited).mp member
  exact decide_eq_true (suited.consumes _ _ applyRead _ rightRead)

theorem further_within (suited : Suited operand operator) (origin : Residual τ) :
    Repetition.Within origin (further operand operator) := by
  intro rest inside step member
  obtain ⟨apply, applyRead, right, rightRead, rfl⟩ := (mem_further suited).mp member
  have applyLeads := suited.operator_leads _ _ applyRead
  exact inside.trans (applyLeads.trans (suited.operand_leads _ _ rightRead))

/-- A chain is an operand and a repetition of steps. -/
theorem ofSteps_eq (suited : Suited operand operator) (input : Residual τ) (count : Nat) :
    ofSteps operand operator input count =
      (operand input).readings.flatMap fun first =>
        (Repetition.level (further operand operator) first.rest count).map
          (Reading.map (Chain.mk first.value)) := by
  induction count generalizing input with
  | zero => simp [ofSteps, Repetition.level, Reading.map, List.map_eq_flatMap]
  | succ count ih =>
    simp only [ofSteps, ih, Repetition.level_succ_eq, filter_further suited]
    simp only [further_readings suited, List.flatMap_assoc, List.map_flatMap, List.flatMap_map,
      List.map_map]
    rfl

end Chain

end Multiparse
