import Multiparse.Proofs.Chain.Left

/-!
# Chains that are grouped to the right

A chain that is grouped to the right reads an operand, and then an operator and a whole chain or
nothing more. Since the chain behind an operator has fewer tokens left, this recursion ends
(`chainRight_computes`); its readings are again the ways to read a chain. Grouped to the left or to
the right, a chain is read in the same ways, and what is met lies equally deep (`groupings_agree`).
-/

namespace Multiparse

open Diagnostic

variable {m : Type → Type} [Monad m] {τ α β : Type}

/-! ## Something more, or one reading -/

/-- A choice between an outcome and a single reading. -/
def Outcome.orReading (policy : Policy) (reading : Reading τ α) (outcome : Outcome τ α) :
    Outcome τ α :=
  match policy with
  | .exhaustive =>
    .ofReadings ((if outcome.success then outcome.readings else []) ++ [reading]) outcome.error
  | .ordered => if outcome.success then outcome else .ofReadings [reading] outcome.error

theorem Outcome.orReading_error (policy : Policy) (reading : Reading τ α) (outcome : Outcome τ α) :
    (outcome.orReading policy reading).error = outcome.error := by
  cases policy with
  | exhaustive => rfl
  | ordered =>
    rw [orReading]
    split <;> rfl

theorem Outcome.Sound.orReading {outcome : Outcome τ α} (sound : outcome.Sound) (policy : Policy)
    (reading : Reading τ α) : (outcome.orReading policy reading).Sound := by
  cases policy with
  | exhaustive =>
    exact Outcome.ofReadings_sound _ (List.append_ne_nil_of_right_ne_nil _ (List.cons_ne_nil _ _))
  | ordered =>
    rw [Outcome.orReading]
    split
    · exact sound
    · exact Outcome.ofReadings_sound _ (List.cons_ne_nil _ _)

theorem Outcome.Sound.orReading_exhaustive {outcome : Outcome τ α} (sound : outcome.Sound)
    (reading : Reading τ α) :
    (outcome.orReading .exhaustive reading).readings = outcome.readings ++ [reading] := by
  rw [Outcome.orReading]
  cases succeeded : outcome.success with
  | false => simp [Outcome.ofReadings, sound.barren succeeded]
  | true => rfl

theorem Outcome.Sound.orReading_ordered {outcome : Outcome τ α} (sound : outcome.Sound)
    (reading : Reading τ α) :
    (outcome.orReading .ordered reading).readings =
      if outcome.readings = [] then [reading] else outcome.readings := by
  rw [Outcome.orReading]
  cases succeeded : outcome.success with
  | false => simp [Outcome.ofReadings, sound.barren succeeded]
  | true => simp [sound.fruitful succeeded]

theorem Parser.choice_orReading [LawfulMonad m] (policy : Policy) {p : Parser m τ α}
    {input : Residual τ} {outcome : Outcome τ α} (ran : p input = pure outcome) (value : α) :
    choice policy [p, succeed value] input = pure (outcome.orReading policy ⟨value, input⟩) := by
  cases policy with
  | exhaustive =>
    change anyOfFrom input [p, succeed value] false [] none = _
    rw [anyOfFrom, ran, pure_bind]
    cases succeeded : outcome.success <;>
      simp [anyOfFrom, succeed, ofFunction, Outcome.orReading, Outcome.conclude,
        Outcome.ofReadings, succeeded]
  | ordered =>
    change firstOfFrom input [p, succeed value] none = _
    rw [firstOfFrom, ran, pure_bind]
    cases succeeded : outcome.success with
    | false =>
      simp [firstOfFrom, succeed, ofFunction, Outcome.orReading, Outcome.withEarlier,
        Outcome.ofReadings, succeeded]
    | true =>
      simp only [Outcome.orReading, succeeded, ↓reduceIte]
      rfl

namespace Chain

variable {operand : Residual τ → Outcome τ α} {operator : Residual τ → Outcome τ (α → α → α)}
  {input : Residual τ}

/-- What a chain that is grouped to the right returns. -/
def readRight (operand : Residual τ → Outcome τ α) (operator : Residual τ → Outcome τ (α → α → α))
    (policy : Policy) (input : Residual τ) : Outcome τ α :=
  (operand input).andThen fun left =>
    ((operator left.rest).andThen fun apply =>
      if apply.rest.remaining < input.remaining then
        (readRight operand operator policy apply.rest).map (apply.value left.value)
      else .barren).orReading policy left
termination_by input.remaining

/-- What is read behind an operand: an operator and a chain. -/
def readBehind (operand : Residual τ → Outcome τ α) (operator : Residual τ → Outcome τ (α → α → α))
    (policy : Policy) (left : Reading τ α) : Outcome τ α :=
  (operator left.rest).andThen fun apply =>
    (readRight operand operator policy apply.rest).map (apply.value left.value)

theorem readRight_eq (suited : Suited operand operator) (policy : Policy) (input : Residual τ) :
    readRight operand operator policy input =
      (operand input).andThen fun left =>
        (readBehind operand operator policy left).orReading policy left := by
  rw [readRight]
  apply Outcome.andThen_congr
  intro left leftRead
  rw [readBehind, Outcome.andThen_congr fun apply applyRead => ?_]
  exact if_pos (suited.remaining_lt leftRead applyRead)

section Grammars

variable {N : Names} [LawfulMonad m] [Aborts m] [Defers m] [Observes N.Tracer m] [Token τ]
  {call : (rule : N.Rule) → Parser m τ (N.Result rule)} {p : Grammar N τ α}
  {op : Grammar N τ (α → α → α)}

/-- The recursion ends, since the chain behind an operator has fewer tokens left. -/
theorem chainRight_computes (suited : Suited operand operator)
    (operands : (p.interpret call).Computes operand)
    (operators : (op.interpret call).Computes operator) (policy : Policy) :
    ((Grammar.chainRight policy p op).interpret call).Computes
      (readRight operand operator policy) := by
  intro input
  induction input using suited.rest_induction with
  | step input ih =>
    rw [readRight_eq suited, Grammar.interpret_chainRight, Parser.chainRight]
    apply Parser.bind_of_pure (operands input)
    intro left leftRead
    refine Parser.choice_orReading policy ?_ left.value
    apply Parser.bind_of_pure (operators left.rest)
    intro apply applyRead
    have chain := ih left leftRead apply applyRead
    rw [Grammar.interpret_chainRight] at chain
    -- Behind an operator fewer tokens are left, so the run does not stop with a fault here.
    rw [if_pos (suited.remaining_lt leftRead applyRead), chain, pure_bind]

end Grammars

/-! ## Readings -/

theorem readRight_sound (suited : Suited operand operator) (policy : Policy) (input : Residual τ) :
    (readRight operand operator policy input).Sound := by
  rw [readRight_eq suited]
  exact (suited.operands input).andThen _

theorem readBehind_sound (suited : Suited operand operator) (policy : Policy)
    (left : Reading τ α) : (readBehind operand operator policy left).Sound :=
  (suited.operators left.rest).andThen _

theorem readBehind_readings (suited : Suited operand operator) (policy : Policy)
    (left : Reading τ α) :
    (readBehind operand operator policy left).readings =
      (operator left.rest).readings.flatMap fun apply =>
        (readRight operand operator policy apply.rest).readings.map
          (Reading.map (apply.value left.value)) :=
  (suited.operators left.rest).andThen_readings _

theorem readRight_readings (suited : Suited operand operator) (policy : Policy)
    (input : Residual τ) :
    (readRight operand operator policy input).readings =
      (operand input).readings.flatMap fun left =>
        ((readBehind operand operator policy left).orReading policy left).readings := by
  rw [readRight_eq suited]
  exact (suited.operands input).andThen_readings _

theorem behind_groupedRight (left : Reading τ α) :
    (behind operand operator left).map (Reading.map groupedRight) =
      (operator left.rest).readings.flatMap fun apply =>
        ((derivations operand operator apply.rest).map (Reading.map groupedRight)).map
          (Reading.map (apply.value left.value)) := by
  rw [behind, List.map_flatMap]
  simp only [List.map_map]
  rfl

/-- Grouped to the right, every way to read a chain is a reading. -/
theorem readRight_perm (suited : Suited operand operator) (input : Residual τ) :
    (readRight operand operator .exhaustive input).readings.Perm
      ((derivations operand operator input).map (Reading.map groupedRight)) := by
  induction input using suited.rest_induction with
  | step input ih =>
    refine .trans ?_ ((derivations_perm suited input).map _).symm
    rw [readRight_readings suited, List.map_flatMap]
    apply List.Perm.flatMap_left
    intro left leftRead
    rw [(readBehind_sound suited .exhaustive left).orReading_exhaustive, List.map_cons,
      behind_groupedRight, readBehind_readings suited]
    refine (List.perm_append_singleton _ _).trans (.cons left ?_)
    apply List.Perm.flatMap_left
    intro apply applyRead
    exact (ih left leftRead apply applyRead).map _

/-- Without ambiguity the longest chain comes first. -/
theorem readRight_reverse (suited : Suited operand operator)
    (operandOne : ∀ input, (operand input).readings.length ≤ 1)
    (operatorOne : ∀ input, (operator input).readings.length ≤ 1) (input : Residual τ) :
    (readRight operand operator .exhaustive input).readings =
      ((derivations operand operator input).map (Reading.map groupedRight)).reverse := by
  induction input using suited.rest_induction with
  | step input ih =>
    rw [readRight_readings suited, derivations_of_le_one suited operandOne operatorOne]
    obtain nothing | ⟨left, read⟩ := eq_nil_or_singleton (operandOne input)
    · rw [nothing]
      rfl
    · have leftRead : left ∈ (operand input).readings := by simp [read]
      rw [read, List.flatMap_singleton, List.flatMap_singleton, List.map_cons, List.reverse_cons,
        behind_groupedRight, (readBehind_sound suited .exhaustive left).orReading_exhaustive,
        readBehind_readings suited]
      congr 1
      obtain nothing | ⟨apply, follows⟩ := eq_nil_or_singleton (operatorOne left.rest)
      · rw [nothing]
        rfl
      · have applyRead : apply ∈ (operator left.rest).readings := by simp [follows]
        rw [follows, List.flatMap_singleton, List.flatMap_singleton, ← List.map_reverse,
          ih left leftRead apply applyRead]

/-- Without ambiguity an ordered chain is the longest one. -/
theorem readRight_getLast (suited : Suited operand operator)
    (operandOne : ∀ input, (operand input).readings.length ≤ 1)
    (operatorOne : ∀ input, (operator input).readings.length ≤ 1) (input : Residual τ) :
    (readRight operand operator .ordered input).readings =
      (derivations operand operator input).getLast?.toList.map (Reading.map groupedRight) := by
  induction input using suited.rest_induction with
  | step input ih =>
    rw [readRight_readings suited, derivations_of_le_one suited operandOne operatorOne]
    obtain nothing | ⟨left, read⟩ := eq_nil_or_singleton (operandOne input)
    · rw [nothing]
      rfl
    · have leftRead : left ∈ (operand input).readings := by simp [read]
      rw [read, List.flatMap_singleton, List.flatMap_singleton, behind,
        (readBehind_sound suited .ordered left).orReading_ordered, readBehind_readings suited]
      obtain nothing | ⟨apply, follows⟩ := eq_nil_or_singleton (operatorOne left.rest)
      · rw [nothing]
        rfl
      · have applyRead : apply ∈ (operator left.rest).readings := by simp [follows]
        rw [follows, List.flatMap_singleton, List.flatMap_singleton,
          ih left leftRead apply applyRead]
        -- The longest chain behind the operator is the last one, with it the longest of all.
        rcases List.eq_nil_or_concat (derivations operand operator apply.rest) with
          empty | ⟨others, longest, split⟩
        · rw [empty]
          rfl
        · rw [split, List.concat_eq_append, List.map_append, List.map_singleton, ← List.cons_append,
            List.getLast?_concat, List.getLast?_concat, if_neg (by simp)]
          rfl

/-! ## The diagnostic -/

theorem depth_readRight_le_iff (suited : Suited operand operator) (policy : Policy)
    {bound : WithBot Position} :
    depth (readRight operand operator policy input).error ≤ bound ↔
      depth (operand input).error ≤ bound ∧
        ∀ first ∈ (operand input).readings, Bounded operand operator bound first.rest := by
  induction input using suited.rest_induction with
  | step input ih =>
    have behindSound := readBehind_sound suited policy
    rw [readRight_eq suited, (suited.operands input).depth_andThen_le_iff fun left =>
      (behindSound left).orReading policy left]
    refine and_congr_right fun _ => forall₂_congr fun left leftRead => ?_
    have nested : ∀ apply ∈ (operator left.rest).readings,
        (depth (readRight operand operator policy apply.rest).error ≤ bound ↔
          depth (operand apply.rest).error ≤ bound ∧
            ∀ right ∈ (operand apply.rest).readings, Bounded operand operator bound right.rest) :=
      ih left leftRead
    have chained : depth (readBehind operand operator policy left).error ≤ bound ↔
        depth (operator left.rest).error ≤ bound ∧ ∀ apply ∈ (operator left.rest).readings,
          depth (readRight operand operator policy apply.rest).error ≤ bound :=
      (suited.operators left.rest).depth_andThen_le_iff fun apply =>
        (readRight_sound suited policy apply.rest).map _
    rw [Outcome.orReading_error, chained, bounded_iff suited, depth_further_le_iff suited,
      forall₂_congr nested, and_assoc]
    refine and_congr_right fun _ => ?_
    rw [further_readings suited]
    simp only [List.forall_mem_flatMap, List.forall_mem_map, Reading.map, forall_and]

end Chain

open Chain

/-- **Left and right chains read the same.** Let operands and operators be read by parsers that
compute, be sound and never move back, and let an operator and an operand together consume
something. From every input there are finitely many ways to read a chain. Exhaustive chains of both
groupings return, the one that recurses included, and for each way to read a chain they have one
reading, which groups its operators to the left or to the right and leaves the same rest. If in
addition operands and operators have at most one reading, both list the longest chain first, and
ordered chains of both groupings return the longest chain only, with diagnostics that lie equally
deep. -/
theorem groupings_agree {N : Names} [LawfulMonad m] [Aborts m] [Defers m] [Observes N.Tracer m]
    [Token τ] {call : (rule : N.Rule) → Parser m τ (N.Result rule)} {p : Grammar N τ α}
    {op : Grammar N τ (α → α → α)} {operand : Residual τ → Outcome τ α}
    {operator : Residual τ → Outcome τ (α → α → α)} (suited : Suited operand operator)
    (operands : (p.interpret call).Computes operand)
    (operators : (op.interpret call).Computes operator) (input : Residual τ) :
    (∀ count, input.remaining < count → ofSteps operand operator input count = []) ∧
    (∃ left right, (Grammar.chainLeft .exhaustive p op).interpret call input = pure left ∧
      (Grammar.chainRight .exhaustive p op).interpret call input = pure right ∧
      left.Sound ∧ right.Sound ∧
      left.readings.Perm ((derivations operand operator input).map (Reading.map groupedLeft)) ∧
      right.readings.Perm ((derivations operand operator input).map (Reading.map groupedRight)) ∧
      ((∀ input, (operand input).readings.length ≤ 1) →
        (∀ input, (operator input).readings.length ≤ 1) →
        left.readings =
            ((derivations operand operator input).map (Reading.map groupedLeft)).reverse ∧
          right.readings =
            ((derivations operand operator input).map (Reading.map groupedRight)).reverse)) ∧
    ∃ left right, (Grammar.chainLeft .ordered p op).interpret call input = pure left ∧
      (Grammar.chainRight .ordered p op).interpret call input = pure right ∧
      left.Sound ∧ right.Sound ∧ depth left.error = depth right.error ∧
      ((∀ input, (operand input).readings.length ≤ 1) →
        (∀ input, (operator input).readings.length ≤ 1) →
        left.readings =
            (derivations operand operator input).getLast?.toList.map (Reading.map groupedLeft) ∧
          right.readings =
            (derivations operand operator input).getLast?.toList.map
              (Reading.map groupedRight)) := by
  obtain ⟨last, lasts⟩ := exists_lasts suited
  have left := chainLeft_computes operands operators lasts
  have right := chainRight_computes suited operands operators
  refine ⟨?finite, ⟨_, _, left .exhaustive input, right .exhaustive input,
    readLeft_sound suited _ _, readRight_sound suited _ _, readLeft_perm suited lasts input,
    readRight_perm suited input, ?longestFirst⟩, ⟨_, _, left .ordered input, right .ordered input,
    readLeft_sound suited _ _, readRight_sound suited _ _, ?place, ?longestOnly⟩⟩
  case finite =>
    intro count many
    exact ofSteps_eq_nil suited many
  case longestFirst =>
    intro operandOne operatorOne
    exact ⟨readLeft_reverse suited lasts operandOne input,
      readRight_reverse suited operandOne operatorOne input⟩
  case place =>
    -- The diagnostics are merged in different orders, so what lies below a bound is compared.
    apply eq_of_forall_ge_iff
    intro bound
    rw [depth_readLeft_le_iff suited lasts, depth_readRight_le_iff suited]
  case longestOnly =>
    intro operandOne operatorOne
    exact ⟨readLeft_getLast suited lasts operandOne operatorOne input,
      readRight_getLast suited operandOne operatorOne input⟩

section Subtraction

/-- A token that is a number. -/
structure Numeral where
  value : Int

instance : Token Numeral where
  Kind := Unit
  kindEq := inferInstance
  kindName _ := "number"
  kind _ := ()
  lexeme numeral := toString numeral.value

/-- No rules, and one tracer. -/
abbrev plainNames : Names := ⟨Empty, fun _ => Unit, Unit⟩

/-- One number. -/
def number : Grammar plainNames Numeral Int := .map Numeral.value .anyToken

/-- Numbers that stand next to each other are subtracted; there is no sign between them. -/
def juxtaposition : Grammar plainNames Numeral (Int → Int → Int) := .succeed (· - ·)

/-- What `number` returns. -/
def nextNumber (input : Residual Numeral) : Outcome Numeral Int :=
  match input.tokens with
  | [] => .failure (.exhausted "any token")
  | numeral :: _ => .ofReadings [⟨numeral.value, input.advance⟩] none

/-- What `juxtaposition` returns. -/
def subtraction (input : Residual Numeral) : Outcome Numeral (Int → Int → Int) :=
  .ofReadings [⟨(· - ·), input⟩] none

theorem nextNumber_suited : Suited nextNumber subtraction where
  operands input := by
    rw [nextNumber]
    split
    · exact Outcome.failure_sound _
    · exact Outcome.ofReadings_sound _ (List.cons_ne_nil _ _)
  operators input := Outcome.ofReadings_sound _ (List.cons_ne_nil _ _)
  operand_leads input reading member := by
    rw [nextNumber] at member
    split at member
    · cases member
    · obtain rfl := List.mem_singleton.mp member
      exact .advance input
  operator_leads input reading member := by
    obtain rfl := List.mem_singleton.mp member
    exact .refl input
  consumes input apply applied right member := by
    obtain rfl := List.mem_singleton.mp applied
    obtain ⟨tokens, offset⟩ := input
    cases tokens with
    | nil => cases member
    | cons numeral tokens =>
      obtain rfl := List.mem_singleton.mp member
      exact Nat.lt_succ_self offset

theorem nextNumber_length_le (input : Residual Numeral) :
    (nextNumber input).readings.length ≤ 1 := by
  rw [nextNumber]
  split
  · exact Nat.zero_le 1
  · exact le_rfl

/-- The numbers seven, three and two. -/
def sevenThreeTwo : Residual Numeral := .start [⟨7⟩, ⟨3⟩, ⟨2⟩]

/-- Of seven, three and two the first difference may be taken first or last. -/
theorem groupings_agree_subtraction :
    Suited nextNumber subtraction ∧ ∃ call : (rule : Empty) → Parser (Except Fault) Numeral Unit,
      (∃ left right,
        (Grammar.chainLeft .exhaustive number juxtaposition).interpret call sevenThreeTwo =
          .ok left ∧
        (Grammar.chainRight .exhaustive number juxtaposition).interpret call sevenThreeTwo =
          .ok right ∧
        left.readings = [⟨2, ⟨[], 3⟩⟩, ⟨4, ⟨[⟨2⟩], 2⟩⟩, ⟨7, ⟨[⟨3⟩, ⟨2⟩], 1⟩⟩] ∧
        right.readings = [⟨6, ⟨[], 3⟩⟩, ⟨4, ⟨[⟨2⟩], 2⟩⟩, ⟨7, ⟨[⟨3⟩, ⟨2⟩], 1⟩⟩]) ∧
      ∃ left right,
        (Grammar.chainLeft .ordered number juxtaposition).interpret call sevenThreeTwo =
          .ok left ∧
        (Grammar.chainRight .ordered number juxtaposition).interpret call sevenThreeTwo =
          .ok right ∧
        left.readings = [⟨2, ⟨[], 3⟩⟩] ∧ right.readings = [⟨6, ⟨[], 3⟩⟩] ∧
        depth left.error = depth right.error := by
  let call : (rule : Empty) → Parser (Except Fault) Numeral Unit := nofun
  have operands : (number.interpret call).Computes nextNumber := by
    rintro ⟨tokens, offset⟩
    cases tokens <;> rfl
  have operators : (juxtaposition.interpret call).Computes subtraction :=
    Parser.ofFunction_computes subtraction
  obtain ⟨-, ⟨left, right, leftRan, rightRan, -, -, -, -, listed⟩, left', right', leftRan',
    rightRan', -, -, deep, listed'⟩ :=
    groupings_agree nextNumber_suited operands operators sevenThreeTwo
  obtain ⟨leftAll, rightAll⟩ := listed nextNumber_length_le fun _ => le_rfl
  obtain ⟨leftLast, rightLast⟩ := listed' nextNumber_length_le fun _ => le_rfl
  exact ⟨nextNumber_suited, call, ⟨left, right, leftRan, rightRan, leftAll, rightAll⟩,
    left', right', leftRan', rightRan', leftLast, rightLast, deep⟩

end Subtraction

end Multiparse
