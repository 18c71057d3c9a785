import Multiparse.Proofs.Skipping

/-!
# Items with separators between them

A separated list is read as one item and a repetition of steps behind it, each a separator and an
item. The items behind the first have to move on together with their separators, the first one need
not. So the lists of all lengths are the lists of each length put together, and the greedy list is
one that no step continues; a separator is only consumed with an item behind it
(`separated_lists`).
-/

namespace Multiparse

open Repetition

variable {m : Type → Type} [Monad m] {τ α σ : Type}

/-- The input begins with items that have separators between them; behind the first item each
separator consumes something together with the item that follows it. -/
inductive Separated (item : Residual τ → Outcome τ α) (separator : Residual τ → Outcome τ σ)
    (input : Residual τ) : List α → Residual τ → Prop where
  | one {reading : Reading τ α} (member : reading ∈ (item input).readings) :
      Separated item separator input [reading.value] reading.rest
  | more {values : List α} {middle : Residual τ} {gap : Reading τ σ} {reading : Reading τ α}
      (earlier : Separated item separator input values middle)
      (between : gap ∈ (separator middle).readings) (member : reading ∈ (item gap.rest).readings)
      (consumes : middle.offset < reading.rest.offset) :
      Separated item separator input (values ++ [reading.value]) reading.rest

namespace Outcome

variable {item : Residual τ → Outcome τ α} {separator : Residual τ → Outcome τ σ}
  {input : Residual τ}

/-! ## Steps -/

/-- A separator and an item behind it, of which the item counts. -/
def separatedItem (item : Residual τ → Outcome τ α) (separator : Residual τ → Outcome τ σ)
    (input : Residual τ) : Outcome τ α :=
  ((separator input).andThen fun gap => (item gap.rest).map (gap.value, ·)).map Prod.snd

theorem separatedItem_readings (gaps : Proceeds separator) (input : Residual τ) :
    (separatedItem item separator input).readings =
      (separator input).readings.flatMap fun gap => (item gap.rest).readings := by
  rw [separatedItem, map_readings, (gaps.sounds input).andThen_readings, List.map_flatMap]
  simp only [map_readings, List.map_map]
  exact List.flatMap_congr fun gap _ => List.map_id _

theorem separatedItem_proceeds (items : Proceeds item) (gaps : Proceeds separator) :
    Proceeds (separatedItem item separator) where
  sounds input := ((gaps.sounds input).andThen _).map _
  leads input reading member := by
    rw [separatedItem_readings gaps, List.mem_flatMap] at member
    obtain ⟨gap, between, read⟩ := member
    exact (gaps.leads input gap between).trans (items.leads gap.rest reading read)

/-! ## Lists -/

/-- A first item with steps behind it. -/
def separated (item : Residual τ → Outcome τ α) (separator : Residual τ → Outcome τ σ)
    (extent : Extent) (input : Residual τ) : Outcome τ (List α) :=
  (headed item (separatedItem item separator) extent input).map fun values => values.1 :: values.2

/-- A list of so many items. -/
def separatedExactly (item : Residual τ → Outcome τ α) (separator : Residual τ → Outcome τ σ)
    (input : Residual τ) : Nat → Outcome τ (List α)
  | 0 => ofNothing [] input
  | 1 => (item input).map fun value => [value]
  | more + 2 => separated item separator (.exactly (more + 1)) input

theorem separated_sound (items : Proceeds item) (extent : Extent) (input : Residual τ) :
    (separated item separator extent input).Sound :=
  (headed_sound items extent input).map _

theorem separated_readings (items : Proceeds item) (extent : Extent) (input : Residual τ) :
    (separated item separator extent input).readings =
      (item input).readings.flatMap fun head =>
        (harvest (separatedItem item separator) extent head.rest).readings.map
          (Reading.map (head.value :: ·)) := by
  rw [separated, map_readings, headed_readings items, List.map_flatMap]
  simp only [List.map_map]
  rfl

theorem separatedExactly_sound (items : Proceeds item) (count : Nat) :
    (separatedExactly item separator input count).Sound := by
  match count with
  | 0 => exact ofNothing_sound [] input
  | 1 => exact (items.sounds input).map _
  | more + 2 => exact separated_sound items _ input

/-- A list of some length is an item with one step less behind it. -/
theorem separatedExactly_readings (items : Proceeds item) (more : Nat) :
    (separatedExactly item separator input (more + 1)).readings =
      (item input).readings.flatMap fun head =>
        (level (separatedItem item separator) head.rest more).map
          (Reading.map (head.value :: ·)) := by
  cases more with
  | zero => exact List.map_eq_flatMap
  | succ more =>
    rw [separatedExactly, separated_readings items]
    simp only [harvest_exactly_readings]

theorem length_of_mem_separatedExactly (items : Proceeds item) {count : Nat}
    {reading : Reading τ (List α)}
    (member : reading ∈ (separatedExactly item separator input count).readings) :
    reading.value.length = count := by
  cases count with
  | zero =>
    rw [List.mem_singleton.mp member]
    rfl
  | succ more =>
    rw [separatedExactly_readings items, List.mem_flatMap] at member
    obtain ⟨head, -, among⟩ := member
    obtain ⟨steps, present, rfl⟩ := List.mem_map.mp among
    exact congrArg Nat.succ (length_of_mem_level present)

/-- The lists of all lengths are those of each length put together. -/
theorem separated_perm (items : Proceeds item) (gaps : Proceeds separator) {bound : Nat}
    (enough : input.remaining < bound) :
    (separated item separator .longestFirst input).readings.Perm
      ((List.range bound).flatMap fun more =>
        (separatedExactly item separator input (more + 1)).readings) := by
  have steps := separatedItem_proceeds items gaps
  rw [separated_readings items,
    List.flatMap_congr fun more _ => separatedExactly_readings items more]
  refine .trans ?_ (Chain.flatMap_swap_perm _ _ _).symm
  apply List.Perm.flatMap_left
  intro head read
  have shorter : head.rest.remaining < bound := by
    have leads := items.leads input head read
    have forward := leads.offset_le
    have total := leads.total_eq
    omega
  rw [← List.map_flatMap, ← below, ← below_deepest steps shorter]
  exact (List.reverse_perm _).map _

theorem separated_success_iff (items : Proceeds item) (gaps : Proceeds separator) :
    (separated item separator .longestFirst input).success = true ↔
      ∃ more, (separatedExactly item separator input (more + 1)).success = true := by
  rw [(separated_sound items _ input).success_iff]
  simp only [(separatedExactly_sound items _).success_iff]
  constructor
  · intro found
    obtain ⟨reading, member⟩ := found
    have among := (separated_perm items gaps (Nat.lt_succ_self _)).mem_iff.mp member
    obtain ⟨more, -, present⟩ := List.mem_flatMap.mp among
    exact ⟨more, reading, present⟩
  · intro found
    obtain ⟨more, reading, present⟩ := found
    have enough : input.remaining < input.remaining + more + 1 := by omega
    have early : more ∈ List.range (input.remaining + more + 1) := List.mem_range.mpr (by omega)
    exact ⟨reading, (separated_perm items gaps enough).mem_iff.mpr
      (List.mem_flatMap.mpr ⟨more, early, present⟩)⟩

/-- A greedy list is not continued by a step that consumes something. -/
theorem mem_separated_greedy (items : Proceeds item) (gaps : Proceeds separator)
    {reading : Reading τ (List α)}
    (member : reading ∈ (separated item separator .greedy input).readings) :
    reading ∈ (separated item separator .longestFirst input).readings ∧
      ∀ gap ∈ (separator reading.rest).readings, ∀ further ∈ (item gap.rest).readings,
        further.rest.offset ≤ reading.rest.offset := by
  rw [separated_readings items, List.mem_flatMap] at member ⊢
  obtain ⟨head, read, among⟩ := member
  obtain ⟨steps, deep, rfl⟩ := List.mem_map.mp among
  obtain ⟨found, ends⟩ := harvest_greedy_member (separatedItem_proceeds items gaps) deep
  refine ⟨⟨head, read, List.mem_map_of_mem found⟩, ?_⟩
  intro gap between further behind
  apply ends further
  rw [separatedItem_readings gaps]
  exact List.mem_flatMap.mpr ⟨gap, between, behind⟩

theorem separated_of_climbs (gaps : Proceeds separator) {head : Reading τ α}
    (read : head ∈ (item input).readings) {values : List α} {rest : Residual τ}
    (climbs : Climbs (separatedItem item separator) head.rest values rest) :
    Separated item separator input (head.value :: values) rest := by
  induction climbs with
  | start => exact .one read
  | step climbs member consumes ih =>
    rw [separatedItem_readings gaps, List.mem_flatMap] at member
    obtain ⟨gap, between, behind⟩ := member
    exact .more ih between behind consumes

theorem exists_climbs_of_separated (gaps : Proceeds separator) {values : List α}
    {rest : Residual τ} (list : Separated item separator input values rest) :
    ∃ head ∈ (item input).readings, ∃ others, values = head.value :: others ∧
      Climbs (separatedItem item separator) head.rest others rest := by
  induction list with
  | one member => exact ⟨_, member, [], rfl, .start⟩
  | @more _ middle gap reading earlier between member consumes ih =>
    obtain ⟨head, read, others, rfl, climbs⟩ := ih
    have step : reading ∈ (separatedItem item separator middle).readings := by
      rw [separatedItem_readings gaps]
      exact List.mem_flatMap.mpr ⟨gap, between, member⟩
    exact ⟨head, read, _, rfl, .step climbs step consumes⟩

/-- The readings of a list are all ways to read items with separators between them. -/
theorem mem_separated_iff (items : Proceeds item) (gaps : Proceeds separator)
    {reading : Reading τ (List α)} :
    reading ∈ (separated item separator .longestFirst input).readings ↔
      Separated item separator input reading.value reading.rest := by
  have steps := separatedItem_proceeds items gaps
  rw [separated_readings items, List.mem_flatMap]
  constructor
  · intro member
    obtain ⟨head, read, among⟩ := member
    obtain ⟨behind, present, rfl⟩ := List.mem_map.mp among
    exact separated_of_climbs gaps read ((mem_harvest_longestFirst steps).mp present)
  · intro list
    obtain ⟨values, rest⟩ := reading
    obtain ⟨head, read, others, rfl, climbs⟩ := exists_climbs_of_separated gaps list
    have present : ⟨others, rest⟩ ∈
        (harvest (separatedItem item separator) .longestFirst head.rest).readings :=
      (mem_harvest_longestFirst steps).mpr climbs
    exact ⟨head, read, List.mem_map_of_mem present⟩

end Outcome

section Grammars

variable {N : Names} [LawfulMonad m] [Aborts m] [Defers m] [Observes N.Tracer m] [Token τ]
  {call : (rule : N.Rule) → Parser m τ (N.Result rule)} {p : Grammar N τ α} {q : Grammar N τ σ}
  {item : Residual τ → Outcome τ α} {separator : Residual τ → Outcome τ σ}

theorem separatedItem_computes (items : (p.interpret call).Computes item)
    (gaps : (q.interpret call).Computes separator) :
    ((Grammar.keepRight q p).interpret call).Computes (Outcome.separatedItem item separator) :=
  (gaps.bind fun gap => items.map (gap, ·)).map _

variable (items : (p.interpret call).Computes item) (gaps : (q.interpret call).Computes separator)
  (itemsProceed : Proceeds item) (gapsProceed : Proceeds separator)

include items gaps itemsProceed gapsProceed

theorem headedBySeparated_computes (extent : Extent) :
    ((Grammar.map (fun values : α × List α => values.1 :: values.2)
      (Grammar.pair p (.repeated extent (Grammar.keepRight q p)))).interpret call).Computes
        (Outcome.separated item separator extent) :=
  (headed_computes items (separatedItem_computes items gaps)
    (Outcome.separatedItem_proceeds itemsProceed gapsProceed) extent).map _

theorem listOfExactly_computes (count : Nat) :
    ((Grammar.listOfExactly count p q).interpret call).Computes fun input =>
      Outcome.separatedExactly item separator input count := by
  match count with
  | 0 => exact fun _ => rfl
  | 1 => exact items.map _
  | more + 2 => exact headedBySeparated_computes items gaps itemsProceed gapsProceed _

/-- Nothing is one more reading behind all lists. -/
theorem separatedBy_computes :
    ((Grammar.separatedBy .exhaustive p q).interpret call).Computes fun input =>
      (Outcome.chosen .exhaustive [(Outcome.separated item separator .longestFirst input).map some,
        .ofNothing none input]).map fun values => values.getD [] := by
  intro input
  have lists := headedBySeparated_computes items gaps itemsProceed gapsProceed .longestFirst input
  exact Parser.map_of_pure (optional_of_pure lists .exhaustive) _

end Grammars

/-- **A list is of some length, and its separators stand between items.** Let items and separators
be read by grammars that compute, whose outcomes are sound and which never move back; they may be
ambiguous and consume nothing. Lists with separators return, and those of exactly so many items do,
which have as many values. There are no more items behind the first than tokens left, so the
readings of all lists are, equally often, those of the lists of one item, two items and so on; and
lists succeed exactly if those of some length do. That there may be no item adds one reading of
nothing behind the others. Greedy lists succeed where lists do; their readings are among those of
all lists, and no separator and item behind them consume anything. The readings are all ways to read
items with separators between them, so that none of these ends with a separator. -/
theorem separated_lists {N : Names} [LawfulMonad m] [Aborts m] [Defers m] [Observes N.Tracer m]
    [Token τ] {call : (rule : N.Rule) → Parser m τ (N.Result rule)} {p : Grammar N τ α}
    {q : Grammar N τ σ} {item : Residual τ → Outcome τ α} {separator : Residual τ → Outcome τ σ}
    (items : (p.interpret call).Computes item) (gaps : (q.interpret call).Computes separator)
    (itemsProceed : Proceeds item) (gapsProceed : Proceeds separator) (input : Residual τ) :
    ∃ (all longest any : Outcome τ (List α)) (counted : Nat → Outcome τ (List α)),
      (Grammar.listOf .exhaustive p q).interpret call input = pure all ∧
      (Grammar.listOf .ordered p q).interpret call input = pure longest ∧
      (Grammar.separatedBy .exhaustive p q).interpret call input = pure any ∧
      (∀ count, (Grammar.listOfExactly count p q).interpret call input = pure (counted count)) ∧
      (∀ count, ∀ reading ∈ (counted count).readings, reading.value.length = count) ∧
      (∀ bound, input.remaining < bound →
        all.readings.Perm
          ((List.range bound).flatMap fun more => (counted (more + 1)).readings)) ∧
      (all.success = true ↔ ∃ more, (counted (more + 1)).success = true) ∧
      any.success = true ∧ any.readings = all.readings ++ [⟨[], input⟩] ∧
      longest.success = all.success ∧
      (∀ reading ∈ longest.readings, reading ∈ all.readings ∧
        ∀ gap ∈ (separator reading.rest).readings, ∀ further ∈ (item gap.rest).readings,
          further.rest.offset ≤ reading.rest.offset) ∧
      ∀ reading, reading ∈ all.readings ↔
        Separated item separator input reading.value reading.rest := by
  have lists := headedBySeparated_computes items gaps itemsProceed gapsProceed
  refine ⟨_, _, _, _, lists .longestFirst input, lists .greedy input,
    separatedBy_computes items gaps itemsProceed gapsProceed input,
    fun count => listOfExactly_computes items gaps itemsProceed gapsProceed count input,
    fun _ _ => Outcome.length_of_mem_separatedExactly itemsProceed,
    fun _ => Outcome.separated_perm itemsProceed gapsProceed,
    Outcome.separated_success_iff itemsProceed gapsProceed, ?success, ?readings, ?succeeds,
    fun _ => Outcome.mem_separated_greedy itemsProceed gapsProceed,
    fun _ => Outcome.mem_separated_iff itemsProceed gapsProceed⟩
  case success =>
    rw [Outcome.map_success, Outcome.chosen_exhaustive_success]
    simp [Outcome.ofNothing, Outcome.ofReadings]
  case readings =>
    have found : (Outcome.separated item separator .longestFirst input).Sound :=
      Outcome.separated_sound itemsProceed _ input
    rw [Outcome.map_readings,
      Outcome.readings_chosen_pair (found.map some) (Outcome.ofNothing_sound none input),
      List.map_append, Outcome.map_readings, List.map_map]
    refine congrArg₂ List.append ?_ rfl
    exact List.map_id _
  case succeeds =>
    have steps := Outcome.separatedItem_proceeds itemsProceed gapsProceed
    exact (Outcome.headed_success itemsProceed steps (fun _ => rfl) input).trans
      (Outcome.headed_success itemsProceed steps (fun _ => rfl) input).symm

/-- If the letters between commas may be missing, the list of two of them after which the second
is missing consumes the comma all the same. -/
theorem separated_lists_perhaps_letters :
    ∃ (call : (rule : Unit) → Parser (Except Fault) Word Nat)
      (item : Residual Word → Outcome Word (Option Word))
      (separator : Residual Word → Outcome Word Word),
      (perhapsLetter.interpret call).Computes item ∧ Proceeds item ∧
      ((Grammar.literal "," : Grammar towerNames Word Word).interpret call).Computes separator ∧
      Proceeds separator ∧
      ∃ all longest any,
        (Grammar.listOf .exhaustive perhapsLetter (.literal ",")).interpret call
          (.start (["a", ","].map Word.ofLexeme)) = .ok all ∧
        (Grammar.listOf .ordered perhapsLetter (.literal ",")).interpret call
          (.start (["a", ","].map Word.ofLexeme)) = .ok longest ∧
        (Grammar.separatedBy .exhaustive perhapsLetter (.literal ",")).interpret call
          (.start (["a", ","].map Word.ofLexeme)) = .ok any ∧
        any.readings = all.readings ++ [⟨[], .start (["a", ","].map Word.ofLexeme)⟩] ∧
        all.stops = [2, 1, 0] ∧ longest.stops = [2, 0] ∧ any.stops = [2, 1, 0, 0] := by
  let call : (rule : Unit) → Parser (Except Fault) Word Nat := fun _ => .fail "no rule"
  obtain ⟨item, items, itemsProceed⟩ := perhapsLetter_proceeds call
  obtain ⟨separator, gaps, gapsProceed⟩ := satisfy_proceeds (m := Except Fault)
    (fun word : Word => Token.lexeme word == ",") "','"
  obtain ⟨all, longest, any, counted, ranAll, ranLongest, ranAny, -, -, -, -, -, behind, -⟩ :=
    separated_lists (q := (.literal "," : Grammar towerNames Word Word)) items gaps itemsProceed
      gapsProceed (.start (["a", ","].map Word.ofLexeme))
  refine ⟨call, item, separator, items, itemsProceed, gaps, gapsProceed, all, longest, any, ranAll,
    ranLongest, ranAny, behind, ?_⟩
  cases ranAll
  cases ranLongest
  cases ranAny
  exact ⟨rfl, rfl, rfl⟩

end Multiparse
