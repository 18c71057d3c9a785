import Mathlib.Data.List.Induction
import Multiparse.Proofs.Depth
import Multiparse.Proofs.Ending
import Multiparse.Proofs.Fragment

/-!
# Contracts of parsers

A contract says what may come out of a run on an input: the rests that readings may leave, the
places where a diagnostic may lie, and whether a success must have a reading. Under every contract
a failure has no reading and gives a reason. Whatever parsers are put together, the whole meets a
contract if its parts do (`Grammar.interpret_meets`).
-/

namespace Multiparse

/-- What is asked of the outcomes on an input. Rests can be read on from, and what is met on a rest
is also met on the input. -/
structure Contract (τ : Type) where
  /-- A reading may leave this rest of the input. -/
  leaves : Residual τ → Residual τ → Prop
  /-- A diagnostic on the input may lie at this position. -/
  places : Residual τ → Position → Prop
  /-- A success has a reading. -/
  fruitful : Prop
  leaves_self : ∀ input, leaves input input
  leaves_advance : ∀ input, leaves input input.advance
  leaves_trans : ∀ {input middle rest}, leaves input middle → leaves middle rest →
    leaves input rest
  places_unknown : ∀ input, places input .unknown
  places_here : ∀ input, places input input.position
  places_later : ∀ {input rest position}, leaves input rest → places rest position →
    places input position

variable {τ α β : Type} {contract : Contract τ} {input rest : Residual τ}

/-- The contract admits the readings and the diagnostic on the input. -/
structure Contract.Admits (contract : Contract τ) (input : Residual τ)
    (readings : List (Reading τ α)) (error : Option Diagnostic) : Prop where
  leaves : ∀ reading ∈ readings, contract.leaves input reading.rest
  places : ∀ reason, error = some reason → contract.places input reason.position

/-- The outcome on the input meets the contract. -/
structure Outcome.Meets (contract : Contract τ) (input : Residual τ) (outcome : Outcome τ α) :
    Prop extends contract.Admits input outcome.readings outcome.error where
  barren : outcome.success = false → outcome.readings = []
  reason : outcome.success = false → outcome.error.isSome
  fruitful : contract.fruitful → outcome.success = true → outcome.readings ≠ []

/-- Whatever the parser returns meets the contract. -/
def Parser.Meets (contract : Contract τ) (p : Parser Run τ α) : Prop :=
  ∀ input, (p input).Ensures (Outcome.Meets contract input)

/-! ## What follows an input -/

namespace Residual

/-- The rest is what some tokens of the input leave. -/
def LeadsTo (input rest : Residual τ) : Prop := ∃ count, rest = input.advanceBy count

theorem advanceBy_one (input : Residual τ) : input.advanceBy 1 = input.advance := by
  rw [advanceBy_succ, advanceBy_zero]

theorem advanceBy_advanceBy (input : Residual τ) (first second : Nat) :
    (input.advanceBy first).advanceBy second = input.advanceBy (first + second) := by
  induction second with
  | zero => rw [advanceBy_zero, Nat.add_zero]
  | succ second ih => rw [advanceBy_succ, ih, ← Nat.add_assoc, advanceBy_succ]

namespace LeadsTo

variable {input middle rest : Residual τ}

theorem refl (input : Residual τ) : input.LeadsTo input := ⟨0, (advanceBy_zero input).symm⟩

theorem advance (input : Residual τ) : input.LeadsTo input.advance :=
  ⟨1, (advanceBy_one input).symm⟩

theorem trans (first : input.LeadsTo middle) (second : middle.LeadsTo rest) :
    input.LeadsTo rest := by
  obtain ⟨count, rfl⟩ := first
  obtain ⟨more, rfl⟩ := second
  exact ⟨count + more, advanceBy_advanceBy input count more⟩

theorem offset_le (leads : input.LeadsTo rest) : input.offset ≤ rest.offset := by
  obtain ⟨count, rfl⟩ := leads
  exact Nat.le_add_right _ _

/-- Together the tokens before and the tokens left stay as many. -/
theorem total_eq (leads : input.LeadsTo rest) :
    rest.offset + rest.remaining = input.offset + input.remaining := by
  obtain ⟨count, rfl⟩ := leads
  simp only [advanceBy, remaining, List.length_drop]
  omega

/-- Among the rests of an input no two lie at the same place. -/
theorem eq_of_offset_eq {left right : Residual τ} (toLeft : input.LeadsTo left)
    (toRight : input.LeadsTo right) (same : left.offset = right.offset) : left = right := by
  obtain ⟨count, rfl⟩ := toLeft
  obtain ⟨count', rfl⟩ := toRight
  have level := Nat.add_left_cancel same
  rw [advanceBy, advanceBy, level, List.drop_eq_drop_iff.mpr level]

/-- A rest that lies no deeper is the input itself. -/
theorem eq_of_offset_le (leads : input.LeadsTo rest) (shallow : rest.offset ≤ input.offset) :
    rest = input :=
  leads.eq_of_offset_eq (.refl input) (Nat.le_antisymm shallow leads.offset_le)

theorem remaining_lt (leads : input.LeadsTo rest) (deeper : input.offset < rest.offset) :
    rest.remaining < input.remaining := by
  have total := leads.total_eq
  omega

end LeadsTo

end Residual

/-- A reading leaves an end of the input, and nothing else is asked. -/
def Contract.following : Contract τ where
  leaves := Residual.LeadsTo
  places _ _ := True
  fruitful := False
  leaves_self := .refl
  leaves_advance := .advance
  leaves_trans := .trans
  places_unknown _ := trivial
  places_here _ := trivial
  places_later _ _ := trivial

/-! ## What a contract admits -/

namespace Contract.Admits

variable {readings : List (Reading τ α)} {error : Option Diagnostic}

theorem none : contract.Admits input ([] : List (Reading τ α)) none :=
  ⟨fun _ member => absurd member List.not_mem_nil, fun _ missing => nomatch missing⟩

theorem here (value : α) : contract.Admits input [⟨value, input⟩] Option.none := by
  refine ⟨fun reading member => ?_, fun _ missing => nomatch missing⟩
  obtain rfl := List.mem_singleton.mp member
  exact contract.leaves_self input

theorem subset {others : List (Reading τ β)} (admits : contract.Admits input readings error)
    (among : ∀ other ∈ others, ∃ reading ∈ readings, other.rest = reading.rest) :
    contract.Admits input others error := by
  refine ⟨fun other member => ?_, admits.places⟩
  obtain ⟨reading, present, same⟩ := among other member
  rw [same]
  exact admits.leaves reading present

theorem map (admits : contract.Admits input readings error) (f : α → β) :
    contract.Admits input (readings.map (Reading.map f)) error := by
  apply admits.subset
  intro other member
  obtain ⟨reading, present, rfl⟩ := List.mem_map.mp member
  exact ⟨reading, present, rfl⟩

theorem sublist {others : List (Reading τ α)} (admits : contract.Admits input readings error)
    (among : others ⊆ readings) : contract.Admits input others error :=
  admits.subset fun other member => ⟨other, among member, rfl⟩

/-- What is admitted on a rest is admitted on the input. -/
theorem later (admits : contract.Admits rest readings error) (left : contract.leaves input rest) :
    contract.Admits input readings error :=
  ⟨fun reading member => contract.leaves_trans left (admits.leaves reading member),
    fun reason present => contract.places_later left (admits.places reason present)⟩

/-- Readings are collected and the farther diagnostic is kept. -/
theorem join {others : List (Reading τ α)} {error' : Option Diagnostic}
    (admits : contract.Admits input readings error)
    (admits' : contract.Admits input others error') :
    contract.Admits input (readings ++ others) (Diagnostic.farthest error error') := by
  refine ⟨fun reading member => ?_, fun reason present => ?_⟩
  · rcases List.mem_append.mp member with first | second
    · exact admits.leaves reading first
    · exact admits'.leaves reading second
  · cases error with
    | none => exact admits'.places reason present
    | some first =>
      cases error' with
      | none => exact admits.places reason present
      | some second =>
        obtain rfl := Option.some.inj present
        rw [Diagnostic.deeper_position]
        rcases le_total first.position second.position with below | above
        · rw [max_eq_right below]
          exact admits'.places second rfl
        · rw [max_eq_left above]
          exact admits.places first rfl

/-- A diagnostic that is met besides is merged. -/
theorem merge {others : List (Reading τ β)} {error' : Option Diagnostic}
    (admits : contract.Admits input readings error)
    (admits' : contract.Admits input others error') :
    contract.Admits input readings (Diagnostic.farthest error error') := by
  have nothing : contract.Admits input ([] : List (Reading τ α)) error' :=
    admits'.subset fun _ member => absurd member List.not_mem_nil
  have joined := admits.join nothing
  rwa [List.append_nil] at joined

end Contract.Admits

/-! ## Outcomes that meet a contract -/

namespace Outcome.Meets

variable {readings : List (Reading τ α)} {error : Option Diagnostic} {outcome : Outcome τ α}

theorem ofReadings (admits : contract.Admits input readings error)
    (nonempty : contract.fruitful → readings ≠ []) :
    (Outcome.ofReadings readings error).Meets contract input :=
  { toAdmits := admits
    barren := fun failed => Bool.noConfusion failed
    reason := fun failed => Bool.noConfusion failed
    fruitful := fun asked _ => nonempty asked }

theorem failure {reason : Diagnostic} (placed : contract.places input reason.position) :
    (Outcome.failure reason : Outcome τ α).Meets contract input :=
  { leaves := fun _ member => absurd member List.not_mem_nil
    places := fun _ present => Option.some.inj present ▸ placed
    barren := fun _ => rfl
    reason := fun _ => rfl
    fruitful := fun _ succeeded => Bool.noConfusion succeeded }

theorem conclude {success : Bool} (admits : contract.Admits input readings error)
    (nonempty : contract.fruitful → success = true → readings ≠ []) :
    (Outcome.conclude success readings error).Meets contract input := by
  cases success with
  | true => exact ofReadings admits fun asked => nonempty asked rfl
  | false =>
    apply failure
    cases error with
    | none => exact contract.places_unknown input
    | some reason => exact admits.places reason rfl

theorem toFailure (meets : outcome.Meets contract input) (failed : outcome.success = false) :
    (outcome.toFailure : Outcome τ β).Meets contract input := by
  obtain ⟨reason, present⟩ := Option.isSome_iff_exists.mp (meets.reason failed)
  rw [Outcome.toFailure, present]
  exact failure (meets.places reason present)

theorem map (meets : outcome.Meets contract input) (f : α → β) :
    (outcome.map f).Meets contract input :=
  { toAdmits := meets.toAdmits.map f
    barren := fun failed => List.map_eq_nil_iff.mpr (meets.barren failed)
    reason := meets.reason
    fruitful := fun asked succeeded =>
      mt List.map_eq_nil_iff.mp (meets.fruitful asked succeeded) }

end Outcome.Meets

/-! ## Sequences -/

theorem Layer.advance_admits {stage : Reading τ α → Run (Outcome τ β)}
    (stages : ∀ reading, (stage reading).Ensures fun outcome =>
      contract.Admits reading.rest outcome.readings outcome.error)
    (readings : List (Reading τ α)) {error : Option Diagnostic}
    (admits : contract.Admits input readings error) :
    (Layer.advance stage readings error).Ensures fun layer =>
      contract.Admits input layer.readings layer.error := by
  induction readings generalizing error with
  | nil => exact .pure (admits.subset fun _ member => absurd member List.not_mem_nil)
  | cons reading others ih =>
    have left := admits.leaves reading List.mem_cons_self
    have remaining := admits.sublist (List.subset_cons_self reading others)
    refine .bind (stages reading) fun outcome found => ?_
    refine .bind (ih (remaining.merge (found.later left))) fun layer later => .pure ?_
    refine ⟨fun reached member => ?_, later.places⟩
    rcases List.mem_append.mp member with first | second
    · exact (found.later left).leaves reached first
    · exact later.leaves reached second

theorem Layer.through_meets {stages : List (Reading τ α → Run (Outcome τ α))}
    (each : ∀ stage ∈ stages, ∀ reading, (stage reading).Ensures fun outcome =>
      contract.Admits reading.rest outcome.readings outcome.error)
    {layer : Layer τ α} (admits : contract.Admits input layer.readings layer.error)
    (nonempty : contract.fruitful → layer.readings ≠ []) :
    (Layer.through stages layer).Ensures (Outcome.Meets contract input) := by
  induction stages generalizing layer with
  | nil => exact .pure (.ofReadings admits nonempty)
  | cons stage others ih =>
    refine .bind (Layer.advance_admits (each stage List.mem_cons_self) _ admits)
      fun next found => ?_
    by_cases empty : next.readings.isEmpty = true
    · simp only [empty]
      exact .pure (.conclude (found.sublist (List.nil_subset _))
        fun _ succeeded => Bool.noConfusion succeeded)
    · simp only [empty]
      exact ih (fun stage member => each stage (List.mem_cons_of_mem _ member)) found
        fun _ => by simpa using empty

namespace Parser

variable {p : Parser Run τ α}

theorem succeed_meets (value : α) : (succeed value : Parser Run τ α).Meets contract :=
  fun _ => .pure (.ofReadings (.here value) fun _ => List.cons_ne_nil _ _)

theorem map_meets (part : p.Meets contract) (f : α → β) : (map f p).Meets contract :=
  fun input => .bind (part input) fun _ meets => .pure (meets.map f)

theorem bind_meets {next : α → Parser Run τ β} (part : p.Meets contract)
    (continues : ∀ value, (next value).Meets contract) : (bind p next).Meets contract := by
  intro input
  refine .bind (part input) fun first meets => ?_
  by_cases failed : first.success = false
  · simp only [failed]
    exact .pure (meets.toFailure failed)
  · simp only [failed]
    refine .bind (Layer.advance_admits (fun reading => (continues _ reading.rest).mono
      fun _ found => found.toAdmits) _ meets.toAdmits) fun layer admits => .pure ?_
    exact .conclude admits fun _ succeeded => by simpa using succeeded

theorem bindAll_meets {nexts : List (α → Parser Run τ α)} (part : p.Meets contract)
    (continues : ∀ next ∈ nexts, ∀ value, (next value).Meets contract) :
    (bindAll p nexts).Meets contract := by
  intro input
  refine .bind (part input) fun first meets => ?_
  by_cases failed : first.success = false
  · simp only [failed]
    exact .pure meets
  · simp only [failed]
    refine Layer.through_meets (fun stage member reading => ?_) meets.toAdmits
      fun asked => meets.fruitful asked (by simpa using failed)
    obtain ⟨next, present, rfl⟩ := List.mem_map.mp member
    exact (continues next present _ reading.rest).mono fun _ found => found.toAdmits

theorem sequence_meets {ps : List (Parser Run τ α)} (parts : ∀ p ∈ ps, p.Meets contract) :
    (sequence ps).Meets contract := by
  intro input
  refine Layer.through_meets (fun stage member reading => ?_) (.here [])
    fun _ => List.cons_ne_nil _ _
  obtain ⟨p, present, rfl⟩ := List.mem_map.mp member
  exact (map_meets (parts p present) _ reading.rest).mono fun _ found => found.toAdmits

/-! ## Choices -/

theorem anyOfFrom_meets {ps : List (Parser Run τ α)} (parts : ∀ p ∈ ps, p.Meets contract)
    {success : Bool} {readings : List (Reading τ α)} {error : Option Diagnostic}
    (admits : contract.Admits input readings error)
    (nonempty : contract.fruitful → success = true → readings ≠ []) :
    (anyOfFrom input ps success readings error).Ensures (Outcome.Meets contract input) := by
  induction ps generalizing success readings error with
  | nil => exact .pure (.conclude admits nonempty)
  | cons p others ih =>
    have later := fun p member => parts p (List.mem_cons_of_mem _ member)
    refine .bind (parts p List.mem_cons_self input) fun outcome meets => ?_
    by_cases succeeded : outcome.success = true
    · simp only [succeeded]
      exact ih later (admits.join meets.toAdmits) fun asked _ =>
        List.append_ne_nil_of_right_ne_nil _ (meets.fruitful asked succeeded)
    · simp only [succeeded]
      exact ih later (admits.merge meets.toAdmits) nonempty

theorem firstOfFrom_meets {ps : List (Parser Run τ α)} (parts : ∀ p ∈ ps, p.Meets contract)
    {error : Option Diagnostic} (admits : contract.Admits input ([] : List (Reading τ α)) error) :
    (firstOfFrom input ps error).Ensures (Outcome.Meets contract input) := by
  induction ps generalizing error with
  | nil => exact .pure (.conclude admits fun _ succeeded => Bool.noConfusion succeeded)
  | cons p others ih =>
    refine .bind (parts p List.mem_cons_self input) fun outcome meets => ?_
    by_cases succeeded : outcome.success = true
    · simp only [succeeded]
      exact .pure
        { toAdmits := admits.join meets.toAdmits
          barren := meets.barren
          reason := fun failed => absurd (succeeded.symm.trans failed) Bool.noConfusion
          fruitful := meets.fruitful }
    · simp only [succeeded]
      exact ih (fun p member => parts p (List.mem_cons_of_mem _ member))
        (admits.merge meets.toAdmits)

theorem choice_meets (policy : Policy) {ps : List (Parser Run τ α)}
    (parts : ∀ p ∈ ps, p.Meets contract) : (choice policy ps).Meets contract := by
  intro input
  cases policy with
  | exhaustive => exact anyOfFrom_meets parts .none fun _ succeeded => Bool.noConfusion succeeded
  | ordered => exact firstOfFrom_meets parts .none

theorem first_meets (part : p.Meets contract) : (first p).Meets contract := by
  refine fun input => .bind (part input) fun outcome meets => .pure ?_
  exact
    { toAdmits := meets.toAdmits.sublist (List.take_subset 1 _)
      barren := fun failed => by rw [meets.barren failed, List.take_nil]
      reason := meets.reason
      fruitful := fun asked succeeded => by simpa using meets.fruitful asked succeeded }

/-! ## Repetitions -/

theorem round_admits (part : p.Meets contract) {layer : Layer τ (List α)}
    (admits : contract.Admits input layer.readings layer.error) :
    (Repetition.round p layer).Ensures fun next =>
      contract.Admits input next.readings next.error := by
  refine Layer.advance_admits (fun reading => ?_) _ admits
  refine .bind (part reading.rest) fun outcome meets => .pure ?_
  exact (meets.toAdmits.sublist (List.filter_subset_self _)).map _

/-- No layer that is explored is empty. -/
theorem layers_admit (part : p.Meets contract) (rounds : Nat) {layer : Layer τ (List α)}
    (admits : contract.Admits input layer.readings layer.error) (nonempty : layer.readings ≠ []) :
    (Repetition.layers p rounds layer).Ensures fun explored =>
      contract.Admits input explored.1.flatten explored.2 ∧
        explored.1 ≠ [] ∧ ∀ readings ∈ explored.1, readings ≠ [] := by
  induction rounds generalizing layer with
  | zero => exact .pure ⟨by simpa using admits, by simp, by simpa using nonempty⟩
  | succ rounds ih =>
    refine .bind (round_admits part admits) fun next found => ?_
    by_cases empty : next.readings.isEmpty = true
    · simp only [empty]
      exact .pure ⟨by simpa using (⟨admits.leaves, found.places⟩ : contract.Admits _ _ _),
        by simp, by simpa using nonempty⟩
    · simp only [empty]
      refine .bind (ih found (by simpa using empty)) fun explored later =>
        .pure ⟨⟨fun reading member => ?_, later.1.places⟩, List.cons_ne_nil _ _, ?_⟩
      · rw [List.flatten_cons] at member
        rcases List.mem_append.mp member with now | deeper
        · exact admits.leaves reading now
        · exact later.1.leaves reading deeper
      · intro readings member
        rcases List.mem_cons.mp member with rfl | deeper
        · exact nonempty
        · exact later.2.2 readings deeper

theorem exactly_meets (part : p.Meets contract) (count : Nat) {layer : Layer τ (List α)}
    (admits : contract.Admits input layer.readings layer.error) (nonempty : layer.readings ≠ []) :
    (Repetition.exactly p count layer).Ensures (Outcome.Meets contract input) := by
  induction count generalizing layer with
  | zero => exact .pure (.ofReadings admits fun _ => nonempty)
  | succ count ih =>
    refine .bind (round_admits part admits) fun next found => ?_
    by_cases empty : next.readings.isEmpty = true
    · simp only [empty]
      exact .pure (.conclude (found.sublist (List.nil_subset _))
        fun _ succeeded => Bool.noConfusion succeeded)
    · simp only [empty]
      exact ih found (by simpa using empty)

theorem repeated_meets (part : p.Meets contract) (extent : Extent) :
    (repeated extent p).Meets contract := by
  intro input
  have seeded : contract.Admits input (Repetition.seed input : Layer τ (List α)).readings none :=
    .here []
  have unempty : (Repetition.seed input : Layer τ (List α)).readings ≠ [] := List.cons_ne_nil _ _
  have explored := layers_admit part (input.remaining + 1) seeded unempty
  have someReading : ∀ {found : List (List (Reading τ (List α)))}, found ≠ [] →
      (∀ readings ∈ found, readings ≠ []) → found.flatten ≠ [] := by
    intro found present each empty
    obtain ⟨readings, member⟩ := List.exists_mem_of_ne_nil found present
    exact each readings member (List.flatten_eq_nil_iff.mp empty readings member)
  cases extent with
  | exactly count => exact exactly_meets part count seeded unempty
  | shortestFirst =>
    refine .bind explored fun result found => .pure ?_
    exact .ofReadings found.1 fun _ => someReading found.2.1 found.2.2
  | longestFirst =>
    refine .bind explored fun result found => .pure ?_
    refine .ofReadings (found.1.sublist fun reading => List.mem_reverse.mp) fun _ => ?_
    exact mt List.reverse_eq_nil_iff.mp (someReading found.2.1 found.2.2)
  | greedy =>
    refine .bind explored fun result found => .pure ?_
    have last : result.1.getLastD [] ∈ result.1 := by
      rw [List.getLastD_eq_getLast?, List.getLast?_eq_some_getLast found.2.1]
      exact List.getLast_mem found.2.1
    exact .ofReadings
      (found.1.sublist fun _ member => List.mem_flatten.mpr ⟨_, last, member⟩)
      fun _ => found.2.2 _ last

/-! ## Chains -/

theorem chainRight_meets (policy : Policy) {op : Parser Run τ (α → α → α)}
    (part : p.Meets contract) (operators : op.Meets contract) :
    (chainRight policy p op).Meets contract := by
  intro input
  generalize measured : input.remaining = remaining
  induction remaining using Nat.strongRecOn generalizing input with
  | ind remaining ih =>
    subst measured
    rw [chainRight]
    refine bind_meets part (fun left => choice_meets policy fun branch member => ?_) input
    rcases List.mem_cons.mp member with rfl | later
    · refine bind_meets operators fun apply rest => ?_
      by_cases shorter : rest.remaining < input.remaining
      · simp only [shorter, ↓reduceIte]
        exact .bind (ih _ shorter rest rfl) fun _ meets => .pure (meets.map (apply left))
      · simp only [shorter, ↓reduceIte]
        exact .abort
    · rw [List.mem_singleton.mp later]
      exact succeed_meets left

/-! ## Single tokens -/

theorem satisfy_meets [Token τ] (accepts : τ → Bool) (expected : String) :
    (satisfy accepts expected : Parser Run τ τ).Meets contract := by
  rintro ⟨tokens, offset⟩
  apply Run.Ensures.pure
  cases tokens with
  | nil => exact .failure (contract.places_here ⟨[], offset⟩)
  | cons token tokens =>
    simp only [Residual.peek?, List.head?_cons]
    by_cases accepted : accepts token = true
    · simp only [accepted, ↓reduceIte]
      refine .ofReadings ⟨fun reading member => ?_, fun _ missing => nomatch missing⟩
        fun _ => List.cons_ne_nil _ _
      obtain rfl := List.mem_singleton.mp member
      exact contract.leaves_advance ⟨token :: tokens, offset⟩
    · simp only [accepted]
      exact .failure (contract.places_here ⟨token :: tokens, offset⟩)

theorem fail_meets (message : String) : (fail message : Parser Run τ α).Meets contract :=
  fun input => .pure (.failure (contract.places_here input))

theorem endOfInput_meets [Token τ] : (endOfInput : Parser Run τ Unit).Meets contract := by
  rintro ⟨tokens, offset⟩
  apply Run.Ensures.pure
  cases tokens with
  | nil => exact .ofReadings (.here ()) fun _ => List.cons_ne_nil _ _
  | cons token tokens => exact .failure (contract.places_here ⟨token :: tokens, offset⟩)

/-! ## Parsers that change an outcome -/

theorem rephrase_placed {message : String} {error : Option Diagnostic}
    (placed : ∀ reason, error = some reason → contract.places input reason.position) :
    contract.places input (Diagnostic.rephrase message error).position := by
  cases error with
  | none => exact contract.places_unknown input
  | some reason =>
    rw [Diagnostic.rephrase]
    split
    · exact placed reason rfl
    · exact placed reason rfl

theorem reportAs_meets (part : p.Meets contract) (message : String) :
    (reportAs message p).Meets contract := by
  refine fun input => .bind (part input) fun outcome meets => ?_
  split
  · exact .pure meets
  · exact .pure (.failure (rephrase_placed meets.places))

theorem recover_meets (part : p.Meets contract) (message : String) (default : α) :
    (recover message default p).Meets contract := by
  refine fun input => .bind (part input) fun outcome meets => ?_
  split
  · exact .pure meets
  · refine .pure (.ofReadings ⟨(Contract.Admits.here default).leaves, fun reason present => ?_⟩
      fun _ => List.cons_ne_nil _ _)
    obtain rfl := Option.some.inj present
    exact rephrase_placed meets.places

theorem named_meets (part : p.Meets contract) (name : String) :
    (named name p).Meets contract := by
  refine fun input => .bind (part input) fun outcome meets => ?_
  split
  · exact .pure meets
  · apply Run.Ensures.pure
    apply Outcome.Meets.failure
    cases present : outcome.error with
    | none => exact contract.places_here input
    | some reason => exact meets.places reason present

/-- A group stops where its first member did. -/
theorem mem_addToGroup {reading : Reading τ α} {groups : List (Reading τ (List α))}
    {group : Reading τ (List α)} (member : group ∈ reading.addToGroup groups) :
    group.rest = reading.rest ∨ ∃ other ∈ groups, group.rest = other.rest := by
  induction groups with
  | nil =>
    obtain rfl := List.mem_singleton.mp member
    exact .inl rfl
  | cons other groups ih =>
    rw [Reading.addToGroup] at member
    split at member
    · rcases List.mem_cons.mp member with rfl | later
      · exact .inr ⟨other, List.mem_cons_self, rfl⟩
      · exact .inr ⟨group, List.mem_cons_of_mem _ later, rfl⟩
    · rcases List.mem_cons.mp member with rfl | later
      · exact .inr ⟨group, List.mem_cons_self, rfl⟩
      · rcases ih later with same | ⟨known, present, same⟩
        · exact .inl same
        · exact .inr ⟨known, List.mem_cons_of_mem _ present, same⟩

theorem addToGroup_ne_nil (reading : Reading τ α) (groups : List (Reading τ (List α))) :
    reading.addToGroup groups ≠ [] := by
  cases groups with
  | nil => exact List.cons_ne_nil _ _
  | cons other groups =>
    rw [Reading.addToGroup]
    split <;> exact List.cons_ne_nil _ _

theorem mem_group {readings : List (Reading τ α)} {group : Reading τ (List α)}
    (member : group ∈ Reading.group readings) :
    ∃ reading ∈ readings, group.rest = reading.rest := by
  induction readings using List.reverseRecOn generalizing group with
  | nil => exact absurd member List.not_mem_nil
  | append_singleton readings reading ih =>
    rw [Reading.group, List.foldl_append] at member
    rcases mem_addToGroup member with same | ⟨known, present, same⟩
    · exact ⟨reading, List.mem_append_right _ List.mem_cons_self, same⟩
    · obtain ⟨other, among, same'⟩ := ih present
      exact ⟨other, List.mem_append_left _ among, same.trans same'⟩

theorem group_ne_nil {readings : List (Reading τ α)} (nonempty : readings ≠ []) :
    Reading.group readings ≠ [] := by
  induction readings using List.reverseRecOn with
  | nil => exact absurd rfl nonempty
  | append_singleton readings reading ih =>
    rw [Reading.group, List.foldl_append]
    exact addToGroup_ne_nil _ _

theorem gather_meets (part : p.Meets contract) : (gather p).Meets contract := by
  refine fun input => .bind (part input) fun outcome meets => ?_
  by_cases failed : outcome.success = false
  · simp only [failed]
    exact .pure (meets.toFailure failed)
  · simp only [failed]
    refine .pure (.ofReadings (meets.toAdmits.subset fun group => mem_group) fun asked => ?_)
    exact group_ne_nil (meets.fruitful asked (by simpa using failed))

theorem lookAhead_meets (part : p.Meets contract) : (lookAhead p).Meets contract := by
  refine fun input => .bind (part input) fun outcome meets => ?_
  by_cases failed : outcome.success = false
  · simp only [failed]
    exact .pure (meets.toFailure failed)
  · simp only [failed]
    exact .pure (.ofReadings ⟨(Contract.Admits.here outcome.values).leaves, meets.places⟩
      fun _ => List.cons_ne_nil _ _)

theorem unexpectedMatch_position [Token τ] (input : Residual τ) :
    (unexpectedMatch input).position = input.position := by
  rw [unexpectedMatch]
  split <;> rfl

theorem notAhead_meets [Token τ] (part : p.Meets contract) : (notAhead p).Meets contract := by
  refine fun input => .bind (part input) fun outcome _ => ?_
  split
  · apply Run.Ensures.pure
    apply Outcome.Meets.failure
    rw [unexpectedMatch_position]
    exact contract.places_here input
  · exact .pure (.ofReadings (.here ()) fun _ => List.cons_ne_nil _ _)

/-! ## Parsers that act on the machine -/

theorem act_ensures {A B : Type} (action : Run A) {next : A → Run B} {property : B → Prop}
    (continues : ∀ value, (next value).Ensures property) : (action >>= next).Ensures property :=
  .bind (fun _ _ _ _ => trivial) fun value (_ : True) => continues value

theorem traced_meets {θ : Type} [Observes θ Run] (tracer : θ) (name : String)
    (part : p.Meets contract) : (traced tracer name p).Meets contract :=
  fun input => act_ensures _ fun _ => .bind (part input) fun _ meets =>
    act_ensures _ fun _ => .pure meets

theorem withDepth_meets {θ : Type} [Observes θ Run] (tracer : θ) (part : p.Meets contract) :
    (withDepth tracer p).Meets contract :=
  fun input => .bind (part input) fun _ meets => act_ensures _ fun _ => .pure (meets.map _)

theorem deferred_meets (cell : Nat) (part : p.Meets contract) :
    (deferred cell p).Meets contract :=
  fun input => act_ensures _ fun _ => part input

end Parser

/-! ## Grammars -/

section Grammars

variable {N : Names} [Observes N.Tracer Run] [Token τ]

/-- Whatever a grammar is put together from, it meets a contract that its custom parts and its
rules meet. -/
theorem Grammar.interpret_meets {call : (rule : N.Rule) → Parser Run τ (N.Result rule)}
    (called : ∀ rule, (call rule).Meets contract) (g : Grammar N τ α)
    (customs : g.Customs fun run => ∀ input, (run input).Meets contract input) :
    (g.interpret call).Meets contract := by
  induction g with
  | satisfy accepts expected => exact Parser.satisfy_meets accepts expected
  | succeed value => exact Parser.succeed_meets value
  | fail message => exact Parser.fail_meets message
  | endOfInput => exact Parser.endOfInput_meets
  | custom run => exact fun input => .pure (customs input)
  | map f p ih => exact Parser.map_meets (ih customs) f
  | sequence ps ih =>
    refine Parser.sequence_meets fun p member => ?_
    obtain ⟨i, rfl⟩ := List.mem_ofFn.mp member
    exact ih i (customs i)
  | bind p held next ih ihNext =>
    exact Parser.bind_meets (ih customs.1) fun value => ihNext value (customs.2 value)
  | bindAll p held nexts ih ihNexts =>
    refine Parser.bindAll_meets (ih customs.1) fun next member value => ?_
    obtain ⟨i, rfl⟩ := List.mem_ofFn.mp member
    exact ihNexts i value (customs.2 i value)
  | choice policy ps ih =>
    refine Parser.choice_meets policy fun p member => ?_
    obtain ⟨i, rfl⟩ := List.mem_ofFn.mp member
    exact ih i (customs i)
  | first p ih => exact Parser.first_meets (ih customs)
  | repeated extent p ih => exact Parser.repeated_meets (ih customs) extent
  | chainRight policy p op ih ihOp =>
    exact Parser.chainRight_meets policy (ih customs.1) (ihOp customs.2)
  | gather p ih => exact Parser.gather_meets (ih customs)
  | reportAs message p ih => exact Parser.reportAs_meets (ih customs) message
  | recover message default p ih => exact Parser.recover_meets (ih customs) message default
  | named name p ih => exact Parser.named_meets (ih customs) name
  | lookAhead p ih => exact Parser.lookAhead_meets (ih customs)
  | notAhead p ih => exact Parser.notAhead_meets (ih customs)
  | traced tracer name p ih => exact Parser.traced_meets tracer name (ih customs)
  | withDepth tracer p ih => exact Parser.withDepth_meets tracer (ih customs)
  | deferred cell p ih => exact Parser.deferred_meets cell (ih customs)
  | rule r => exact called r

/-- Rules meet a contract that the custom parts of their patterns meet, under every limit on rule
calls. -/
theorem Rules.call_meets {rules : Rules N τ}
    (customs : rules.Customs fun run => ∀ input, (run input).Meets contract input) (limit : Nat)
    (rule : N.Rule) : Parser.Meets contract (rules.call limit rule) := by
  induction limit generalizing rule with
  | zero => exact fun input => .abort
  | succ limit ih =>
    intro input
    rw [Rules.call]
    cases found : rules rule with
    | error fault => exact .abort
    | ok pattern => exact Grammar.interpret_meets ih pattern (customs rule pattern found) input

end Grammars

end Multiparse
