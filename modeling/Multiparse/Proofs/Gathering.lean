import Multiparse.Proofs.Contract

/-!
# Readings gathered by where they stop

Gathering parts the readings of an outcome into groups: one for each place where a reading stops, in
the order in which the places are first reached, with the values that were read up to the place in
their order. Nothing is lost and nothing is counted twice (`gather_partitions`).
-/

namespace Multiparse

variable {τ α : Type}

/-! ## Rests of the same tokens -/

namespace Residual

variable {origin left right : Residual τ}

theorem sameAs_self (rest : Residual τ) : rest.sameAs rest = true := by simp [sameAs]

theorem sameAs_comm (left right : Residual τ) : left.sameAs right = right.sameAs left := by
  rw [sameAs, sameAs, Bool.and_comm, BEq.comm]

/-- Among the rests of the same tokens only a rest itself begins where it does. -/
theorem LeadsTo.sameAs_iff (toLeft : origin.LeadsTo left) (toRight : origin.LeadsTo right) :
    left.sameAs right = true ↔ left = right := by
  refine ⟨fun same => toLeft.eq_of_offset_eq toRight ?_, fun same => same ▸ sameAs_self left⟩
  have total := toLeft.total_eq.trans toRight.total_eq.symm
  simp only [sameAs, isEmpty, Bool.or_eq_true, beq_iff_eq, Bool.and_eq_true,
    List.isEmpty_iff_length_eq_zero] at same
  simp only [remaining] at total
  omega

end Residual

/-! ## First appearances -/

section FirstAppearances

variable {A : Type} {r : A → A → Bool}

theorem eraseDupsBy_concat (items : List A) (item : A) :
    (items ++ [item]).eraseDupsBy r =
      items.eraseDupsBy r ++ if (items.eraseDupsBy r).any (r item) then [] else [item] := by
  have shifted : ∀ kept : List A, List.eraseDupsBy.loop r (items ++ [item]) kept =
      List.eraseDupsBy.loop r items kept ++
        if (List.eraseDupsBy.loop r items kept).any (r item) then [] else [item] := by
    induction items with
    | nil =>
      intro kept
      cases known : kept.any (r item) <;> simp [List.eraseDupsBy.loop, known]
    | cons other items ih =>
      intro kept
      rw [List.cons_append, List.eraseDupsBy.loop, List.eraseDupsBy.loop]
      split
      · exact ih kept
      · exact ih (other :: kept)
  exact shifted []

theorem pairwise_eraseDupsBy (items : List A) :
    (items.eraseDupsBy r).Pairwise fun earlier later => r later earlier = false := by
  induction items using List.reverseRecOn with
  | nil => exact List.Pairwise.nil
  | append_singleton items item ih =>
    rw [eraseDupsBy_concat]
    split
    · rwa [List.append_nil]
    next fresh =>
      refine List.pairwise_append.mpr ⟨ih, List.pairwise_singleton _ _, ?_⟩
      intro earlier member later only
      rw [List.mem_singleton.mp only]
      simpa using List.any_eq_false.mp (Bool.eq_false_of_not_eq_true fresh) earlier member

theorem any_eraseDupsBy (reflexive : ∀ item, r item item = true) {items : List A} {item : A}
    (member : item ∈ items) : (items.eraseDupsBy r).any (r item) = true := by
  induction items using List.reverseRecOn with
  | nil => cases member
  | append_singleton items other ih =>
    rw [eraseDupsBy_concat, List.any_append, Bool.or_eq_true]
    rcases List.mem_append.mp member with earlier | last
    · exact .inl (ih earlier)
    · obtain rfl := List.mem_singleton.mp last
      split
      next known => exact .inl known
      next => exact .inr (by simp [reflexive])

end FirstAppearances

namespace Reading

/-- The values of the readings that stop at a place. -/
def valuesAt (readings : List (Reading τ α)) (place : Residual τ) : List α :=
  (readings.filter fun reading => reading.rest.sameAs place).map value

/-- The readings that a group stands for. -/
def members (group : Reading τ (List α)) : List (Reading τ α) :=
  group.value.map fun value => ⟨value, group.rest⟩

/-! ## One reading more -/

variable {readings : List (Reading τ α)} {groups : List (Reading τ (List α))}

/-- A reading finds no group and starts one at the end, or it comes last in the first group that
stops where it does. -/
theorem addToGroup_cases (reading : Reading τ α) (groups : List (Reading τ (List α))) :
    (∀ group ∈ groups, group.rest.sameAs reading.rest = false) ∧
      reading.addToGroup groups = groups ++ [⟨[reading.value], reading.rest⟩] ∨
    ∃ before group after, groups = before ++ group :: after ∧
      (∀ other ∈ before, other.rest.sameAs reading.rest = false) ∧
      group.rest.sameAs reading.rest = true ∧
      reading.addToGroup groups =
        before ++ ⟨group.value ++ [reading.value], group.rest⟩ :: after := by
  induction groups with
  | nil => exact .inl ⟨fun _ member => absurd member List.not_mem_nil, rfl⟩
  | cons first groups ih =>
    cases found : first.rest.sameAs reading.rest with
    | true =>
      refine .inr ⟨[], first, groups, rfl, fun _ member => absurd member List.not_mem_nil, found,
        ?_⟩
      rw [addToGroup, if_pos found, List.nil_append]
    | false =>
      have passed : reading.addToGroup (first :: groups) = first :: reading.addToGroup groups := by
        rw [addToGroup, if_neg (by simp [found])]
      rw [passed]
      rcases ih with ⟨apart, added⟩ | ⟨before, group, after, rfl, apart, same, added⟩
      · exact .inl ⟨List.forall_mem_cons.mpr ⟨found, apart⟩, congrArg (first :: ·) added⟩
      · exact .inr ⟨first :: before, group, after, rfl, List.forall_mem_cons.mpr ⟨found, apart⟩,
          same, congrArg (first :: ·) added⟩

theorem group_concat (readings : List (Reading τ α)) (reading : Reading τ α) :
    group (readings ++ [reading]) = reading.addToGroup (group readings) := by
  rw [group, List.foldl_append]
  rfl

/-! ## All readings -/

theorem map_rest_addToGroup (reading : Reading τ α) (groups : List (Reading τ (List α))) :
    (reading.addToGroup groups).map rest =
      groups.map rest ++
        if (groups.map rest).any reading.rest.sameAs then [] else [reading.rest] := by
  rcases reading.addToGroup_cases groups with
    ⟨apart, added⟩ | ⟨before, group, after, rfl, -, same, added⟩
  · have missing : (groups.map rest).any reading.rest.sameAs = false := by
      simpa [Residual.sameAs_comm reading.rest] using apart
    rw [added, missing, List.map_append]
    rfl
  · have found : ((before ++ group :: after).map rest).any reading.rest.sameAs = true := by
      simp [Residual.sameAs_comm reading.rest, same]
    rw [added, found, if_pos rfl, List.append_nil, List.map_append, List.map_append]
    rfl

/-- The groups stop at the places where the readings stop, in order of first appearance. -/
theorem map_rest_group (readings : List (Reading τ α)) :
    (group readings).map rest = (readings.map rest).eraseDupsBy Residual.sameAs := by
  induction readings using List.reverseRecOn with
  | nil => rfl
  | append_singleton readings reading ih =>
    rw [group_concat, map_rest_addToGroup, ih, List.map_append, List.map_singleton,
      eraseDupsBy_concat]

/-- No two groups stop at the same place. -/
theorem group_apart (readings : List (Reading τ α)) :
    (group readings).Pairwise fun first second => first.rest.sameAs second.rest = false := by
  have apart := pairwise_eraseDupsBy (r := Residual.sameAs) (readings.map rest)
  rw [← map_rest_group, List.pairwise_map] at apart
  exact apart.imp fun different => by rwa [Residual.sameAs_comm]

/-- Each reading has a group. -/
theorem exists_group {reading : Reading τ α} (member : reading ∈ readings) :
    ∃ its ∈ group readings, reading.rest.sameAs its.rest = true := by
  have found := any_eraseDupsBy Residual.sameAs_self (List.mem_map_of_mem (f := rest) member)
  rw [← map_rest_group, List.any_map] at found
  exact List.any_eq_true.mp found

section SameTokens

variable {origin : Residual τ}

theorem leadsTo_of_mem_group (inside : ∀ reading ∈ readings, origin.LeadsTo reading.rest)
    {group : Reading τ (List α)} (member : group ∈ Reading.group readings) :
    origin.LeadsTo group.rest := by
  obtain ⟨reading, present, same⟩ := Parser.mem_group member
  exact same ▸ inside reading present

/-- One reading more opens a group at the end, or it comes last in the only group at its place. -/
theorem group_concat_cases {reading : Reading τ α}
    (inside : ∀ other ∈ readings ++ [reading], origin.LeadsTo other.rest) :
    (∀ other ∈ group readings, other.rest.sameAs reading.rest = false) ∧
      group (readings ++ [reading]) = group readings ++ [⟨[reading.value], reading.rest⟩] ∨
    ∃ before found after, group readings = before ++ found :: after ∧
      found.rest = reading.rest ∧
      (∀ other ∈ before ++ after, other.rest.sameAs reading.rest = false) ∧
      group (readings ++ [reading]) =
        before ++ ⟨found.value ++ [reading.value], reading.rest⟩ :: after := by
  obtain ⟨earlier, here⟩ := List.forall_mem_append.mp inside
  rw [group_concat]
  rcases reading.addToGroup_cases (group readings) with
    opened | ⟨before, found, after, split, apart, same, added⟩
  · exact .inl opened
  · have among : found ∈ group readings := by
      rw [split]
      exact List.mem_append_right _ List.mem_cons_self
    have place : found.rest = reading.rest :=
      ((leadsTo_of_mem_group earlier among).sameAs_iff (here reading List.mem_cons_self)).mp same
    have different := group_apart readings
    rw [split, List.pairwise_append, List.pairwise_cons, place] at different
    refine .inr ⟨before, found, after, split, place, List.forall_mem_append.mpr ⟨apart, ?_⟩, ?_⟩
    · intro other behind
      rw [Residual.sameAs_comm]
      exact different.2.1.1 other behind
    · rw [added, place]

theorem valuesAt_concat (reading : Reading τ α) (place : Residual τ) :
    valuesAt (readings ++ [reading]) place =
      valuesAt readings place ++ if reading.rest.sameAs place then [reading.value] else [] := by
  rw [valuesAt, List.filter_append, List.map_append]
  cases found : reading.rest.sameAs place <;> simp [valuesAt, found]

/-- At a place without a group nothing was read. -/
theorem valuesAt_eq_nil (inside : ∀ other ∈ readings, origin.LeadsTo other.rest)
    {place : Residual τ} (leads : origin.LeadsTo place)
    (apart : ∀ other ∈ group readings, other.rest.sameAs place = false) :
    valuesAt readings place = [] := by
  rw [valuesAt, List.map_eq_nil_iff, List.filter_eq_nil_iff]
  intro other present meets
  obtain ⟨its, among, own⟩ := exists_group present
  rw [((inside other present).sameAs_iff leads).mp meets, Residual.sameAs_comm,
    apart its among] at own
  cases own

/-- The values of a group are those of the readings that stop where it does, in their order. -/
theorem value_of_mem_group (inside : ∀ reading ∈ readings, origin.LeadsTo reading.rest)
    {its : Reading τ (List α)} (member : its ∈ group readings) :
    its.value = valuesAt readings its.rest := by
  induction readings using List.reverseRecOn generalizing its with
  | nil => cases member
  | append_singleton readings reading ih =>
    obtain ⟨earlier, here⟩ := List.forall_mem_append.mp inside
    have elsewhere : ∀ other ∈ group readings, other.rest.sameAs reading.rest = false →
        other.value = valuesAt (readings ++ [reading]) other.rest := by
      intro other among different
      rw [valuesAt_concat, Residual.sameAs_comm, different, ih earlier among]
      exact (List.append_nil _).symm
    rcases group_concat_cases inside with
      ⟨apart, added⟩ | ⟨before, found, after, split, place, apart, added⟩
    · rw [added] at member
      rcases List.mem_append.mp member with among | last
      · exact elsewhere its among (apart its among)
      · rw [List.mem_singleton.mp last, valuesAt_concat, Residual.sameAs_self,
          valuesAt_eq_nil earlier (here reading List.mem_cons_self) apart]
        rfl
    · have kept : ∀ other ∈ before ++ after,
          other.value = valuesAt (readings ++ [reading]) other.rest := by
        intro other outside
        refine elsewhere other ?_ (apart other outside)
        rw [split]
        exact (List.Sublist.append_left (List.sublist_cons_self found after) before).subset outside
      rw [added] at member
      rcases List.mem_append.mp member with front | back
      · exact kept its (List.mem_append_left _ front)
      · rcases List.mem_cons.mp back with itself | behind
        · have among : found ∈ group readings := by
            rw [split]
            exact List.mem_append_right _ List.mem_cons_self
          rw [itself, valuesAt_concat, Residual.sameAs_self, ih earlier among, place]
          rfl
        · exact kept its (List.mem_append_right _ behind)

/-- Together the groups stand for all readings, each as often as it occurs. -/
theorem members_group_perm (inside : ∀ reading ∈ readings, origin.LeadsTo reading.rest) :
    ((group readings).flatMap members).Perm readings := by
  induction readings using List.reverseRecOn with
  | nil => exact List.Perm.nil
  | append_singleton readings reading ih =>
    refine List.Perm.trans ?_ ((ih (List.forall_mem_append.mp inside).1).append_right [reading])
    rcases group_concat_cases inside with
      ⟨-, added⟩ | ⟨before, found, after, split, place, -, added⟩
    · rw [added, List.flatMap_append, List.flatMap_singleton]
      exact List.Perm.refl _
    · have extended : members ⟨found.value ++ [reading.value], reading.rest⟩ =
          members found ++ [reading] := by
        rw [members, List.map_append, List.map_singleton, members, place]
      rw [added, split, List.flatMap_append, List.flatMap_cons, List.flatMap_append,
        List.flatMap_cons, extended, List.append_assoc, List.append_assoc, List.append_assoc]
      exact (List.Perm.append_left _ List.perm_append_comm).append_left _

end SameTokens

end Reading

/-- What gathering makes of an outcome. -/
def Outcome.gathered (outcome : Outcome τ α) : Outcome τ (List α) :=
  if outcome.success then .ofReadings (Reading.group outcome.readings) outcome.error
  else outcome.toFailure

theorem Parser.gather_eq_map {m : Type → Type} [Monad m] [LawfulMonad m] (p : Parser m τ α)
    (input : Residual τ) : gather p input = Outcome.gathered <$> p input := by
  rw [gather, map_eq_pure_bind]
  apply bind_congr
  intro outcome
  cases succeeded : outcome.success <;> simp [Outcome.gathered, succeeded]

/-- **Gathering parts the readings by where they stop.** Gathering runs the parser and changes what
it returns, whatever else the run does. A failure stays one, for the same reason. Let a success have
readings of the same tokens. Gathering keeps its diagnostic; no two groups stop at the same place,
and the groups stop at the places of the readings in order of first appearance. The values of a
group are those of the readings that stop at its place, in their order and with all repetitions. So
together the groups stand for the readings, and there are as many values as readings. -/
theorem gather_partitions {m : Type → Type} [Monad m] [LawfulMonad m] (p : Parser m τ α)
    (input : Residual τ) :
    Parser.gather p input = Outcome.gathered <$> p input ∧
    (∀ outcome : Outcome τ α, outcome.success = false →
      outcome.gathered = ⟨false, [], outcome.error⟩) ∧
    ∀ (tokens : List τ) (outcome : Outcome τ α), outcome.success = true →
      (∀ reading ∈ outcome.readings, (Residual.start tokens).LeadsTo reading.rest) →
        ∃ groups, outcome.gathered = .ofReadings groups outcome.error ∧
          groups.Pairwise (fun first second => first.rest.sameAs second.rest = false) ∧
          groups.map Reading.rest =
            (outcome.readings.map Reading.rest).eraseDupsBy Residual.sameAs ∧
          (∀ group ∈ groups, group.value =
            (outcome.readings.filter fun reading =>
              reading.rest.sameAs group.rest).map Reading.value) ∧
          (groups.flatMap fun group =>
            group.value.map fun value => ⟨value, group.rest⟩).Perm outcome.readings ∧
          (groups.flatMap Reading.value).length = outcome.readings.length := by
  refine ⟨Parser.gather_eq_map p input, fun outcome failed => ?fails,
    fun tokens outcome succeeded inside => ?parts⟩
  case fails =>
    rw [Outcome.gathered, if_neg (by simp [failed])]
    rfl
  case parts =>
    have whole := Reading.members_group_perm inside
    refine ⟨Reading.group outcome.readings, if_pos succeeded, Reading.group_apart _,
      Reading.map_rest_group _, fun group member => Reading.value_of_mem_group inside member, whole,
      ?_⟩
    rw [← whole.length_eq, List.length_flatMap, List.length_flatMap]
    simp only [Reading.members, List.length_map]

section Paths

/-- Two steps. -/
def twoSteps : List Unit := [(), ()]

/-- Several ways to go, some of which end at the same place. -/
def paths : Parser (Except Fault) Unit Nat := .ofFunction fun input =>
  .ofReadings [⟨1, input.advance⟩, ⟨2, input.advanceBy 2⟩, ⟨3, input.advance⟩, ⟨4, input⟩,
    ⟨2, input.advanceBy 3⟩] (some (.exhausted "step"))

/-- The ways are gathered in three groups; a step that is missed stays missed. -/
theorem gather_partitions_paths :
    (∃ outcome groups, paths (.start twoSteps) = .ok outcome ∧
      (∀ reading ∈ outcome.readings, (Residual.start twoSteps).LeadsTo reading.rest) ∧
      Parser.gather paths (.start twoSteps) = .ok (.ofReadings groups outcome.error) ∧
      groups.Pairwise (fun first second => first.rest.sameAs second.rest = false) ∧
      groups.map Reading.value = [[1, 3], [2, 2], [4]] ∧
      (groups.flatMap Reading.value).length = 5) ∧
    Parser.gather (.fail "no way" : Parser (Except Fault) Unit Nat) (.start twoSteps) =
      .ok ⟨false, [], some ((Diagnostic.ofMessage "no way").moveTo (.token 0))⟩ := by
  obtain ⟨ran, -, parts⟩ := gather_partitions paths (.start twoSteps)
  obtain ⟨missed, fails, -⟩ :=
    gather_partitions (.fail "no way" : Parser (Except Fault) Unit Nat) (.start twoSteps)
  constructor
  · let outcome : Outcome Unit Nat :=
      .ofReadings [⟨1, ⟨[()], 1⟩⟩, ⟨2, ⟨[], 2⟩⟩, ⟨3, ⟨[()], 1⟩⟩, ⟨4, ⟨[(), ()], 0⟩⟩, ⟨2, ⟨[], 2⟩⟩]
        (some (.exhausted "step"))
    have inside : ∀ reading ∈ outcome.readings, (Residual.start twoSteps).LeadsTo reading.rest := by
      intro reading member
      simp only [outcome, Outcome.ofReadings, List.mem_cons, List.not_mem_nil, or_false] at member
      rcases member with rfl | rfl | rfl | rfl | rfl
      · exact ⟨1, rfl⟩
      · exact ⟨2, rfl⟩
      · exact ⟨1, rfl⟩
      · exact ⟨0, rfl⟩
      · exact ⟨2, rfl⟩
    obtain ⟨groups, gathered, apart, -, -, -, count⟩ := parts twoSteps outcome rfl inside
    have values : groups.map Reading.value = [[1, 3], [2, 2], [4]] := by
      cases gathered
      rfl
    refine ⟨outcome, groups, rfl, inside, ?_, apart, values, count⟩
    rw [ran, ← gathered]
    rfl
  · have lost := fails (.failure ((Diagnostic.ofMessage "no way").moveTo (.token 0))) rfl
    exact missed.trans (congrArg Except.ok lost)

end Paths

end Multiparse
