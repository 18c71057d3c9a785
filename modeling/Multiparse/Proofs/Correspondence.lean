import Multiparse.Proofs.WellFormed

/-!
# Parsers that correspond

Parsers that run in two monads, or twice in the same one, are compared by their outcomes: those must
agree on everything but the words of their diagnostics, and on the words too where that is asked for
(`Outcome.Alike`). What a comparison of runs has to provide is collected in `Comparison`. Given that,
parsers correspond if they are put together in the same way from parts that correspond.
-/

namespace Multiparse

/-- A way to compare runs in two monads by what they return. -/
structure Comparison (m n : Type → Type) [Monad m] [Monad n] [Aborts m] [Aborts n] where
  /-- Whatever the runs return is related. -/
  Holds : {A B : Type} → (A → B → Prop) → m A → n B → Prop
  pure : ∀ {A B : Type} {related : A → B → Prop} {value : A} {value' : B},
    related value value' → Holds related (pure value) (pure value')
  bind : ∀ {A A' B B' : Type} {related : A → A' → Prop} {related' : B → B' → Prop} {run : m A}
    {run' : n A'} {next : A → m B} {next' : A' → n B'}, Holds related run run' →
    (∀ value value', related value value' → Holds related' (next value) (next' value')) →
      Holds related' (run >>= next) (run' >>= next')
  abort : ∀ {A B : Type} {related : A → B → Prop} (fault : Fault),
    Holds related (Aborts.abort fault) (Aborts.abort fault)

variable {τ α β : Type} {exact : Prop}

/-! ## Outcomes that are alike -/

/-- The diagnostics lie at the same place, and are the same if they have to be. -/
structure Diagnostic.Alike (exact : Prop) (error error' : Option Diagnostic) : Prop where
  place : depth error = depth error'
  same : exact → error = error'

namespace Diagnostic.Alike

variable {error error' more more' : Option Diagnostic}

theorem refl (error : Option Diagnostic) : Alike exact error error := ⟨rfl, fun _ => rfl⟩

theorem ofSome {reason reason' : Diagnostic} (place : reason.position = reason'.position)
    (same : exact → reason = reason') : Alike exact (some reason) (some reason') := by
  refine ⟨?_, fun asked => congrArg some (same asked)⟩
  rw [depth_some, depth_some, place]

theorem farthest (alike : Alike exact error error') (alike' : Alike exact more more') :
    Alike exact (farthest error more) (farthest error' more') := by
  constructor
  · rw [depth_farthest, depth_farthest, alike.place, alike'.place]
  · intro asked
    rw [alike.same asked, alike'.same asked]

theorem isSome (alike : Alike exact error error') : error.isSome = error'.isSome := by
  have place := congrArg Option.isSome alike.place
  simpa [depth] using place

/-- A reason that is made up is the same on both sides. -/
theorem getD (alike : Alike exact error error') :
    Alike exact (some (error.getD .noAlternative)) (some (error'.getD .noAlternative)) := by
  cases error with
  | none =>
    obtain rfl : error' = none := by simpa using alike.isSome
    exact refl _
  | some reason =>
    cases error' with
    | none => exact absurd alike.isSome Bool.noConfusion
    | some reason' => exact alike

end Diagnostic.Alike

/-- The outcomes are the same up to the words of their diagnostics, or altogether if they have to
be; and a failure has no readings and gives a reason. -/
structure Outcome.Alike (exact : Prop) (outcome outcome' : Outcome τ α) : Prop where
  success : outcome.success = outcome'.success
  readings : outcome.readings = outcome'.readings
  error : Diagnostic.Alike exact outcome.error outcome'.error
  wellFormed : outcome.WellFormed

/-- The layers are the same up to the words of their diagnostics. -/
structure Layer.Alike (exact : Prop) (layer layer' : Layer τ α) : Prop where
  readings : layer.readings = layer'.readings
  error : Diagnostic.Alike exact layer.error layer'.error

namespace Outcome.Alike

variable {readings : List (Reading τ α)} {error error' : Option Diagnostic}

theorem ofReadings (errors : Diagnostic.Alike exact error error') :
    (Outcome.ofReadings readings error).Alike exact (.ofReadings readings error') :=
  ⟨rfl, rfl, errors, ⟨Bool.noConfusion, Bool.noConfusion⟩⟩

theorem failure {reason reason' : Diagnostic}
    (errors : Diagnostic.Alike exact (some reason) (some reason')) :
    (Outcome.failure reason : Outcome τ α).Alike exact (.failure reason') :=
  ⟨rfl, rfl, errors, ⟨fun _ => rfl, fun _ => rfl⟩⟩

theorem conclude (success : Bool) (errors : Diagnostic.Alike exact error error') :
    (Outcome.conclude success readings error).Alike exact (.conclude success readings error') := by
  cases success with
  | true => exact ofReadings errors
  | false => exact failure errors.getD

theorem map {outcome outcome' : Outcome τ α} (alike : outcome.Alike exact outcome') (f : α → β) :
    (outcome.map f).Alike exact (outcome'.map f) where
  success := alike.success
  readings := congrArg (List.map (Reading.map f)) alike.readings
  error := alike.error
  wellFormed := ⟨fun failed => List.map_eq_nil_iff.mpr (alike.wellFormed.barren failed),
    alike.wellFormed.reason⟩

theorem eq_of_exact {outcome outcome' : Outcome τ α} (alike : outcome.Alike True outcome') :
    outcome = outcome' := by
  cases outcome
  cases outcome'
  cases alike.success
  cases alike.readings
  cases alike.error.same trivial
  rfl

end Outcome.Alike

theorem Layer.Alike.conclude {layer layer' : Layer τ α} (alike : layer.Alike exact layer') :
    layer.conclude.Alike exact layer'.conclude := by
  rw [Layer.conclude, Layer.conclude, ← alike.readings]
  exact .conclude _ alike.error

/-! ## Runs that are compared -/

variable {m n : Type → Type} [Monad m] [Monad n] [Aborts m] [Aborts n]
  {comparison : Comparison m n}

/-- The outcomes of the parsers are alike on every input. -/
def Parser.Corresponds (comparison : Comparison m n) (exact : Prop) (p : Parser m τ α)
    (q : Parser n τ α) : Prop :=
  ∀ input, comparison.Holds (Outcome.Alike exact) (p input) (q input)

/-- Runs go on after outcomes that differ in their diagnostics only. -/
theorem Comparison.bind_alike {B B' : Type} {related : B → B' → Prop} {run : m (Outcome τ α)}
    {run' : n (Outcome τ α)} {next : Outcome τ α → m B} {next' : Outcome τ α → n B'}
    (first : comparison.Holds (Outcome.Alike exact) run run')
    (continues : ∀ success readings error error', Diagnostic.Alike exact error error' →
      Outcome.WellFormed ⟨success, readings, error⟩ →
        comparison.Holds related (next ⟨success, readings, error⟩)
          (next' ⟨success, readings, error'⟩)) :
    comparison.Holds related (run >>= next) (run' >>= next') := by
  apply comparison.bind first
  intro outcome outcome' alike
  obtain ⟨success, readings, error⟩ := outcome
  obtain ⟨success', readings', error'⟩ := outcome'
  obtain rfl : success = success' := alike.success
  obtain rfl : readings = readings' := alike.readings
  exact continues success readings error error' alike.error alike.wellFormed

/-! ## Sequences -/

theorem Layer.advance_corresponds {stage : Reading τ α → m (Outcome τ β)}
    {stage' : Reading τ α → n (Outcome τ β)}
    (stages : ∀ reading, comparison.Holds (Outcome.Alike exact) (stage reading) (stage' reading))
    (readings : List (Reading τ α)) {error error' : Option Diagnostic}
    (errors : Diagnostic.Alike exact error error') :
    comparison.Holds (Layer.Alike exact) (Layer.advance stage readings error)
      (Layer.advance stage' readings error') := by
  induction readings generalizing error error' with
  | nil => exact comparison.pure ⟨rfl, errors⟩
  | cons reading others ih =>
    apply comparison.bind (stages reading)
    intro outcome outcome' alike
    apply comparison.bind (ih (errors.farthest alike.error))
    intro layer layer' later
    apply comparison.pure
    exact ⟨congrArg₂ List.append alike.readings later.readings, later.error⟩

theorem Layer.through_corresponds {stages : List (Reading τ α → m (Outcome τ α))}
    {stages' : List (Reading τ α → n (Outcome τ α))}
    (each : List.Forall₂ (fun stage stage' => ∀ reading,
      comparison.Holds (Outcome.Alike exact) (stage reading) (stage' reading)) stages stages')
    {layer layer' : Layer τ α} (alike : layer.Alike exact layer') :
    comparison.Holds (Outcome.Alike exact) (Layer.through stages layer)
      (Layer.through stages' layer') := by
  induction each generalizing layer layer' with
  | nil =>
    apply comparison.pure
    rw [alike.readings]
    exact .ofReadings alike.error
  | cons stage others ih =>
    rw [Layer.through, Layer.through, ← alike.readings]
    apply comparison.bind (Layer.advance_corresponds stage _ alike.error)
    intro next next' later
    rw [← later.readings]
    split
    · exact comparison.pure (.conclude false later.error)
    · exact ih later

namespace Parser

variable {p : Parser m τ α} {q : Parser n τ α}

theorem ofFunction_corresponds {run run' : Residual τ → Outcome τ α}
    (alike : ∀ input, (run input).Alike exact (run' input)) :
    Corresponds comparison exact (ofFunction run) (ofFunction run') :=
  fun input => comparison.pure (alike input)

theorem succeed_corresponds (value : α) :
    Corresponds (τ := τ) comparison exact (succeed value) (succeed value) :=
  ofFunction_corresponds fun _ => .ofReadings (.refl none)

theorem map_corresponds (part : Corresponds comparison exact p q) (f : α → β) :
    Corresponds comparison exact (map f p) (map f q) := by
  intro input
  apply comparison.bind (part input)
  intro outcome outcome' alike
  exact comparison.pure (alike.map f)

theorem bind_corresponds {next : α → Parser m τ β} {next' : α → Parser n τ β}
    (part : Corresponds comparison exact p q)
    (continues : ∀ value, Corresponds comparison exact (next value) (next' value)) :
    Corresponds comparison exact (bind p next) (bind q next') := by
  intro input
  apply comparison.bind_alike (part input)
  intro success readings error error' errors formed
  cases success with
  | false => exact comparison.pure ⟨rfl, rfl, errors, fun _ => rfl, fun _ => formed.reason rfl⟩
  | true =>
    apply comparison.bind
      (Layer.advance_corresponds (fun reading => continues _ reading.rest) readings errors)
    intro layer layer' alike
    exact comparison.pure alike.conclude

theorem bindAll_corresponds {nexts : List (α → Parser m τ α)} {nexts' : List (α → Parser n τ α)}
    (part : Corresponds comparison exact p q)
    (continues : List.Forall₂ (fun next next' => ∀ value,
      Corresponds comparison exact (next value) (next' value)) nexts nexts') :
    Corresponds comparison exact (bindAll p nexts) (bindAll q nexts') := by
  intro input
  apply comparison.bind_alike (part input)
  intro success readings error error' errors formed
  cases success with
  | false => exact comparison.pure ⟨rfl, rfl, errors, formed⟩
  | true =>
    have alike : Layer.Alike exact ⟨readings, error⟩ ⟨readings, error'⟩ := ⟨rfl, errors⟩
    refine Layer.through_corresponds ?_ alike
    rw [List.forall₂_map_left_iff, List.forall₂_map_right_iff]
    exact continues.imp fun _ _ next (reading : Reading τ α) => next reading.value reading.rest

theorem sequence_corresponds {ps : List (Parser m τ α)} {qs : List (Parser n τ α)}
    (parts : List.Forall₂ (Corresponds comparison exact) ps qs) :
    Corresponds comparison exact (sequence ps) (sequence qs) := by
  intro input
  apply Layer.through_corresponds ?_ ⟨rfl, .refl none⟩
  rw [List.forall₂_map_left_iff, List.forall₂_map_right_iff]
  exact parts.imp fun _ _ part (reading : Reading τ (List α)) => map_corresponds part _ reading.rest

/-! ## Choices -/

theorem anyOfFrom_corresponds {ps : List (Parser m τ α)} {qs : List (Parser n τ α)}
    (parts : List.Forall₂ (Corresponds comparison exact) ps qs) (input : Residual τ)
    (success : Bool) (readings : List (Reading τ α)) {error error' : Option Diagnostic}
    (errors : Diagnostic.Alike exact error error') :
    comparison.Holds (Outcome.Alike exact) (anyOfFrom input ps success readings error)
      (anyOfFrom input qs success readings error') := by
  induction parts generalizing success readings error error' with
  | nil => exact comparison.pure (.conclude success errors)
  | cons part others ih =>
    apply comparison.bind_alike (part input)
    intro succeeded found reason reason' reasons formed
    cases succeeded with
    | false => exact ih success readings (errors.farthest reasons)
    | true => exact ih true (readings ++ found) (errors.farthest reasons)

theorem firstOfFrom_corresponds {ps : List (Parser m τ α)} {qs : List (Parser n τ α)}
    (parts : List.Forall₂ (Corresponds comparison exact) ps qs) (input : Residual τ)
    {error error' : Option Diagnostic} (errors : Diagnostic.Alike exact error error') :
    comparison.Holds (Outcome.Alike exact) (firstOfFrom input ps error)
      (firstOfFrom input qs error') := by
  induction parts generalizing error error' with
  | nil => exact comparison.pure (.conclude false errors)
  | cons part others ih =>
    apply comparison.bind_alike (part input)
    intro succeeded found reason reason' reasons formed
    cases succeeded with
    | false => exact ih (errors.farthest reasons)
    | true => exact comparison.pure (.ofReadings (errors.farthest reasons))

theorem choice_corresponds (policy : Policy) {ps : List (Parser m τ α)} {qs : List (Parser n τ α)}
    (parts : List.Forall₂ (Corresponds comparison exact) ps qs) :
    Corresponds comparison exact (choice policy ps) (choice policy qs) := by
  intro input
  cases policy with
  | exhaustive => exact anyOfFrom_corresponds parts input false [] (.refl none)
  | ordered => exact firstOfFrom_corresponds parts input (.refl none)

theorem first_corresponds (part : Corresponds comparison exact p q) :
    Corresponds comparison exact (first p) (first q) := by
  intro input
  apply comparison.bind_alike (part input)
  intro success readings error error' errors formed
  apply comparison.pure
  refine ⟨rfl, rfl, errors, fun failed => ?_, formed.reason⟩
  obtain rfl : readings = [] := formed.barren failed
  rfl

/-! ## Repetitions -/

theorem round_corresponds (part : Corresponds comparison exact p q) {layer layer' : Layer τ (List α)}
    (alike : layer.Alike exact layer') :
    comparison.Holds (Layer.Alike exact) (Repetition.round p layer)
      (Repetition.round q layer') := by
  rw [Repetition.round, Repetition.round, ← alike.readings]
  apply Layer.advance_corresponds ?_ _ alike.error
  intro reading
  apply comparison.bind_alike (part reading.rest)
  intro success readings error error' errors formed
  apply comparison.pure
  apply Outcome.Alike.map
  refine ⟨rfl, rfl, errors, fun failed => ?_, formed.reason⟩
  obtain rfl : readings = [] := formed.barren failed
  rfl

theorem layers_correspond (part : Corresponds comparison exact p q) (rounds : Nat)
    {layer layer' : Layer τ (List α)} (alike : layer.Alike exact layer') :
    comparison.Holds
      (fun explored explored' => explored.1 = explored'.1 ∧
        Diagnostic.Alike exact explored.2 explored'.2)
      (Repetition.layers p rounds layer) (Repetition.layers q rounds layer') := by
  induction rounds generalizing layer layer' with
  | zero => exact comparison.pure ⟨congrArg (fun readings => [readings]) alike.readings, alike.error⟩
  | succ rounds ih =>
    rw [Repetition.layers, Repetition.layers, ← alike.readings]
    apply comparison.bind (round_corresponds part alike)
    intro next next' later
    rw [← later.readings]
    split
    · exact comparison.pure ⟨rfl, later.error⟩
    · apply comparison.bind (ih later)
      intro explored explored' deeper
      exact comparison.pure ⟨congrArg (layer.readings :: ·) deeper.1, deeper.2⟩

theorem exactly_corresponds (part : Corresponds comparison exact p q) (count : Nat)
    {layer layer' : Layer τ (List α)} (alike : layer.Alike exact layer') :
    comparison.Holds (Outcome.Alike exact) (Repetition.exactly p count layer)
      (Repetition.exactly q count layer') := by
  induction count generalizing layer layer' with
  | zero =>
    rw [Repetition.exactly, Repetition.exactly, ← alike.readings]
    exact comparison.pure (.ofReadings alike.error)
  | succ count ih =>
    apply comparison.bind (round_corresponds part alike)
    intro next next' later
    rw [← later.readings]
    split
    · exact comparison.pure (.conclude false later.error)
    · exact ih later

theorem repeated_corresponds (part : Corresponds comparison exact p q) (extent : Extent) :
    Corresponds comparison exact (repeated extent p) (repeated extent q) := by
  intro input
  have seeded : (Repetition.seed input : Layer τ (List α)).Alike exact (Repetition.seed input) :=
    ⟨rfl, .refl none⟩
  have explored := layers_correspond part (input.remaining + 1) seeded
  cases extent with
  | exactly count => exact exactly_corresponds part count seeded
  | shortestFirst | longestFirst | greedy =>
    apply comparison.bind explored
    intro found found' alike
    simp only [← alike.1]
    exact comparison.pure (.ofReadings alike.2)

/-! ## Chains -/

theorem chainRight_corresponds (policy : Policy) {op : Parser m τ (α → α → α)}
    {op' : Parser n τ (α → α → α)} (part : Corresponds comparison exact p q)
    (operators : Corresponds comparison exact op op') :
    Corresponds comparison exact (chainRight policy p op) (chainRight policy q op') := by
  intro input
  generalize measured : input.remaining = remaining
  induction remaining using Nat.strongRecOn generalizing input with
  | ind remaining ih =>
    subst measured
    rw [chainRight, chainRight]
    apply bind_corresponds part
    intro left
    apply choice_corresponds policy
    refine .cons (bind_corresponds operators fun apply rest => ?_)
      (.cons (succeed_corresponds left) .nil)
    split
    next shorter =>
      apply comparison.bind (ih _ shorter rest rfl)
      intro outcome outcome' alike
      exact comparison.pure (alike.map (apply left))
    next => exact comparison.abort .runaway

/-! ## Single tokens -/

theorem satisfy_corresponds [Token τ] (accepts : τ → Bool) {expected expected' : String}
    (same : exact → expected = expected') :
    Corresponds comparison exact (satisfy accepts expected) (satisfy accepts expected') := by
  apply ofFunction_corresponds
  intro input
  split
  · exact .failure (.ofSome rfl fun asked => by rw [same asked])
  · split
    · exact .ofReadings (.refl none)
    · exact .failure (.ofSome rfl fun asked => by rw [same asked])

theorem fail_corresponds {message message' : String} (same : exact → message = message') :
    Corresponds (τ := τ) (α := α) comparison exact (fail message) (fail message') :=
  ofFunction_corresponds fun _ => .failure (.ofSome rfl fun asked => by rw [same asked])

theorem endOfInput_corresponds [Token τ] :
    Corresponds (τ := τ) comparison exact endOfInput endOfInput := by
  apply ofFunction_corresponds
  intro input
  split
  · exact .ofReadings (.refl none)
  · exact .failure (.refl _)

theorem custom_corresponds {run : Residual τ → Outcome τ α}
    (formed : ∀ input, (run input).WellFormed) :
    Corresponds comparison exact (ofFunction run) (ofFunction run) :=
  ofFunction_corresponds fun input => ⟨rfl, rfl, .refl _, formed input⟩

/-! ## Parsers that change an outcome -/

/-- On success other readings take the place of those of the part. -/
theorem onSuccess_corresponds (part : Corresponds comparison exact p q)
    (readings : Residual τ → Bool → List (Reading τ α) → List (Reading τ β)) :
    Corresponds comparison exact
      (fun input => p input >>= fun outcome =>
        if !outcome.success then pure outcome.toFailure
        else pure (.ofReadings (readings input outcome.success outcome.readings) outcome.error))
      (fun input => q input >>= fun outcome =>
        if !outcome.success then pure outcome.toFailure
        else pure
          (.ofReadings (readings input outcome.success outcome.readings) outcome.error)) := by
  intro input
  apply comparison.bind_alike (part input)
  intro success found error error' errors formed
  cases success with
  | false => exact comparison.pure ⟨rfl, rfl, errors, fun _ => rfl, fun _ => formed.reason rfl⟩
  | true => exact comparison.pure (.ofReadings errors)

theorem gather_corresponds (part : Corresponds comparison exact p q) :
    Corresponds comparison exact (gather p) (gather q) :=
  onSuccess_corresponds part fun _ _ found => Reading.group found

theorem lookAhead_corresponds (part : Corresponds comparison exact p q) :
    Corresponds comparison exact (lookAhead p) (lookAhead q) :=
  onSuccess_corresponds part fun input _ found => [⟨found.map Reading.value, input⟩]

theorem notAhead_corresponds [Token τ] (part : Corresponds comparison exact p q) :
    Corresponds comparison exact (notAhead p) (notAhead q) := by
  intro input
  apply comparison.bind_alike (part input)
  intro success found error error' errors formed
  cases success with
  | false => exact comparison.pure (.ofReadings (.refl none))
  | true => exact comparison.pure (.failure (.refl _))

/-- On failure something else is returned, which depends on the reason. -/
theorem onFailure_corresponds (part : Corresponds comparison exact p q)
    (instead instead' : Residual τ → Option Diagnostic → Outcome τ α)
    (alike : ∀ input error error', error.isSome → Diagnostic.Alike exact error error' →
      (instead input error).Alike exact (instead' input error')) :
    Corresponds comparison exact
      (fun input => p input >>= fun outcome =>
        if outcome.success then pure outcome else pure (instead input outcome.error))
      (fun input => q input >>= fun outcome =>
        if outcome.success then pure outcome else pure (instead' input outcome.error)) := by
  intro input
  apply comparison.bind_alike (part input)
  intro success found error error' errors formed
  cases success with
  | true => exact comparison.pure ⟨rfl, rfl, errors, formed⟩
  | false => exact comparison.pure (alike input error error' (formed.reason rfl) errors)

end Parser

/-- A text that takes the place of a diagnostic leaves it where it was. -/
theorem Diagnostic.depth_rephrase (message : String) {error : Option Diagnostic}
    (present : error.isSome) : depth (some (rephrase message error)) = depth error := by
  obtain ⟨reason, rfl⟩ := Option.isSome_iff_exists.mp present
  rw [rephrase]
  split <;> rfl

/-- A name that takes the place of what was wanted leaves a diagnostic where it was. -/
theorem Diagnostic.depth_wantedAs (name : String) (position : Position)
    {error : Option Diagnostic} (present : error.isSome) :
    depth (some (wantedAs name position error)) = depth error := by
  obtain ⟨reason, rfl⟩ := Option.isSome_iff_exists.mp present
  rfl

namespace Diagnostic.Alike

variable {error error' : Option Diagnostic}

theorem rephrase {message message' : String} (same : exact → message = message')
    (present : error.isSome) (errors : Alike exact error error') :
    Alike exact (some (rephrase message error)) (some (Diagnostic.rephrase message' error')) := by
  constructor
  · rw [depth_rephrase _ present, depth_rephrase _ (errors.isSome ▸ present), errors.place]
  · intro asked
    rw [same asked, errors.same asked]

theorem wantedAs {name name' : String} (position : Position) (same : exact → name = name')
    (present : error.isSome) (errors : Alike exact error error') :
    Alike exact (some (wantedAs name position error))
      (some (Diagnostic.wantedAs name' position error')) := by
  constructor
  · rw [depth_wantedAs _ _ present, depth_wantedAs _ _ (errors.isSome ▸ present), errors.place]
  · intro asked
    rw [same asked, errors.same asked]

end Diagnostic.Alike

namespace Parser

variable {p : Parser m τ α} {q : Parser n τ α}

theorem reportAs_corresponds (part : Corresponds comparison exact p q) {message message' : String}
    (same : exact → message = message') :
    Corresponds comparison exact (reportAs message p) (reportAs message' q) :=
  onFailure_corresponds part (fun _ error => .failure (Diagnostic.rephrase message error))
    (fun _ error => .failure (Diagnostic.rephrase message' error))
    fun _ _ _ present errors => .failure (errors.rephrase same present)

theorem recover_corresponds (part : Corresponds comparison exact p q) {message message' : String}
    (same : exact → message = message') (default : α) :
    Corresponds comparison exact (recover message default p) (recover message' default q) :=
  onFailure_corresponds part
    (fun input error => .ofReadings [⟨default, input⟩] (some (Diagnostic.rephrase message error)))
    (fun input error => .ofReadings [⟨default, input⟩] (some (Diagnostic.rephrase message' error)))
    fun _ _ _ present errors => .ofReadings (errors.rephrase same present)

theorem named_corresponds (part : Corresponds comparison exact p q) {name name' : String}
    (same : exact → name = name') :
    Corresponds comparison exact (named name p) (named name' q) :=
  onFailure_corresponds part
    (fun input error => .failure (Diagnostic.wantedAs name input.position error))
    (fun input error => .failure (Diagnostic.wantedAs name' input.position error))
    fun input _ _ present errors => .failure (errors.wantedAs input.position same present)

end Parser

end Multiparse
