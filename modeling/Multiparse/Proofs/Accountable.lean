import Mathlib.Data.List.MinMax
import Multiparse.Proofs.Depth
import Multiparse.Proofs.Fragment
import Multiparse.Proofs.Raised

/-!
# Parsers that account for what they raise

The diagnostic of an outcome accounts for the failures that were raised if it lies as deep as the
deepest of them, and has no place where none was raised. Each parser passes on the diagnostics of
all its parts, also of those whose readings are dropped, so if the parts account for what they
raised, the whole does so too.
-/

namespace Multiparse

open Diagnostic

/-! ## Diagnostics that keep up with what was raised -/

theorem maximum_append (first second : List Position) :
    (first ++ second).maximum = max first.maximum second.maximum := by
  induction first with
  | nil => simp
  | cons position first ih =>
    rw [List.cons_append, List.maximum_cons, ih, List.maximum_cons, max_assoc]

/-- The diagnostic lies at the bound, or has no place if there is nothing to keep up with. -/
structure Tracks (bound : WithBot Position) (error : Option Diagnostic) : Prop where
  reaches : bound ≤ depth error
  within : depth error ≤ max bound (Position.unknown : Position)

namespace Tracks

variable {bound bound' : WithBot Position} {error error' : Option Diagnostic}

theorem bot_none : Tracks ⊥ none := ⟨le_rfl, bot_le⟩

theorem congr (tracks : Tracks bound error) (same : depth error' = depth error) :
    Tracks bound error' := by
  refine ⟨?_, ?_⟩
  · rw [same]
    exact tracks.reaches
  · rw [same]
    exact tracks.within

theorem farthest (tracks : Tracks bound error) (tracks' : Tracks bound' error') :
    Tracks (max bound bound') (farthest error error') := by
  refine ⟨?_, ?_⟩
  · rw [depth_farthest]
    exact max_le_max tracks.reaches tracks'.reaches
  · rw [depth_farthest]
    refine max_le (tracks.within.trans ?_) (tracks'.within.trans ?_)
    · exact max_le_max_right _ (le_max_left _ _)
    · exact max_le_max_right _ (le_max_right _ _)

theorem maximum_nil (tracks : Tracks bound error) :
    Tracks (max bound ([] : List Position).maximum) error := by
  rwa [List.maximum_nil, max_bot_right]

/-- A reason that is made up has no place. -/
theorem getD (tracks : Tracks bound error) : Tracks bound (some (error.getD .noAlternative)) := by
  cases error with
  | some reason => exact tracks
  | none =>
    obtain rfl : bound = ⊥ := le_bot_iff.mp tracks.reaches
    exact ⟨bot_le, le_max_right _ _⟩

end Tracks

/-- On top of a bound, the outcome accounts for what was raised, and a failure has a reason. -/
structure Accounts {τ α : Type} (bound : WithBot Position) (outcome : Outcome τ α)
    (raised : List Position) : Prop where
  reason : outcome.success = false → outcome.error.isSome
  tracks : Tracks (max bound raised.maximum) outcome.error

/-! ## Watched runs -/

/-- Where the plain run returns, the watched one returns the same, leaves the same machine behind,
and has written down what is stated. -/
def Notes {A : Type} (watched : Watch A) (plain : Run A) (stated : A → List Position → Prop) :
    Prop :=
  ∀ before result after, plain.Ends before result after →
    ∃ raised, watched.run.Ends before (result, raised) after ∧ stated result raised

namespace Notes

variable {A B : Type} {watched : Watch A} {plain : Run A}
  {stated stated' : A → List Position → Prop}

theorem mono (notes : Notes watched plain stated)
    (implies : ∀ result raised, stated result raised → stated' result raised) :
    Notes watched plain stated' := by
  intro before result after ended
  obtain ⟨raised, watchedEnds, holds⟩ := notes before result after ended
  exact ⟨raised, watchedEnds, implies result raised holds⟩

theorem pure {value : A} (holds : stated value []) : Notes (pure value) (pure value) stated := by
  intro before result after ended
  obtain ⟨rfl, rfl⟩ := Run.ends_pure.mp ended
  exact ⟨[], Run.ends_pure.mpr ⟨rfl, rfl⟩, holds⟩

theorem bind {next : A → Watch B} {next' : A → Run B} {stated' : B → List Position → Prop}
    (first : Notes watched plain stated)
    (continues : ∀ value raised, stated value raised →
      Notes (next value) (next' value) fun result more => stated' result (raised ++ more)) :
    Notes (watched >>= next) (plain >>= next') stated' := by
  intro before result after ended
  obtain ⟨value, middle, firstEnds, nextEnds⟩ := Run.ends_bind.mp ended
  obtain ⟨raised, watchedEnds, holds⟩ := first _ _ _ firstEnds
  obtain ⟨more, moreEnds, finished⟩ := continues value raised holds _ _ _ nextEnds
  exact ⟨raised ++ more, Run.ends_writer_bind watchedEnds moreEnds, finished⟩

/-- A result that is changed at the end. -/
theorem bind_pure {f : A → B} {stated' : B → List Position → Prop}
    (first : Notes watched plain stated)
    (implies : ∀ value raised, stated value raised → stated' (f value) raised) :
    Notes (watched >>= fun value => Pure.pure (f value))
      (plain >>= fun value => Pure.pure (f value)) stated' := by
  refine first.bind fun value raised holds => .pure ?_
  rw [List.append_nil]
  exact implies value raised holds

/-- What the machine does by itself raises nothing. -/
theorem lift (run : Run A) : Notes (liftM run) run fun _ raised => raised = [] := by
  intro before result after ended
  exact ⟨[], Run.ends_map.mpr ⟨result, ended, rfl⟩, rfl⟩

/-- Forgetting what was written down leaves nothing. -/
theorem hushed {τ α : Type} {p : Parser Watch τ α} {input : Residual τ}
    {plain : Run (Outcome τ α)} {stated : Outcome τ α → List Position → Prop}
    (notes : Notes (p input) plain stated) :
    Notes (p.hushed input) plain fun _ raised => raised = [] := by
  intro before result after ended
  obtain ⟨raised, watchedEnds, -⟩ := notes before result after ended
  refine ⟨[], Run.ends_map.mpr ⟨result, ?_, rfl⟩, rfl⟩
  exact Run.ends_map.mpr ⟨_, watchedEnds, rfl⟩

theorem abort {fault : Fault} : Notes (Aborts.abort fault) (Aborts.abort fault) stated := by
  intro before result after ended
  exact absurd ended Run.not_ends_abort

end Notes

namespace Accounts

variable {τ α β : Type} {bound : WithBot Position} {raised more : List Position}
  {outcome : Outcome τ α}

theorem append (accounts : Accounts (max bound raised.maximum) outcome more) :
    Accounts bound outcome (raised ++ more) := by
  refine ⟨accounts.reason, ?_⟩
  rw [maximum_append, ← max_assoc]
  exact accounts.tracks

/-- An outcome that was changed otherwise accounts for the same. -/
theorem congr {outcome' : Outcome τ β} (accounts : Accounts bound outcome raised)
    (success : outcome'.success = outcome.success) (error : outcome'.error = outcome.error) :
    Accounts bound outcome' raised := by
  refine ⟨?_, ?_⟩
  · rw [success, error]
    exact accounts.reason
  · rw [error]
    exact accounts.tracks

/-- What was raised can be counted with the bound. -/
theorem settle (accounts : Accounts bound outcome raised) :
    Accounts (max bound raised.maximum) outcome [] :=
  ⟨accounts.reason, accounts.tracks.maximum_nil⟩

/-- A diagnostic from earlier on is merged with that of the outcome. -/
theorem merge {error : Option Diagnostic} (accounts : Accounts ⊥ outcome raised)
    (tracks : Tracks bound error) :
    Tracks (max bound raised.maximum) (farthest error outcome.error) := by
  have merged := tracks.farthest accounts.tracks
  rwa [max_bot_left] at merged

theorem conclude {success : Bool} {readings : List (Reading τ α)} {error : Option Diagnostic}
    (tracks : Tracks (max bound raised.maximum) error) :
    Accounts bound (.conclude success readings error) raised := by
  cases success with
  | true => exact ⟨fun failed => Bool.noConfusion failed, tracks⟩
  | false => exact ⟨fun _ => rfl, tracks.getD⟩

/-- A success needs no reason. -/
theorem ofReadings {readings : List (Reading τ α)} {error : Option Diagnostic}
    (tracks : Tracks (max bound raised.maximum) error) :
    Accounts bound (.ofReadings readings error) raised :=
  ⟨fun failed => Bool.noConfusion failed, tracks⟩

end Accounts

/-! ## Parsers that account for what they raise -/

/-- The watched parser does what the plain one does and accounts for what is raised. -/
def Parser.Accountable {τ α : Type} (watched : Parser Watch τ α) (plain : Parser Run τ α) : Prop :=
  ∀ input, Notes (watched input) (plain input) (Accounts ⊥)

variable {τ α β : Type}

/-- What is raised by a run on top of a bound. -/
theorem Notes.append {run : Watch (Outcome τ α)} {run' : Run (Outcome τ α)}
    {bound : WithBot Position} {raised : List Position}
    (notes : Notes run run' (Accounts (max bound raised.maximum))) :
    Notes run run' fun outcome more => Accounts bound outcome (raised ++ more) :=
  notes.mono fun _ _ accounts => accounts.append

/-! ### Sequences -/

/-- A diagnostic from earlier on is kept in account when a stage is run. -/
theorem Layer.advance_notes {stage : Reading τ α → Watch (Outcome τ β)}
    {stage' : Reading τ α → Run (Outcome τ β)}
    (stages : ∀ reading, Notes (stage reading) (stage' reading) (Accounts ⊥))
    (readings : List (Reading τ α)) {bound : WithBot Position} {error : Option Diagnostic}
    (tracks : Tracks bound error) :
    Notes (Layer.advance stage readings error) (Layer.advance stage' readings error)
      fun layer raised => Tracks (max bound raised.maximum) layer.error := by
  induction readings generalizing bound error with
  | nil => exact .pure tracks.maximum_nil
  | cons reading others ih =>
    refine .bind (stages reading) fun outcome raised accounts => ?_
    refine (ih (accounts.merge tracks)).bind_pure fun layer more later => ?_
    rwa [maximum_append, ← max_assoc]

theorem Layer.through_notes {stages : List (Reading τ α → Watch (Outcome τ α))}
    {stages' : List (Reading τ α → Run (Outcome τ α))}
    (related : List.Forall₂ (fun stage stage' => ∀ reading,
      Notes (stage reading) (stage' reading) (Accounts ⊥)) stages stages')
    {bound : WithBot Position} {layer : Layer τ α} (tracks : Tracks bound layer.error) :
    Notes (Layer.through stages layer) (Layer.through stages' layer) (Accounts bound) := by
  induction related generalizing bound layer with
  | nil => exact .pure (.ofReadings tracks.maximum_nil)
  | cons stage others ih =>
    refine .bind (Layer.advance_notes stage _ tracks) fun next raised later => .append ?_
    split
    · exact .pure (.conclude later.maximum_nil)
    · exact ih later

namespace Parser

variable {watched : Parser Watch τ α} {plain : Parser Run τ α}

theorem succeed_accountable (value : α) :
    Accountable (τ := τ) (succeed value) (succeed value) :=
  fun _ => .pure (.ofReadings Tracks.bot_none.maximum_nil)

theorem map_accountable (part : Accountable watched plain) (f : α → β) :
    Accountable (map f watched) (map f plain) :=
  fun input => (part input).bind_pure fun _ _ accounts => accounts.congr rfl rfl

theorem bind_accountable {next : α → Parser Watch τ β} {next' : α → Parser Run τ β}
    (part : Accountable watched plain)
    (continues : ∀ value, Accountable (next value) (next' value)) :
    Accountable (bind watched next) (bind plain next') := by
  intro input
  refine .bind (part input) fun first raised accounts => .append ?_
  by_cases failed : first.success = false
  · simp only [failed]
    exact .pure (accounts.settle.congr failed.symm rfl)
  · simp only [failed]
    exact Notes.bind_pure (Layer.advance_notes (fun reading => continues _ reading.rest) _
      accounts.tracks) fun layer more later => .conclude later

theorem bindAll_accountable {count : Nat} {next : Fin count → α → Parser Watch τ α}
    {next' : Fin count → α → Parser Run τ α} (part : Accountable watched plain)
    (continues : ∀ i value, Accountable (next i value) (next' i value)) :
    Accountable (bindAll watched (List.ofFn next)) (bindAll plain (List.ofFn next')) := by
  intro input
  refine .bind (part input) fun first raised accounts => .append ?_
  by_cases failed : first.success = false
  · simp only [failed]
    exact .pure accounts.settle
  · simp only [failed]
    refine Layer.through_notes ?_ accounts.tracks
    rw [List.forall₂_map_left_iff, List.forall₂_map_right_iff]
    exact forall₂_ofFn fun i reading => continues i reading.value reading.rest

theorem sequence_accountable {count : Nat} {ps : Fin count → Parser Watch τ α}
    {ps' : Fin count → Parser Run τ α} (parts : ∀ i, Accountable (ps i) (ps' i)) :
    Accountable (sequence (List.ofFn ps)) (sequence (List.ofFn ps')) := by
  intro input
  refine Layer.through_notes ?_ Tracks.bot_none
  rw [List.forall₂_map_left_iff, List.forall₂_map_right_iff]
  exact forall₂_ofFn fun i reading => map_accountable (parts i) _ reading.rest

/-! ### Choices -/

theorem anyOfFrom_notes {ps : List (Parser Watch τ α)} {ps' : List (Parser Run τ α)}
    (parts : List.Forall₂ Accountable ps ps') (input : Residual τ) (success : Bool)
    (readings : List (Reading τ α)) {bound : WithBot Position} {error : Option Diagnostic}
    (tracks : Tracks bound error) :
    Notes (anyOfFrom input ps success readings error) (anyOfFrom input ps' success readings error)
      (Accounts bound) := by
  induction parts generalizing success readings bound error with
  | nil => exact .pure (.conclude tracks.maximum_nil)
  | cons part others ih =>
    refine .bind (part input) fun outcome raised accounts => .append ?_
    have merged := accounts.merge tracks
    split
    · exact ih _ _ merged
    · exact ih _ _ merged

theorem firstOfFrom_notes {ps : List (Parser Watch τ α)} {ps' : List (Parser Run τ α)}
    (parts : List.Forall₂ Accountable ps ps') (input : Residual τ) {bound : WithBot Position}
    {error : Option Diagnostic} (tracks : Tracks bound error) :
    Notes (firstOfFrom input ps error) (firstOfFrom input ps' error) (Accounts bound) := by
  induction parts generalizing bound error with
  | nil => exact .pure (.conclude tracks.maximum_nil)
  | cons part others ih =>
    refine .bind (part input) fun outcome raised accounts => .append ?_
    have merged := accounts.merge tracks
    by_cases succeeded : outcome.success = true
    · simp only [succeeded]
      exact .pure ⟨fun failed => absurd (succeeded.symm.trans failed) Bool.noConfusion,
        merged.maximum_nil⟩
    · simp only [succeeded]
      exact ih merged

theorem choice_accountable {ps : List (Parser Watch τ α)} {ps' : List (Parser Run τ α)}
    (policy : Policy) (parts : List.Forall₂ Accountable ps ps') :
    Accountable (choice policy ps) (choice policy ps') := by
  intro input
  cases policy with
  | exhaustive => exact anyOfFrom_notes parts input false [] Tracks.bot_none
  | ordered => exact firstOfFrom_notes parts input Tracks.bot_none

/-! ### Repetitions -/

theorem round_notes (part : Accountable watched plain) {layer : Layer τ (List α)}
    {bound : WithBot Position} (tracks : Tracks bound layer.error) :
    Notes (Repetition.round watched layer) (Repetition.round plain layer)
      fun next raised => Tracks (max bound raised.maximum) next.error := by
  refine Layer.advance_notes (fun reading => ?_) _ tracks
  exact (part reading.rest).bind_pure fun _ _ accounts => accounts.congr rfl rfl

theorem layers_notes (part : Accountable watched plain) (rounds : Nat) {layer : Layer τ (List α)}
    {bound : WithBot Position} (tracks : Tracks bound layer.error) :
    Notes (Repetition.layers watched rounds layer) (Repetition.layers plain rounds layer)
      fun explored raised => Tracks (max bound raised.maximum) explored.2 := by
  induction rounds generalizing layer bound with
  | zero => exact .pure tracks.maximum_nil
  | succ rounds ih =>
    refine .bind (round_notes part tracks) fun next raised later => ?_
    split
    · apply Notes.pure
      rwa [List.append_nil]
    · refine (ih later).bind_pure fun explored more last => ?_
      rwa [maximum_append, ← max_assoc]

theorem exactly_notes (part : Accountable watched plain) (count : Nat) {layer : Layer τ (List α)}
    {bound : WithBot Position} (tracks : Tracks bound layer.error) :
    Notes (Repetition.exactly watched count layer) (Repetition.exactly plain count layer)
      (Accounts bound) := by
  induction count generalizing layer bound with
  | zero => exact .pure (.ofReadings tracks.maximum_nil)
  | succ count ih =>
    refine .bind (round_notes part tracks) fun next raised later => .append ?_
    split
    · exact .pure (.conclude later.maximum_nil)
    · exact ih later

theorem repeated_accountable (part : Accountable watched plain) (extent : Extent) :
    Accountable (repeated extent watched) (repeated extent plain) := by
  intro input
  have seeded : Tracks ⊥ (Repetition.seed input : Layer τ (List α)).error := Tracks.bot_none
  cases extent with
  | exactly count => exact exactly_notes part count seeded
  | shortestFirst | longestFirst | greedy =>
    exact (layers_notes part _ seeded).bind_pure fun _ _ tracks => .ofReadings tracks

/-! ### Chains -/

theorem chainRight_accountable {op : Parser Watch τ (α → α → α)} {op' : Parser Run τ (α → α → α)}
    (policy : Policy) (part : Accountable watched plain) (operators : Accountable op op') :
    Accountable (chainRight policy watched op) (chainRight policy plain op') := by
  intro input
  generalize measured : input.remaining = remaining
  induction remaining using Nat.strongRecOn generalizing input with
  | ind remaining ih =>
    subst measured
    rw [chainRight, chainRight]
    refine bind_accountable part (fun left => ?_) input
    refine choice_accountable policy (.cons (bind_accountable operators fun apply rest => ?_)
      (.cons (succeed_accountable left) .nil))
    -- A chain that goes on without reading anything is a fault, so nothing is returned.
    split
    next shorter =>
      exact (ih _ shorter rest rfl).bind_pure fun _ _ accounts => accounts.congr rfl rfl
    next => exact .abort

/-! ### Primitive parsers -/

/-- An outcome that has a diagnostic exactly if it is a failure. -/
def Plain (outcome : Outcome τ α) : Prop := outcome.error.isSome = !outcome.success

/-- A parser that has raised nothing yet accounts for its own failure. -/
theorem raising_notes {input : Residual τ}
    (notes : Notes (watched input) (plain input)
      fun outcome raised => raised = [] ∧ Plain outcome) :
    Notes (watched.raising input) (plain input) (Accounts ⊥) := by
  intro before outcome after ended
  obtain ⟨raised, watchedEnds, rfl, own⟩ := notes before outcome after ended
  by_cases failed : outcome.success = false
  · obtain ⟨reason, error⟩ : ∃ reason, outcome.error = some reason := by
      rw [← Option.isSome_iff_exists, own, failed]
      rfl
    refine ⟨[] ++ ([reason.position] ++ []), Run.ends_writer_bind watchedEnds ?_, ?_⟩
    · simp only [failed, error]
      exact Run.ends_writer_bind (Run.ends_pure.mpr ⟨rfl, rfl⟩) (Run.ends_pure.mpr ⟨rfl, rfl⟩)
    · refine ⟨fun _ => by rw [error]; rfl, ?_⟩
      rw [error]
      exact ⟨by simp, by simp⟩
  · obtain error : outcome.error = none := by
      rw [← Option.not_isSome_iff_eq_none, own]
      simpa using failed
    refine ⟨[] ++ [], Run.ends_writer_bind watchedEnds ?_, ⟨fun failed' => absurd failed' failed, ?_⟩⟩
    · simp only [failed]
      exact Run.ends_pure.mpr ⟨rfl, rfl⟩
    · rw [error]
      exact ⟨by simp, by simp⟩

/-- A primitive parser accounts for its own failure. -/
theorem ofFunction_raising {run : Residual τ → Outcome τ α} (own : ∀ input, Plain (run input)) :
    Accountable (ofFunction run).raising (ofFunction run) :=
  fun input => raising_notes (.pure ⟨rfl, own input⟩)

theorem satisfy_accountable [Token τ] (accepts : τ → Bool) (expected : String) :
    Accountable (satisfy accepts expected).raising (satisfy accepts expected) := by
  refine ofFunction_raising fun input => ?_
  split
  · rfl
  · split <;> rfl

theorem endOfInput_accountable [Token τ] :
    Accountable (τ := τ) endOfInput.raising endOfInput := by
  refine ofFunction_raising fun input => ?_
  split <;> rfl

theorem fail_accountable (message : String) :
    Accountable (α := α) (τ := τ) (fail message).raising (fail message) :=
  ofFunction_raising fun _ => rfl

/-- What must not follow may raise what it likes. -/
theorem notAhead_accountable [Token τ] (part : Accountable watched plain) :
    Accountable (notAhead watched.hushed).raising (notAhead plain) := by
  refine fun input => raising_notes ?_
  refine (part input).hushed.bind fun outcome raised nothing => ?_
  split
  · exact .pure ⟨by rw [nothing]; rfl, rfl⟩
  · exact .pure ⟨by rw [nothing]; rfl, rfl⟩

/-! ### Parsers that change an outcome -/

/-- On success other readings take the place of those of the part. -/
theorem onSuccess_accountable (part : Accountable watched plain)
    (readings : Residual τ → Outcome τ α → List (Reading τ β)) :
    Accountable
      (fun input => watched input >>= fun outcome =>
        if !outcome.success then pure outcome.toFailure
        else pure (.ofReadings (readings input outcome) outcome.error))
      (fun input => plain input >>= fun outcome =>
        if !outcome.success then pure outcome.toFailure
        else pure (.ofReadings (readings input outcome) outcome.error)) := by
  intro input
  refine .bind (part input) fun outcome raised accounts => .append ?_
  cases success : outcome.success with
  | false => exact .pure (accounts.settle.congr success.symm rfl)
  | true => exact .pure (accounts.settle.congr success.symm rfl)

/-- On failure something else is returned, with a reason at the same position. -/
theorem onFailure_accountable (part : Accountable watched plain)
    (instead : Residual τ → Option Diagnostic → Outcome τ α)
    (stays : ∀ input reason, ∃ reason', (instead input (some reason)).error = some reason' ∧
      reason'.position = reason.position) :
    Accountable
      (fun input => watched input >>= fun outcome =>
        if outcome.success then pure outcome else pure (instead input outcome.error))
      (fun input => plain input >>= fun outcome =>
        if outcome.success then pure outcome else pure (instead input outcome.error)) := by
  intro input
  refine .bind (part input) fun outcome raised accounts => .append ?_
  cases success : outcome.success with
  | true => exact .pure accounts.settle
  | false =>
    obtain ⟨reason, error⟩ := Option.isSome_iff_exists.mp (accounts.reason success)
    obtain ⟨reason', error', same⟩ := stays input reason
    rw [error]
    refine .pure ⟨fun _ => by rw [error']; rfl, accounts.settle.tracks.congr ?_⟩
    rw [error, error', depth_some, depth_some, same]

theorem gather_accountable (part : Accountable watched plain) :
    Accountable (gather watched) (gather plain) :=
  onSuccess_accountable part fun _ outcome => Reading.group outcome.readings

theorem lookAhead_accountable (part : Accountable watched plain) :
    Accountable (lookAhead watched) (lookAhead plain) :=
  onSuccess_accountable part fun input outcome => [⟨outcome.values, input⟩]

theorem rephrase_position (message : String) (reason : Diagnostic) :
    (rephrase message (some reason)).position = reason.position := by
  rw [rephrase]
  split <;> rfl

theorem reportAs_accountable (part : Accountable watched plain) (message : String) :
    Accountable (reportAs message watched) (reportAs message plain) :=
  onFailure_accountable part (fun _ error => .failure (rephrase message error))
    fun _ reason => ⟨_, rfl, rephrase_position message reason⟩

theorem recover_accountable (part : Accountable watched plain) (message : String) (default : α) :
    Accountable (recover message default watched) (recover message default plain) :=
  onFailure_accountable part
    (fun input error => .ofReadings [⟨default, input⟩] (some (rephrase message error)))
    fun _ reason => ⟨_, rfl, rephrase_position message reason⟩

theorem named_accountable (part : Accountable watched plain) (name : String) :
    Accountable (named name watched) (named name plain) :=
  onFailure_accountable part (fun input error => .failure (wantedAs name input.position error))
    fun _ _ => ⟨_, rfl, rfl⟩

theorem first_accountable (part : Accountable watched plain) :
    Accountable (first watched) (first plain) :=
  fun input => (part input).bind_pure fun _ _ accounts => accounts.congr rfl rfl

/-! ### Parsers that act on the machine -/

/-- An action of the machine before the rest. -/
theorem lift_notes {A B : Type} (action : Run A) {next : A → Watch B} {next' : A → Run B}
    {stated : B → List Position → Prop}
    (continues : ∀ value, Notes (next value) (next' value) stated) :
    Notes (liftM action >>= next) (action >>= next') stated := by
  refine (Notes.lift action).bind fun value raised nothing => ?_
  rw [nothing]
  exact continues value

theorem traced_accountable {θ : Type} [Observes θ Run] (tracer : θ) (name : String)
    (part : Accountable watched plain) :
    Accountable (traced tracer name watched) (traced tracer name plain) := by
  refine fun input => lift_notes _ fun depth => .bind (part input) fun outcome raised accounts => ?_
  refine lift_notes _ fun _ => .pure ?_
  rwa [List.append_nil]

theorem withDepth_accountable {θ : Type} [Observes θ Run] (tracer : θ)
    (part : Accountable watched plain) :
    Accountable (withDepth tracer watched) (withDepth tracer plain) := by
  refine fun input => .bind (part input) fun outcome raised accounts => ?_
  refine lift_notes _ fun depth => .pure ?_
  rw [List.append_nil]
  exact accounts.congr rfl rfl

theorem deferred_accountable (cell : Nat) (part : Accountable watched plain) :
    Accountable (deferred cell watched) (deferred cell plain) :=
  fun input => lift_notes _ fun _ => part input

end Parser

end Multiparse
