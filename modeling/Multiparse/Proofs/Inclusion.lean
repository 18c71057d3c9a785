import Mathlib.Logic.Relation
import Multiparse.Proofs.Contract

/-!
# Parsers that find less

One parser prunes another if, on an input where both return, whatever the first one finds is found
by the second one too (`Parser.Prunes`). A parser that keeps a single choice prunes the one that
keeps every choice, and it still does so if the parts of the first one prune those of the second. A
part that finds less may make a choice or a repetition go another way, but only to something that
the other parser tries as well.
-/

namespace Multiparse

namespace Run

variable {A A' B B' : Type}

/-- From some machine the run returns the result. -/
def Gives (run : Run A) (result : A) : Prop := ∃ before after, run.Ends before result after

theorem gives_pure {value result : A} (gives : (pure value : Run A).Gives result) :
    value = result := by
  obtain ⟨before, after, ended⟩ := gives
  exact (ends_pure.mp ended).1

theorem gives_bind {run : Run A} {next : A → Run B} {result : B}
    (gives : (run >>= next).Gives result) :
    ∃ value, run.Gives value ∧ (next value).Gives result := by
  obtain ⟨before, after, ended⟩ := gives
  obtain ⟨value, middle, first, second⟩ := ends_bind.mp ended
  exact ⟨value, ⟨before, middle, first⟩, ⟨middle, after, second⟩⟩

theorem not_gives_abort {fault : Fault} {result : A} :
    ¬ (Aborts.abort fault : Run A).Gives result :=
  fun ⟨_, _, ended⟩ => not_ends_abort ended

theorem Ensures.of_gives {run : Run A} {property : A → Prop} {result : A}
    (ensures : run.Ensures property) (gives : run.Gives result) : property result := by
  obtain ⟨before, after, ended⟩ := gives
  exact ensures before result after ended

/-- Whatever the first run returns is related to whatever the second one returns. -/
def Relates (run : Run A) (run' : Run A') (related : A → A' → Prop) : Prop :=
  ∀ result result', run.Gives result → run'.Gives result' → related result result'

namespace Relates

variable {run : Run A} {run' : Run A'} {related : A → A' → Prop} {property : B → B' → Prop}

theorem pure {value : A} {value' : A'} (holds : related value value') :
    (pure value : Run A).Relates (pure value') related := by
  intro result result' gives gives'
  obtain rfl := gives_pure gives
  obtain rfl := gives_pure gives'
  exact holds

theorem pure_left {value : A} (holds : run'.Ensures (related value)) :
    (Pure.pure value : Run A).Relates run' related := by
  intro result result' gives gives'
  obtain rfl := gives_pure gives
  exact holds.of_gives gives'

theorem bind {next : A → Run B} {next' : A' → Run B'} (first : run.Relates run' related)
    (continues : ∀ value value', related value value' →
      (next value).Relates (next' value') property) :
    (run >>= next).Relates (run' >>= next') property := by
  intro result result' gives gives'
  obtain ⟨value, ran, later⟩ := gives_bind gives
  obtain ⟨value', ran', later'⟩ := gives_bind gives'
  exact continues value value' (first value value' ran ran') result result' later later'

theorem abort {fault : Fault} : (Aborts.abort fault : Run A).Relates run' related :=
  fun _ _ gives _ => absurd gives not_gives_abort

theorem abort_right {fault : Fault} : run.Relates (Aborts.abort fault : Run A') related :=
  fun _ _ _ gives => absurd gives not_gives_abort

end Relates

end Run

/-- The extent that keeps all layers wherever this one keeps a single layer of its choice. -/
def Extent.unpruned : Extent → Extent
  | greedy => longestFirst
  | extent => extent

variable {τ α β : Type}

/-- Whatever the outcome has, the full one has too. -/
structure Outcome.Prunes (outcome full : Outcome τ α) : Prop where
  readings : outcome.readings ⊆ full.readings
  success : outcome.success = true → full.success = true
  barren : outcome.success = false → outcome.readings = []

/-- Where both parsers return, the second one finds whatever the first one finds. -/
def Parser.Prunes (p q : Parser Run τ α) : Prop :=
  ∀ input, (p input).Relates (q input) Outcome.Prunes

namespace Outcome.Prunes

variable {outcome full : Outcome τ α} {readings others : List (Reading τ α)}
  {error error' : Option Diagnostic}

theorem of_barren (failed : outcome.success = false) (none : outcome.readings = []) :
    outcome.Prunes full :=
  { readings := none ▸ List.nil_subset _
    success := fun succeeded => absurd (failed.symm.trans succeeded) Bool.noConfusion
    barren := fun _ => none }

theorem failure {reason : Diagnostic} : (Outcome.failure reason).Prunes full := of_barren rfl rfl

theorem ofReadings (fewer : readings ⊆ others) :
    (Outcome.ofReadings readings error).Prunes (.ofReadings others error') :=
  { readings := fewer
    success := fun _ => rfl
    barren := fun failed => Bool.noConfusion failed }

theorem conclude {success success' : Bool} (fewer : readings ⊆ others)
    (succeeds : success = true → success' = true) :
    (Outcome.conclude success readings error).Prunes (.conclude success' others error') := by
  cases success with
  | false => exact failure
  | true =>
    rw [succeeds rfl]
    exact ofReadings fewer

theorem map (prunes : outcome.Prunes full) (f : α → β) : (outcome.map f).Prunes (full.map f) :=
  { readings := List.map_subset _ prunes.readings
    success := prunes.success
    barren := fun failed => List.map_eq_nil_iff.mpr (prunes.barren failed) }

end Outcome.Prunes

theorem ne_nil_of_subset {A : Type} {items others : List A} (fewer : items ⊆ others)
    (nonempty : items ≠ []) : others ≠ [] :=
  fun none => nonempty (List.subset_nil.mp (none ▸ fewer))

/-! ## Sequences -/

namespace Layer

variable {stage stage' : Reading τ α → Run (Outcome τ β)} {readings others : List (Reading τ α)}
  {error error' : Option Diagnostic} {layer : Layer τ β}

/-- What a stage finds on the readings of a layer is found on one of them. -/
theorem advance_found (gives : (advance stage readings error).Gives layer) {found : Reading τ β}
    (member : found ∈ layer.readings) :
    ∃ reading ∈ readings, ∃ outcome, (stage reading).Gives outcome ∧ found ∈ outcome.readings := by
  induction readings generalizing error layer with
  | nil =>
    obtain rfl := Run.gives_pure gives
    exact absurd member List.not_mem_nil
  | cons reading others ih =>
    obtain ⟨outcome, ran, gives⟩ := Run.gives_bind gives
    obtain ⟨later, further, gives⟩ := Run.gives_bind gives
    obtain rfl := Run.gives_pure gives
    rcases List.mem_append.mp member with here | there
    · exact ⟨reading, List.mem_cons_self, outcome, ran, here⟩
    · obtain ⟨other, present, found⟩ := ih further there
      exact ⟨other, List.mem_cons_of_mem _ present, found⟩

/-- A stage is run on every reading of a layer, and what it finds is kept. -/
theorem advance_covers (gives : (advance stage readings error).Gives layer) {reading : Reading τ α}
    (present : reading ∈ readings) :
    ∃ outcome, (stage reading).Gives outcome ∧ outcome.readings ⊆ layer.readings := by
  induction readings generalizing error layer with
  | nil => exact absurd present List.not_mem_nil
  | cons first others ih =>
    obtain ⟨outcome, ran, gives⟩ := Run.gives_bind gives
    obtain ⟨later, further, gives⟩ := Run.gives_bind gives
    obtain rfl := Run.gives_pure gives
    rcases List.mem_cons.mp present with rfl | among
    · exact ⟨outcome, ran, List.subset_append_left _ _⟩
    · obtain ⟨outcome', ran', kept⟩ := ih further among
      exact ⟨outcome', ran', List.subset_append_of_subset_right _ kept⟩

theorem advance_prunes
    (stages : ∀ reading, (stage reading).Relates (stage' reading)
      fun outcome full => outcome.readings ⊆ full.readings)
    (fewer : readings ⊆ others) :
    (advance stage readings error).Relates (advance stage' others error')
      fun layer layer' => layer.readings ⊆ layer'.readings := by
  intro layer layer' gives gives' found member
  obtain ⟨reading, present, outcome, ran, here⟩ := advance_found gives member
  obtain ⟨full, ran', kept⟩ := advance_covers gives' (fewer present)
  exact kept (stages reading outcome full ran ran' here)

theorem through_prunes {stages stages' : List (Reading τ α → Run (Outcome τ α))}
    (each : List.Forall₂ (fun stage stage' => ∀ reading, (stage reading).Relates (stage' reading)
      fun outcome full => outcome.readings ⊆ full.readings) stages stages')
    {layer layer' : Layer τ α} (fewer : layer.readings ⊆ layer'.readings) :
    (through stages layer).Relates (through stages' layer') Outcome.Prunes := by
  induction each generalizing layer layer' with
  | nil => exact .pure (.ofReadings fewer)
  | cons here later ih =>
    refine .bind (advance_prunes here fewer) fun next next' fewer' => ?_
    by_cases empty : next.readings = []
    · simp only [empty, List.isEmpty_nil]
      exact .pure_left fun _ _ _ _ => .failure
    · simp only [List.isEmpty_iff, empty, ne_nil_of_subset fewer' empty]
      exact ih fewer'

end Layer

namespace Parser

variable {p q : Parser Run τ α}

theorem ofFunction_prunes {run : Residual τ → Outcome τ α}
    (meets : (ofFunction run : Parser Run τ α).Meets .following) :
    (ofFunction run : Parser Run τ α).Prunes (ofFunction run) := by
  refine fun input => .pure ⟨List.Subset.refl _, id, ?_⟩
  exact (meets input .initial _ _ rfl).barren

theorem gives_map {f : α → β} {input : Residual τ} {outcome : Outcome τ β}
    (gives : (map f p input : Run _).Gives outcome) :
    ∃ read, (p input).Gives read ∧ outcome = read.map f := by
  obtain ⟨read, ran, last⟩ := Run.gives_bind gives
  exact ⟨read, ran, (Run.gives_pure last).symm⟩

theorem map_prunes (part : p.Prunes q) (f : α → β) : (map f p).Prunes (map f q) :=
  fun input => .bind (part input) fun _ _ prunes => .pure (prunes.map f)

theorem bind_prunes {next next' : α → Parser Run τ β} (part : p.Prunes q)
    (continues : ∀ value, (next value).Prunes (next' value)) :
    (bind p next).Prunes (bind q next') := by
  refine fun input => .bind (part input) fun outcome full prunes => ?_
  by_cases failed : outcome.success = false
  · simp only [failed]
    exact .pure_left fun _ _ _ _ => .of_barren rfl rfl
  · have succeeded : full.success = true := prunes.success (by simpa using failed)
    simp only [failed, succeeded]
    refine .bind (Layer.advance_prunes (fun reading outcome full ran ran' =>
      (continues _ reading.rest outcome full ran ran').readings) prunes.readings)
        fun layer layer' fewer => .pure (.conclude fewer fun nonempty => ?_)
    simpa using ne_nil_of_subset fewer (by simpa using nonempty)

theorem bindAll_prunes {nexts nexts' : List (α → Parser Run τ α)} (part : p.Prunes q)
    (continues : List.Forall₂ (fun next next' => ∀ value, (next value).Prunes (next' value))
      nexts nexts') :
    (bindAll p nexts).Prunes (bindAll q nexts') := by
  refine fun input => .bind (part input) fun outcome full prunes => ?_
  by_cases failed : outcome.success = false
  · simp only [failed]
    exact .pure_left fun _ _ _ _ => .of_barren failed (prunes.barren failed)
  · have succeeded : full.success = true := prunes.success (by simpa using failed)
    simp only [failed, succeeded]
    refine Layer.through_prunes ?_ prunes.readings
    rw [List.forall₂_map_left_iff, List.forall₂_map_right_iff]
    exact continues.imp fun next next' related reading outcome full ran ran' =>
      (related _ reading.rest outcome full ran ran').readings

theorem sequence_prunes {ps qs : List (Parser Run τ α)} (parts : List.Forall₂ Prunes ps qs) :
    (sequence ps).Prunes (sequence qs) := by
  intro input
  refine Layer.through_prunes ?_ (List.Subset.refl _)
  rw [List.forall₂_map_left_iff, List.forall₂_map_right_iff]
  exact parts.imp fun p q part reading outcome full ran ran' =>
    (map_prunes part _ reading.rest outcome full ran ran').readings

/-! ## Choices -/

theorem anyOfFrom_prunes {ps qs : List (Parser Run τ α)} (parts : List.Forall₂ Prunes ps qs)
    (input : Residual τ) {success success' : Bool} {readings others : List (Reading τ α)}
    {error error' : Option Diagnostic} (fewer : readings ⊆ others)
    (succeeds : success = true → success' = true) :
    (anyOfFrom input ps success readings error).Relates
      (anyOfFrom input qs success' others error') Outcome.Prunes := by
  induction parts generalizing success success' readings others error error' with
  | nil => exact .pure (.conclude fewer succeeds)
  | cons part later ih =>
    refine .bind (part input) fun outcome full prunes => ?_
    have more := List.subset_append_of_subset_left full.readings fewer
    by_cases succeeded : outcome.success = true
    · simp only [succeeded, prunes.success succeeded]
      apply ih
      · exact List.append_subset.mpr
          ⟨more, List.subset_append_of_subset_right _ prunes.readings⟩
      · exact fun _ => rfl
    · by_cases succeeded' : full.success = true
      · simp only [succeeded, succeeded']
        exact ih more fun _ => rfl
      · simp only [succeeded, succeeded']
        exact ih fewer succeeds

/-- What an exhaustive choice has collected stays. -/
theorem anyOfFrom_keeps (ps : List (Parser Run τ α)) (input : Residual τ)
    (readings : List (Reading τ α)) (error : Option Diagnostic) :
    (anyOfFrom input ps true readings error).Ensures fun full =>
      full.success = true ∧ readings ⊆ full.readings := by
  induction ps generalizing readings error with
  | nil => exact .pure ⟨rfl, List.Subset.refl _⟩
  | cons p others ih =>
    refine act_ensures _ fun outcome => ?_
    split
    · refine (ih _ _).mono fun full kept => ⟨kept.1, ?_⟩
      exact List.Subset.trans (List.subset_append_left _ _) kept.2
    · exact ih _ _

/-- The branch that an ordered choice takes is among those that an exhaustive choice takes. -/
theorem firstOfFrom_prunes {ps qs : List (Parser Run τ α)} (parts : List.Forall₂ Prunes ps qs)
    (input : Residual τ) {success : Bool} {others : List (Reading τ α)}
    {error error' : Option Diagnostic} :
    (firstOfFrom input ps error).Relates (anyOfFrom input qs success others error')
      Outcome.Prunes := by
  induction parts generalizing success others error error' with
  | nil => exact .pure_left fun _ _ _ _ => .failure
  | cons part later ih =>
    refine .bind (part input) fun outcome full prunes => ?_
    by_cases succeeded : outcome.success = true
    · simp only [succeeded, prunes.success succeeded]
      refine .pure_left ((anyOfFrom_keeps _ _ _ _).mono fun all kept => ?_)
      exact
        { readings := List.Subset.trans prunes.readings
            (List.Subset.trans (List.subset_append_right _ _) kept.2)
          success := fun _ => kept.1
          barren := prunes.barren }
    · by_cases succeeded' : full.success = true
      · simp only [succeeded, succeeded']
        exact ih
      · simp only [succeeded, succeeded']
        exact ih

theorem choice_prunes (policy : Policy) {ps qs : List (Parser Run τ α)}
    (parts : List.Forall₂ Prunes ps qs) : (choice policy ps).Prunes (choice .exhaustive qs) := by
  intro input
  cases policy with
  | exhaustive => exact anyOfFrom_prunes parts input (List.Subset.refl _) id
  | ordered => exact firstOfFrom_prunes parts input

theorem first_prunes (part : p.Prunes q) : (first p).Prunes q := by
  intro input outcome full gives gives'
  obtain ⟨outcome, ran, gives⟩ := Run.gives_bind gives
  obtain rfl := Run.gives_pure gives
  have prunes := part input outcome full ran gives'
  exact
    { readings := List.Subset.trans (List.take_subset 1 _) prunes.readings
      success := prunes.success
      barren := fun failed => by rw [prunes.barren failed, List.take_nil] }

/-! ## Repetitions -/

theorem round_prunes (part : p.Prunes q) {layer layer' : Layer τ (List α)}
    (fewer : layer.readings ⊆ layer'.readings) :
    (Repetition.round p layer).Relates (Repetition.round q layer')
      fun next next' => next.readings ⊆ next'.readings := by
  refine Layer.advance_prunes (fun reading => ?_) fewer
  refine .bind (part reading.rest) fun outcome full prunes => .pure ?_
  exact List.map_subset _ (List.filter_subset _ prunes.readings)

theorem layers_keep (p : Parser Run τ α) (rounds : Nat) (layer : Layer τ (List α)) :
    (Repetition.layers p rounds layer).Ensures fun explored =>
      layer.readings ⊆ explored.1.flatten := by
  cases rounds with
  | zero => exact .pure (by simp)
  | succ rounds =>
    refine act_ensures _ fun next => ?_
    split
    · exact .pure (by simp)
    · exact act_ensures _ fun deeper => .pure (by simp)

/-- The rounds go in step: while the first repetition reads more items, so does the second. -/
theorem layers_prune (part : p.Prunes q) (rounds : Nat) {layer layer' : Layer τ (List α)}
    (fewer : layer.readings ⊆ layer'.readings) :
    (Repetition.layers p rounds layer).Relates (Repetition.layers q rounds layer')
      fun explored explored' => explored.1.flatten ⊆ explored'.1.flatten := by
  induction rounds generalizing layer layer' with
  | zero =>
    apply Run.Relates.pure
    simpa using fewer
  | succ rounds ih =>
    intro explored explored' gives gives'
    have kept := (layers_keep q (rounds + 1) layer').of_gives gives'
    obtain ⟨next, round, gives⟩ := Run.gives_bind gives
    obtain ⟨next', round', gives'⟩ := Run.gives_bind gives'
    have fewer' := round_prunes part fewer next next' round round'
    by_cases empty : next.readings = []
    · simp only [empty, List.isEmpty_nil] at gives
      obtain rfl := Run.gives_pure gives
      simpa using List.Subset.trans fewer kept
    · simp only [List.isEmpty_iff, empty, ne_nil_of_subset fewer' empty] at gives gives'
      obtain ⟨deeper, further, gives⟩ := Run.gives_bind gives
      obtain ⟨deeper', further', gives'⟩ := Run.gives_bind gives'
      obtain rfl := Run.gives_pure gives
      obtain rfl := Run.gives_pure gives'
      rw [List.flatten_cons, List.flatten_cons, List.append_subset]
      exact ⟨List.subset_append_of_subset_left _ fewer,
        List.subset_append_of_subset_right _ (ih fewer' deeper deeper' further further')⟩

theorem exactly_prunes (part : p.Prunes q) (count : Nat) {layer layer' : Layer τ (List α)}
    (fewer : layer.readings ⊆ layer'.readings) :
    (Repetition.exactly p count layer).Relates (Repetition.exactly q count layer')
      Outcome.Prunes := by
  induction count generalizing layer layer' with
  | zero => exact .pure (.ofReadings fewer)
  | succ count ih =>
    refine .bind (round_prunes part fewer) fun next next' fewer' => ?_
    by_cases empty : next.readings = []
    · simp only [empty, List.isEmpty_nil]
      exact .pure_left fun _ _ _ _ => .failure
    · simp only [List.isEmpty_iff, empty, ne_nil_of_subset fewer' empty]
      exact ih fewer'

theorem getLastD_subset_flatten {A : Type} (lists : List (List A)) :
    lists.getLastD [] ⊆ lists.flatten := by
  induction lists using List.reverseRecOn with
  | nil => exact List.nil_subset _
  | append_singleton lists last ih => simp

theorem repeated_prunes (part : p.Prunes q) (extent : Extent) :
    (repeated extent p).Prunes (repeated extent.unpruned q) := by
  intro input
  have explored := layers_prune part (input.remaining + 1)
    (List.Subset.refl (Repetition.seed input : Layer τ (List α)).readings)
  cases extent with
  | exactly count => exact exactly_prunes part count (List.Subset.refl _)
  | shortestFirst => exact .bind explored fun _ _ fewer => .pure (.ofReadings fewer)
  | longestFirst =>
    refine .bind explored fun _ _ fewer => .pure (.ofReadings ?_)
    simpa using fewer
  | greedy =>
    refine .bind explored fun found all fewer => .pure (.ofReadings ?_)
    simpa using List.Subset.trans (getLastD_subset_flatten found.1) fewer

/-! ## Chains -/

theorem chainRight_prunes (policy : Policy) {op op' : Parser Run τ (α → α → α)}
    (part : p.Prunes q) (operators : op.Prunes op') :
    (chainRight policy p op).Prunes (chainRight .exhaustive q op') := by
  intro input
  generalize measured : input.remaining = remaining
  induction remaining using Nat.strongRecOn generalizing input with
  | ind remaining ih =>
    subst measured
    rw [chainRight, chainRight]
    refine bind_prunes part (fun left => choice_prunes policy
      (.cons (bind_prunes operators fun apply rest => ?_)
        (.cons (ofFunction_prunes (succeed_meets left)) .nil))) input
    by_cases shorter : rest.remaining < input.remaining
    · simp only [shorter, ↓reduceIte]
      exact .bind (ih _ shorter rest rfl) fun _ _ prunes => .pure (prunes.map (apply left))
    · simp only [shorter, ↓reduceIte]
      exact .abort

/-! ## Parsers that change an outcome or act on the machine -/

/-- A failure that is reported in other words has no readings. -/
theorem onFailure_prunes {reason reason' : Residual τ → Outcome τ α → Diagnostic}
    (part : p.Prunes q) :
    Prunes (fun input => do
        let outcome ← p input
        if outcome.success then pure outcome else pure (.failure (reason input outcome)))
      (fun input => do
        let outcome ← q input
        if outcome.success then pure outcome else pure (.failure (reason' input outcome))) := by
  refine fun input => .bind (part input) fun outcome full prunes => ?_
  by_cases succeeded : outcome.success = true
  · simp only [succeeded, prunes.success succeeded, ↓reduceIte]
    exact .pure prunes
  · simp only [succeeded]
    exact .pure_left fun _ _ _ _ => .failure

theorem gives_traced {θ : Type} [Observes θ Run] {tracer : θ} {name : String} {input : Residual τ}
    {outcome : Outcome τ α} (gives : (traced tracer name p input : Run _).Gives outcome) :
    (p input).Gives outcome := by
  obtain ⟨depth, -, gives⟩ := Run.gives_bind gives
  obtain ⟨outcome, ran, gives⟩ := Run.gives_bind gives
  obtain ⟨-, -, gives⟩ := Run.gives_bind gives
  obtain rfl := Run.gives_pure gives
  exact ran

theorem gives_deferred {cell : Nat} {input : Residual τ} {outcome : Outcome τ α}
    (gives : (deferred cell p input : Run _).Gives outcome) : (p input).Gives outcome := by
  obtain ⟨-, -, gives⟩ := Run.gives_bind gives
  exact gives

/-! ## Rests that a repetition reaches -/

/-- From the input the parser reads an item that consumes something and leaves the rest. -/
def Progresses (p : Parser Run τ α) (input rest : Residual τ) : Prop :=
  input.offset < rest.offset ∧
    ∃ outcome, (p input).Gives outcome ∧ ∃ reading ∈ outcome.readings, reading.rest = rest

section Reaches

variable {layer next : Layer τ (List α)} {reading found : Reading τ (List α)} {rest : Residual τ}
  {explored : List (List (Reading τ (List α))) × Option Diagnostic} {rounds : Nat}

theorem round_found (gives : (Repetition.round p layer).Gives next)
    (member : found ∈ next.readings) :
    ∃ reading ∈ layer.readings, p.Progresses reading.rest found.rest := by
  obtain ⟨reading, present, _, ran, here⟩ := Layer.advance_found gives member
  obtain ⟨outcome, read, last⟩ := Run.gives_bind ran
  obtain rfl := Run.gives_pure last
  obtain ⟨item, kept, rfl⟩ := List.mem_map.mp here
  obtain ⟨among, consumes⟩ := List.mem_filter.mp kept
  exact ⟨reading, present, of_decide_eq_true consumes, outcome, read, item, among, rfl⟩

theorem round_covers (part : p.Prunes q) (gives : (Repetition.round q layer).Gives next)
    (present : reading ∈ layer.readings) (progresses : p.Progresses reading.rest rest) :
    ∃ found ∈ next.readings, found.rest = rest := by
  obtain ⟨consumes, outcome, read, item, among, rfl⟩ := progresses
  obtain ⟨_, ran, kept⟩ := Layer.advance_covers gives present
  obtain ⟨full, read', last⟩ := Run.gives_bind ran
  obtain rfl := Run.gives_pure last
  have found := (part reading.rest outcome full read read').readings among
  refine ⟨item.map fun value => reading.value ++ [value], kept ?_, rfl⟩
  exact List.mem_map_of_mem (List.mem_filter.mpr ⟨found, decide_eq_true consumes⟩)

/-- Every reading of a repetition is reached from its first layer. -/
theorem layers_found (gives : (Repetition.layers p rounds layer).Gives explored)
    (member : found ∈ explored.1.flatten) :
    ∃ reading ∈ layer.readings, Relation.ReflTransGen p.Progresses reading.rest found.rest := by
  induction rounds generalizing layer explored with
  | zero =>
    obtain rfl := Run.gives_pure gives
    exact ⟨found, by simpa using member, .refl⟩
  | succ rounds ih =>
    obtain ⟨next, ran, gives⟩ := Run.gives_bind gives
    split at gives
    · obtain rfl := Run.gives_pure gives
      exact ⟨found, by simpa using member, .refl⟩
    · obtain ⟨deeper, further, gives⟩ := Run.gives_bind gives
      obtain rfl := Run.gives_pure gives
      rw [List.flatten_cons] at member
      rcases List.mem_append.mp member with here | there
      · exact ⟨found, here, .refl⟩
      · obtain ⟨middle, among, reaches⟩ := ih further there
        obtain ⟨reading, present, progresses⟩ := round_found ran among
        exact ⟨reading, present, .head progresses reaches⟩

/-- Whatever can be reached from a layer is found, if the rounds are as many as the tokens. -/
theorem layers_cover (part : p.Prunes q) (follows : q.Meets .following)
    (gives : (Repetition.layers q rounds layer).Gives explored)
    (enough : ∀ reading ∈ layer.readings, reading.rest.remaining < rounds)
    (present : reading ∈ layer.readings)
    (reaches : Relation.ReflTransGen p.Progresses reading.rest rest) :
    ∃ found ∈ explored.1.flatten, found.rest = rest := by
  induction rounds generalizing layer explored reading with
  | zero => exact absurd (enough reading present) (Nat.not_lt_zero _)
  | succ rounds ih =>
    have kept := (layers_keep q (rounds + 1) layer).of_gives gives
    obtain ⟨next, ran, gives⟩ := Run.gives_bind gives
    have fewer : ∀ found ∈ next.readings, found.rest.remaining < rounds := by
      intro found member
      obtain ⟨before, among, consumes, outcome, read, item, here, same⟩ := round_found ran member
      have total := (((follows before.rest).of_gives read).leaves item here).total_eq
      have bounded := enough before among
      rw [same] at total
      omega
    rcases Relation.ReflTransGen.cases_head reaches with rfl | ⟨middle, progresses, later⟩
    · exact ⟨reading, kept present, rfl⟩
    · obtain ⟨step, member, rfl⟩ := round_covers part ran present progresses
      have nonempty : next.readings ≠ [] := List.ne_nil_of_mem member
      simp only [List.isEmpty_iff, nonempty] at gives
      obtain ⟨deeper, further, gives⟩ := Run.gives_bind gives
      obtain rfl := Run.gives_pure gives
      obtain ⟨found, among, same⟩ := ih further fewer member later
      exact ⟨found, List.mem_append_right _ among, same⟩

theorem greedy_found {input : Residual τ} {outcome : Outcome τ (List α)}
    (gives : (repeated .greedy p input : Run _).Gives outcome) :
    outcome.success = true ∧ ∀ reading ∈ outcome.readings,
      Relation.ReflTransGen p.Progresses input reading.rest := by
  obtain ⟨explored, explores, last⟩ := Run.gives_bind gives
  obtain rfl := Run.gives_pure last
  refine ⟨rfl, fun reading member => ?_⟩
  obtain ⟨first, present, reaches⟩ :=
    layers_found explores (getLastD_subset_flatten explored.1 member)
  obtain rfl := List.mem_singleton.mp present
  exact reaches

theorem many_covers (part : p.Prunes q) (follows : q.Meets .following) {input : Residual τ}
    {outcome : Outcome τ (List α)}
    (gives : (repeated .longestFirst q input : Run _).Gives outcome)
    (reaches : Relation.ReflTransGen p.Progresses input rest) :
    ∃ found ∈ outcome.readings, found.rest = rest := by
  obtain ⟨explored, explores, last⟩ := Run.gives_bind gives
  obtain rfl := Run.gives_pure last
  obtain ⟨found, member, same⟩ := layers_cover part follows explores
    (by simp [Repetition.seed]) (List.mem_singleton_self _) reaches
  exact ⟨found, List.mem_reverse.mpr member, same⟩

/-- An item and then many of them lead to every rest that is reached in one step or more. -/
theorem itemAndMany_covers (part : p.Prunes q) (follows : q.Meets .following)
    {input middle : Residual τ} {outcome : Outcome τ (α × List α)}
    (gives : (bind q (fun left => map (fun right => (left, right)) (repeated .longestFirst q))
      input : Run _).Gives outcome)
    (progresses : p.Progresses input middle)
    (reaches : Relation.ReflTransGen p.Progresses middle rest) :
    outcome.success = true ∧ ∃ found ∈ outcome.readings, found.rest = rest := by
  obtain ⟨-, pruned, read, item, among, rfl⟩ := progresses
  obtain ⟨first, ran, gives⟩ := Run.gives_bind gives
  have prunes := part input pruned first read ran
  have succeeded : first.success = true := by
    apply prunes.success
    by_contra failed
    rw [prunes.barren (by simpa using failed)] at among
    exact absurd among List.not_mem_nil
  simp only [succeeded] at gives
  obtain ⟨layer, advances, last⟩ := Run.gives_bind gives
  obtain rfl := Run.gives_pure last
  obtain ⟨_, stage, kept⟩ := Layer.advance_covers advances (prunes.readings among)
  obtain ⟨many, repeats, rfl⟩ := gives_map stage
  obtain ⟨found, member, same⟩ := many_covers part follows repeats reaches
  have here := kept (List.mem_map_of_mem member)
  have nonempty : layer.readings.isEmpty = false := by
    simpa using List.ne_nil_of_mem here
  rw [Layer.conclude, nonempty]
  exact ⟨rfl, _, here, same⟩

/-- Beside nothing at all, an exhaustive choice keeps what its other branch finds. -/
theorem orNothing_covers {q : Parser Run τ β} {value : β} {input : Residual τ} {full : Outcome τ β}
    (gives : (anyOf [q, succeed value] input : Run _).Gives full) :
    full.success = true ∧ ⟨value, input⟩ ∈ full.readings ∧ ∃ outcome, (q input).Gives outcome ∧
      (outcome.success = true → outcome.readings ⊆ full.readings) := by
  obtain ⟨outcome, ran, gives⟩ := Run.gives_bind gives
  by_cases succeeded : outcome.success = true
  · simp only [succeeded] at gives
    obtain ⟨_, succeeds, gives⟩ := Run.gives_bind gives
    obtain rfl := Run.gives_pure succeeds
    obtain rfl := Run.gives_pure gives
    refine ⟨rfl, ?_, outcome, ran, fun _ => ?_⟩
    · exact List.mem_append_right _ List.mem_cons_self
    · exact List.subset_append_left _ _
  · simp only [succeeded] at gives
    obtain ⟨_, succeeds, gives⟩ := Run.gives_bind gives
    obtain rfl := Run.gives_pure succeeds
    obtain rfl := Run.gives_pure gives
    exact ⟨rfl, List.mem_cons_self, outcome, ran, fun success => absurd success succeeded⟩

end Reaches

end Parser

end Multiparse
