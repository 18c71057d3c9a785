import Multiparse.Proofs.Ending
import Multiparse.Proofs.Fragment
import Multiparse.Proofs.Shift

/-!
# Plain runs and runs on a machine

A grammar can be run plainly, without anybody watching, or on a machine that keeps records. Unless
it looks at the depth of a tracer, what it returns does not depend on the machine, nor on how many
tokens stand before its input: the run on a machine mirrors the plain one, with all offsets moved
along (`Grammar.run_mirrors`).
-/

namespace Multiparse

namespace Run

variable {A B C : Type}

/-- From every machine the run returns the image of what the plain run returns, or nothing if the
plain run stops. -/
def Mirrors (f : A → B) (plain : Except Fault A) (run : Run B) : Prop :=
  ∀ before result,
    (∃ after, run.Ends before result after) ↔ ∃ value, plain = .ok value ∧ f value = result

namespace Mirrors

variable {f : A → B} {plain : Except Fault A} {run : Run B}

theorem returns_iff (mirrors : Mirrors f plain run) (before : Machine) :
    (∃ result after, run.Ends before result after) ↔ ∃ value, plain = .ok value := by
  constructor
  · rintro ⟨result, ended⟩
    obtain ⟨value, returned, -⟩ := (mirrors before result).mp ended
    exact ⟨value, returned⟩
  · rintro ⟨value, returned⟩
    exact ⟨f value, (mirrors before (f value)).mpr ⟨value, returned, rfl⟩⟩

theorem pure {value : A} {image : B} (same : f value = image) :
    Mirrors f (pure value) (pure image) := by
  intro before result
  constructor
  · rintro ⟨after, ended⟩
    obtain ⟨rfl, -⟩ := ends_pure.mp ended
    exact ⟨value, rfl, same⟩
  · rintro ⟨_, returned, rfl⟩
    obtain rfl := Except.ok.inj returned
    exact ⟨before, ends_pure.mpr ⟨same.symm, rfl⟩⟩

theorem bind {D : Type} {g : C → D} {next : A → Except Fault C} {next' : B → Run D}
    (first : Mirrors f plain run) (continues : ∀ value, Mirrors g (next value) (next' (f value))) :
    Mirrors g (plain >>= next) (run >>= next') := by
  intro before result
  constructor
  · rintro ⟨after, ended⟩
    obtain ⟨image, middle, firstEnds, nextEnds⟩ := ends_bind.mp ended
    obtain ⟨value, rfl, rfl⟩ := (first before image).mp ⟨middle, firstEnds⟩
    exact (continues value middle result).mp ⟨after, nextEnds⟩
  · rintro ⟨final, returned, same⟩
    cases plain with
    | error fault => cases returned
    | ok value =>
      obtain ⟨middle, firstEnds⟩ := (first before (f value)).mpr ⟨value, rfl, rfl⟩
      obtain ⟨after, nextEnds⟩ := (continues value middle result).mpr ⟨final, returned, same⟩
      exact ⟨after, ends_bind.mpr ⟨f value, middle, firstEnds, nextEnds⟩⟩

theorem abort {fault fault' : Fault} :
    Mirrors f (Aborts.abort fault) (Aborts.abort fault') := by
  intro before result
  constructor
  · rintro ⟨after, ended⟩
    exact absurd ended not_ends_abort
  · rintro ⟨value, returned, -⟩
    cases returned

/-- What the machine does besides makes no difference, as long as it is done with. -/
theorem act {action : Run C} {next : C → Run B}
    (done : ∀ before, ∃ value after, action.Ends before value after)
    (continues : ∀ value, Mirrors f plain (next value)) : Mirrors f plain (action >>= next) := by
  intro before result
  constructor
  · rintro ⟨after, ended⟩
    obtain ⟨value, middle, -, nextEnds⟩ := ends_bind.mp ended
    exact (continues value middle result).mp ⟨after, nextEnds⟩
  · intro returned
    obtain ⟨value, middle, acted⟩ := done before
    obtain ⟨after, nextEnds⟩ := (continues value middle result).mpr returned
    exact ⟨after, ends_bind.mpr ⟨value, middle, acted, nextEnds⟩⟩

end Mirrors

end Run

open Run

variable {τ α β : Type} {count : Nat}

/-- From every machine the parser does behind `count` more tokens what the plain one does. -/
def Parser.Mirrors (count : Nat) (plain : Parser (Except Fault) τ α) (p : Parser Run τ α) : Prop :=
  ∀ input, Run.Mirrors (Outcome.shift count) (plain input) (p (input.shift count))

/-! ## Sequences -/

theorem Layer.advance_mirrors {stage : Reading τ α → Except Fault (Outcome τ β)}
    {stage' : Reading τ α → Run (Outcome τ β)}
    (stages : ∀ reading,
      Run.Mirrors (Outcome.shift count) (stage reading) (stage' (reading.shift count)))
    (readings : List (Reading τ α)) (error : Option Diagnostic) :
    Run.Mirrors (Layer.shift count) (Layer.advance stage readings error)
      (Layer.advance stage' (readings.map (Reading.shift count))
        (error.map (Diagnostic.shift count))) := by
  induction readings generalizing error with
  | nil => exact .pure rfl
  | cons reading others ih =>
    refine .bind (stages reading) fun outcome => ?_
    have later := ih (Diagnostic.farthest error outcome.error)
    rw [← Diagnostic.farthest_shift] at later
    refine .bind later fun layer => .pure ?_
    exact congrArg (Layer.mk · _) List.map_append

theorem Layer.through_mirrors {stages : List (Reading τ α → Except Fault (Outcome τ α))}
    {stages' : List (Reading τ α → Run (Outcome τ α))}
    (each : List.Forall₂ (fun stage stage' => ∀ reading,
      Run.Mirrors (Outcome.shift count) (stage reading) (stage' (reading.shift count)))
      stages stages')
    (layer : Layer τ α) :
    Run.Mirrors (Outcome.shift count) (Layer.through stages layer)
      (Layer.through stages' (layer.shift count)) := by
  induction each generalizing layer with
  | nil => exact .pure rfl
  | cons stage others ih =>
    refine .bind (Layer.advance_mirrors stage _ _) fun next => ?_
    rw [Layer.isEmpty_shift]
    by_cases empty : next.readings.isEmpty = true
    · simp only [empty]
      exact .pure (Outcome.conclude_shift count false [] next.error).symm
    · simp only [empty]
      exact ih next

namespace Parser

variable {plain : Parser (Except Fault) τ α} {p : Parser Run τ α}

/-- A plain function that moves along with its input. -/
theorem ofFunction_mirrors {run : Residual τ → Outcome τ α}
    (moves : ∀ input, (run input).shift count = run (input.shift count)) :
    Mirrors count (ofFunction run) (ofFunction run) :=
  fun input => .pure (moves input)

theorem succeed_mirrors (value : α) : Mirrors (τ := τ) count (succeed value) (succeed value) :=
  ofFunction_mirrors fun _ => rfl

theorem map_mirrors (part : Mirrors count plain p) (f : α → β) :
    Mirrors count (map f plain) (map f p) :=
  fun input => .bind (part input) fun outcome => .pure (Outcome.map_shift count f outcome).symm

theorem bind_mirrors {next : α → Parser (Except Fault) τ β} {next' : α → Parser Run τ β}
    (part : Mirrors count plain p) (continues : ∀ value, Mirrors count (next value) (next' value)) :
    Mirrors count (bind plain next) (bind p next') := by
  intro input
  refine .bind (part input) fun first => ?_
  rw [Outcome.shift_success]
  by_cases failed : first.success = false
  · simp only [failed]
    exact .pure rfl
  · simp only [failed]
    refine .bind (Layer.advance_mirrors (fun reading => continues _ reading.rest) _ _)
      fun layer => .pure (Layer.conclude_shift count layer).symm

theorem bindAll_mirrors {nexts : List (α → Parser (Except Fault) τ α)}
    {nexts' : List (α → Parser Run τ α)} (part : Mirrors count plain p)
    (continues : List.Forall₂ (fun next next' => ∀ value, Mirrors count (next value) (next' value))
      nexts nexts') :
    Mirrors count (bindAll plain nexts) (bindAll p nexts') := by
  intro input
  refine .bind (part input) fun first => ?_
  rw [Outcome.shift_success]
  by_cases failed : first.success = false
  · simp only [failed]
    exact .pure rfl
  · simp only [failed]
    refine Layer.through_mirrors ?_ ⟨first.readings, first.error⟩
    rw [List.forall₂_map_left_iff, List.forall₂_map_right_iff]
    exact continues.imp fun _ _ next (reading : Reading τ α) => next reading.value reading.rest

theorem sequence_mirrors {plains : List (Parser (Except Fault) τ α)} {ps : List (Parser Run τ α)}
    (parts : List.Forall₂ (Mirrors count) plains ps) :
    Mirrors count (sequence plains) (sequence ps) := by
  intro input
  refine Layer.through_mirrors ?_ ⟨[⟨[], input⟩], none⟩
  rw [List.forall₂_map_left_iff, List.forall₂_map_right_iff]
  exact parts.imp fun _ _ part (reading : Reading τ (List α)) => map_mirrors part _ reading.rest

/-! ## Choices -/

theorem anyOfFrom_mirrors {plains : List (Parser (Except Fault) τ α)} {ps : List (Parser Run τ α)}
    (parts : List.Forall₂ (Mirrors count) plains ps) (input : Residual τ) (success : Bool)
    (readings : List (Reading τ α)) (error : Option Diagnostic) :
    Run.Mirrors (Outcome.shift count) (anyOfFrom input plains success readings error)
      (anyOfFrom (input.shift count) ps success (readings.map (Reading.shift count))
        (error.map (Diagnostic.shift count))) := by
  induction parts generalizing success readings error with
  | nil => exact .pure (Outcome.conclude_shift count success readings error).symm
  | cons part others ih =>
    refine .bind (part input) fun outcome => ?_
    have merged := Diagnostic.farthest_shift count error outcome.error
    rw [Outcome.shift_success]
    by_cases succeeded : outcome.success = true
    · have later := ih true (readings ++ outcome.readings)
        (Diagnostic.farthest error outcome.error)
      rw [List.map_append, ← merged] at later
      simp only [succeeded]
      exact later
    · have later := ih success readings (Diagnostic.farthest error outcome.error)
      rw [← merged] at later
      simp only [succeeded]
      exact later

theorem firstOfFrom_mirrors {plains : List (Parser (Except Fault) τ α)}
    {ps : List (Parser Run τ α)} (parts : List.Forall₂ (Mirrors count) plains ps)
    (input : Residual τ) (error : Option Diagnostic) :
    Run.Mirrors (Outcome.shift count) (firstOfFrom input plains error)
      (firstOfFrom (input.shift count) ps (error.map (Diagnostic.shift count))) := by
  induction parts generalizing error with
  | nil => exact .pure (Outcome.conclude_shift count false [] error).symm
  | cons part others ih =>
    refine .bind (part input) fun outcome => ?_
    rw [Outcome.shift_success]
    by_cases succeeded : outcome.success = true
    · simp only [succeeded]
      exact .pure (Outcome.withEarlier_shift count error outcome).symm
    · have later := ih (Diagnostic.farthest error outcome.error)
      rw [← Diagnostic.farthest_shift] at later
      simp only [succeeded]
      exact later

theorem choice_mirrors (policy : Policy) {plains : List (Parser (Except Fault) τ α)}
    {ps : List (Parser Run τ α)} (parts : List.Forall₂ (Mirrors count) plains ps) :
    Mirrors count (choice policy plains) (choice policy ps) := by
  intro input
  cases policy with
  | exhaustive => exact anyOfFrom_mirrors parts input false [] none
  | ordered => exact firstOfFrom_mirrors parts input none

theorem first_mirrors (part : Mirrors count plain p) : Mirrors count (first plain) (first p) := by
  refine fun input => .bind (part input) fun outcome => .pure ?_
  exact congrArg (Outcome.mk _ · _) List.map_take

/-! ## Repetitions -/

theorem round_mirrors (part : Mirrors count plain p) (layer : Layer τ (List α)) :
    Run.Mirrors (Layer.shift count) (Repetition.round plain layer)
      (Repetition.round p (layer.shift count)) := by
  refine Layer.advance_mirrors (fun reading => ?_) _ _
  refine .bind (part reading.rest) fun outcome => .pure ?_
  rw [← Outcome.map_shift, ← Repetition.progressing_shift]
  rfl

theorem layers_mirrors (part : Mirrors count plain p) (rounds : Nat) (layer : Layer τ (List α)) :
    Run.Mirrors (Prod.map (List.map (List.map (Reading.shift count)))
        (Option.map (Diagnostic.shift count)))
      (Repetition.layers plain rounds layer)
      (Repetition.layers p rounds (layer.shift count)) := by
  induction rounds generalizing layer with
  | zero => exact .pure rfl
  | succ rounds ih =>
    refine .bind (round_mirrors part layer) fun next => ?_
    rw [Layer.isEmpty_shift]
    by_cases empty : next.readings.isEmpty = true
    · simp only [empty]
      exact .pure rfl
    · simp only [empty]
      exact .bind (ih next) fun _ => .pure rfl

theorem exactly_mirrors (part : Mirrors count plain p) (items : Nat) (layer : Layer τ (List α)) :
    Run.Mirrors (Outcome.shift count) (Repetition.exactly plain items layer)
      (Repetition.exactly p items (layer.shift count)) := by
  induction items generalizing layer with
  | zero => exact .pure rfl
  | succ items ih =>
    refine .bind (round_mirrors part layer) fun next => ?_
    rw [Layer.isEmpty_shift]
    by_cases empty : next.readings.isEmpty = true
    · simp only [empty]
      exact .pure (Outcome.conclude_shift count false [] next.error).symm
    · simp only [empty]
      exact ih next

theorem repeated_mirrors (part : Mirrors count plain p) (extent : Extent) :
    Mirrors count (repeated extent plain) (repeated extent p) := by
  intro input
  have explored := layers_mirrors part (input.remaining + 1) (Repetition.seed input)
  cases extent with
  | exactly items => exact exactly_mirrors part items (Repetition.seed input)
  | shortestFirst =>
    refine .bind explored fun result => .pure ?_
    exact congrArg (Outcome.ofReadings · _) List.map_flatten
  | longestFirst =>
    refine .bind explored fun result => .pure ?_
    refine congrArg (Outcome.ofReadings · _) ?_
    change result.1.flatten.reverse.map (Reading.shift count) = _
    rw [List.map_reverse, List.map_flatten]
  | greedy =>
    refine .bind explored fun result => .pure ?_
    refine congrArg (Outcome.ofReadings · _) ?_
    rw [List.getLastD_eq_getLast?, List.getLastD_eq_getLast?]
    simp only [List.getLast?_map]
    cases result.1.getLast? <;> rfl

/-! ## Chains -/

theorem chainRight_mirrors (policy : Policy) {op : Parser (Except Fault) τ (α → α → α)}
    {op' : Parser Run τ (α → α → α)} (part : Mirrors count plain p)
    (operators : Mirrors count op op') :
    Mirrors count (chainRight policy plain op) (chainRight policy p op') := by
  intro input
  generalize measured : input.remaining = remaining
  induction remaining using Nat.strongRecOn generalizing input with
  | ind remaining ih =>
    subst measured
    rw [chainRight, chainRight]
    refine bind_mirrors part (fun left => ?_) input
    refine choice_mirrors policy (.cons (bind_mirrors operators fun apply rest => ?_)
      (.cons (succeed_mirrors left) .nil))
    simp only [Residual.shift_remaining]
    by_cases shorter : rest.remaining < input.remaining
    · simp only [shorter, ↓reduceIte]
      exact .bind (ih _ shorter rest rfl) fun outcome =>
        .pure (Outcome.map_shift count (apply left) outcome).symm
    · simp only [shorter, ↓reduceIte]
      exact .abort

/-! ## Single tokens -/

theorem satisfy_mirrors [Token τ] (accepts : τ → Bool) (expected : String) :
    Mirrors count (satisfy accepts expected) (satisfy accepts expected) := by
  refine ofFunction_mirrors fun input => ?_
  obtain ⟨tokens, offset⟩ := input
  cases tokens with
  | nil => rfl
  | cons token tokens =>
    simp only [Residual.peek?, Residual.shift, List.head?_cons]
    by_cases accepted : accepts token = true
    · simp only [accepted, ↓reduceIte]
      exact congrArg (fun rest => Outcome.ofReadings [⟨token, rest⟩] none)
        (Residual.advance_shift count ⟨token :: tokens, offset⟩).symm
    · simp only [accepted]
      rfl

theorem fail_mirrors (message : String) :
    Mirrors (τ := τ) (α := α) count (fail message) (fail message) := by
  refine ofFunction_mirrors fun input => ?_
  rw [Residual.position_shift]
  rfl

theorem endOfInput_mirrors [Token τ] : Mirrors (τ := τ) count endOfInput endOfInput := by
  refine ofFunction_mirrors fun input => ?_
  obtain ⟨tokens, offset⟩ := input
  cases tokens <;> rfl

/-! ## Parsers that change an outcome -/

theorem gather_mirrors (part : Mirrors count plain p) :
    Mirrors count (gather plain) (gather p) := by
  refine fun input => .bind (part input) fun outcome => ?_
  rw [Outcome.shift_success]
  by_cases failed : outcome.success = false
  · simp only [failed]
    exact .pure rfl
  · simp only [failed]
    exact .pure (congrArg (Outcome.ofReadings · _) (Reading.group_shift count _).symm)

theorem lookAhead_mirrors (part : Mirrors count plain p) :
    Mirrors count (lookAhead plain) (lookAhead p) := by
  refine fun input => .bind (part input) fun outcome => ?_
  rw [Outcome.shift_success, Outcome.values_shift]
  by_cases failed : outcome.success = false
  · simp only [failed]
    exact .pure rfl
  · simp only [failed]
    exact .pure rfl

theorem notAhead_mirrors [Token τ] (part : Mirrors count plain p) :
    Mirrors count (notAhead plain) (notAhead p) := by
  refine fun input => .bind (part input) fun outcome => ?_
  rw [Outcome.shift_success, unexpectedMatch_shift]
  by_cases succeeded : outcome.success = true
  · simp only [succeeded]
    exact .pure rfl
  · simp only [succeeded]
    exact .pure rfl

theorem reportAs_mirrors (part : Mirrors count plain p) (message : String) :
    Mirrors count (reportAs message plain) (reportAs message p) := by
  refine fun input => .bind (part input) fun outcome => ?_
  rw [Outcome.shift_success]
  by_cases succeeded : outcome.success = true
  · simp only [succeeded]
    exact .pure rfl
  · simp only [succeeded]
    exact .pure (congrArg Outcome.failure (Diagnostic.rephrase_shift count message _).symm)

theorem recover_mirrors (part : Mirrors count plain p) (message : String) (default : α) :
    Mirrors count (recover message default plain) (recover message default p) := by
  refine fun input => .bind (part input) fun outcome => ?_
  rw [Outcome.shift_success]
  by_cases succeeded : outcome.success = true
  · simp only [succeeded]
    exact .pure rfl
  · simp only [succeeded]
    exact .pure (congrArg (Outcome.ofReadings _ <| some ·)
      (Diagnostic.rephrase_shift count message _).symm)

theorem named_mirrors (part : Mirrors count plain p) (name : String) :
    Mirrors count (named name plain) (named name p) := by
  refine fun input => .bind (part input) fun outcome => ?_
  rw [Outcome.shift_success, Residual.position_shift]
  by_cases succeeded : outcome.success = true
  · simp only [succeeded]
    exact .pure rfl
  · simp only [succeeded]
    exact .pure (congrArg Outcome.failure (Diagnostic.wantedAs_shift count name _ _).symm)

theorem deferred_mirrors (cell : Nat) (part : Mirrors count plain p) :
    Mirrors count (deferred cell plain) (deferred cell p) :=
  fun input => .act (fun _ => ⟨(), _, rfl⟩) fun _ => part input

end Parser

/-! ## Grammars -/

/-- Watching through a tracer never stops a run. -/
class Unobtrusive (θ : Type) [Observes θ Run] : Prop where
  enters : ∀ (tracer : θ) (name : String) (position : Position) (before : Machine),
    ∃ depth after, (Observes.enter tracer name position : Run Nat).Ends before depth after
  leaves : ∀ (tracer : θ) (exit : Option Event) (before : Machine),
    ∃ nothing after, (Observes.leave tracer exit : Run Unit).Ends before nothing after

instance : Unobtrusive Nat where
  enters _ _ _ _ := ⟨_, _, rfl⟩
  leaves _ _ _ := ⟨_, _, rfl⟩

theorem Parser.traced_mirrors {θ : Type} [Observes θ Run] [Unobtrusive θ] (tracer : θ)
    (name : String) {plain : Parser (Except Fault) τ α} {p : Parser Run τ α}
    (part : Mirrors count plain p) :
    Mirrors count (traced tracer name plain) (traced tracer name p) := by
  intro input
  refine .act (Unobtrusive.enters tracer name _) fun depth => ?_
  change Run.Mirrors _ (plain input >>= fun outcome => pure outcome) _
  exact .bind (part input) fun outcome =>
    .act (Unobtrusive.leaves tracer _) fun _ => .pure rfl

/-- The form gives away neither the machine nor how many tokens stand before the input. -/
def Form.Blind (form : Form) : Prop := form ≠ .custom ∧ form ≠ .withDepth

variable {N : Names} [Observes N.Tracer Run] [Unobtrusive N.Tracer] [Token τ]

theorem Grammar.interpret_mirrors
    {plains : (rule : N.Rule) → Parser (Except Fault) τ (N.Result rule)}
    {call : (rule : N.Rule) → Parser Run τ (N.Result rule)}
    (called : ∀ rule, Parser.Mirrors count (plains rule) (call rule)) (g : Grammar N τ α)
    (built : g.BuiltFrom Form.Blind) :
    Parser.Mirrors count (g.interpret plains) (g.interpret call) := by
  induction g with
  | satisfy accepts expected => exact Parser.satisfy_mirrors accepts expected
  | succeed value => exact Parser.succeed_mirrors value
  | fail message => exact Parser.fail_mirrors message
  | endOfInput => exact Parser.endOfInput_mirrors
  | custom run => exact absurd rfl built.1
  | map f p ih => exact Parser.map_mirrors (ih built.2) f
  | sequence ps ih => exact Parser.sequence_mirrors (forall₂_ofFn fun i => ih i (built.2 i))
  | bind p held next ih ihNext =>
    exact Parser.bind_mirrors (ih built.2.1) fun value => ihNext value (built.2.2 value)
  | bindAll p held nexts ih ihNexts =>
    exact Parser.bindAll_mirrors (ih built.2.1)
      (forall₂_ofFn fun i value => ihNexts i value (built.2.2 i value))
  | choice policy ps ih =>
    exact Parser.choice_mirrors policy (forall₂_ofFn fun i => ih i (built.2 i))
  | first p ih => exact Parser.first_mirrors (ih built.2)
  | repeated extent p ih => exact Parser.repeated_mirrors (ih built.2) extent
  | chainRight policy p op ih ihOp =>
    exact Parser.chainRight_mirrors policy (ih built.2.1) (ihOp built.2.2)
  | gather p ih => exact Parser.gather_mirrors (ih built.2)
  | reportAs message p ih => exact Parser.reportAs_mirrors (ih built.2) message
  | recover message default p ih => exact Parser.recover_mirrors (ih built.2) message default
  | named name p ih => exact Parser.named_mirrors (ih built.2) name
  | lookAhead p ih => exact Parser.lookAhead_mirrors (ih built.2)
  | notAhead p ih => exact Parser.notAhead_mirrors (ih built.2)
  | traced tracer name p ih => exact Parser.traced_mirrors tracer name (ih built.2)
  | withDepth tracer p ih => exact absurd rfl built.1.2
  | deferred cell p ih => exact Parser.deferred_mirrors cell (ih built.2)
  | rule r => exact called r

theorem Rules.call_mirrors {rules : Rules N τ} (built : rules.BuiltFrom Form.Blind) (limit : Nat)
    (rule : N.Rule) : Parser.Mirrors count (rules.call limit rule) (rules.call limit rule) := by
  induction limit generalizing rule with
  | zero => exact fun input => .abort
  | succ limit ih =>
    intro input
    rw [Rules.call, Rules.call]
    cases found : rules rule with
    | error fault => exact .abort
    | ok pattern => exact Grammar.interpret_mirrors ih pattern (built rule pattern found) input

/-- Behind more tokens and on any machine, a grammar does what it does in a plain run. -/
theorem Grammar.run_mirrors (count : Nat) {rules : Rules N τ}
    (rulesBuilt : rules.BuiltFrom Form.Blind) (limit : Nat) {g : Grammar N τ α}
    (built : g.BuiltFrom Form.Blind) :
    Parser.Mirrors count (g.run rules limit) (g.run rules limit) :=
  Grammar.interpret_mirrors (Rules.call_mirrors rulesBuilt limit) g built

end Multiparse
