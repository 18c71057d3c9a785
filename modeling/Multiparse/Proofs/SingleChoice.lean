import Multiparse.Proofs.Texts
import Multiparse.Proofs.WholeInput

/-!
# Grammars that keep a single choice

Readings multiply where a choice or a repetition keeps more than one way to go on. A grammar in
which the first success and the longest repetition are all that counts has at most one reading
(`at_most_one_reading`). What stands behind a step that keeps the first reading only, or that only
looks ahead, does not matter for that.
-/

namespace Multiparse

variable {τ α β : Type}

/-! ## The fragment -/

/-- Only one layer of a repetition is kept. -/
def Extent.KeepsOne : Extent → Prop
  | .greedy | .exactly _ => True
  | .shortestFirst | .longestFirst => False

variable {N : Names}

/-- Wherever readings could multiply, one way is kept. Rules may be referred to if they belong to
the fragment, and any others within a part of which only the first reading counts or that only looks
ahead. -/
def Grammar.SingleChoice (single : N.Rule → Prop) {α : Type} : Grammar N τ α → Prop
  | satisfy _ _ => True
  | succeed _ => True
  | fail _ => True
  | endOfInput => True
  | custom run => ∀ input, (run input).readings.length ≤ 1
  | map _ p => p.SingleChoice single
  | sequence ps => ∀ i, (ps i).SingleChoice single
  | bind p _ next => p.SingleChoice single ∧ ∀ value, (next value).SingleChoice single
  | bindAll p _ nexts => p.SingleChoice single ∧ ∀ i value, (nexts i value).SingleChoice single
  | choice policy ps => policy = .ordered ∧ ∀ i, (ps i).SingleChoice single
  | first _ => True
  | repeated extent p => extent.KeepsOne ∧ p.SingleChoice single
  | chainRight policy p op => policy = .ordered ∧ p.SingleChoice single ∧ op.SingleChoice single
  | gather p => p.SingleChoice single
  | reportAs _ p => p.SingleChoice single
  | recover _ _ p => p.SingleChoice single
  | named _ p => p.SingleChoice single
  | lookAhead _ => True
  | notAhead _ => True
  | traced _ _ p => p.SingleChoice single
  | withDepth _ p => p.SingleChoice single
  | deferred _ p => p.SingleChoice single
  | rule r => single r

/-- The patterns of the rules that may be referred to belong to the fragment. -/
def Rules.SingleChoice (single : N.Rule → Prop) (rules : Rules N τ) : Prop :=
  ∀ rule pattern, single rule → rules rule = .ok pattern → pattern.SingleChoice single

namespace Grammar

variable {single : N.Rule → Prop} {p : Grammar N τ α} {q : Grammar N τ β}

theorem pair_singleChoice (left : p.SingleChoice single) (right : q.SingleChoice single) :
    (pair p q).SingleChoice single :=
  ⟨left, fun _ => right⟩

theorem choiceOf_singleChoice {ps : List (Grammar N τ α)}
    (parts : ∀ p ∈ ps, p.SingleChoice single) : (choiceOf .ordered ps).SingleChoice single :=
  ⟨rfl, fun i => parts _ (List.get_mem ps i)⟩

theorem choiceOfTwo_singleChoice {p p' : Grammar N τ α} (first : p.SingleChoice single)
    (second : p'.SingleChoice single) : (choiceOf .ordered [p, p']).SingleChoice single := by
  apply choiceOf_singleChoice
  intro branch member
  rcases List.mem_pair.mp member with rfl | rfl
  · exact first
  · exact second

theorem optional_singleChoice (part : p.SingleChoice single) :
    (optional .ordered p).SingleChoice single := by
  apply choiceOfTwo_singleChoice
  · exact part
  · trivial

/-- What is derived with ordered choices and greedy repetitions belongs to the fragment if its parts
do. -/
theorem derived_singleChoice {op : Grammar N τ (α → α → α)} (first : p.SingleChoice single)
    (second : q.SingleChoice single) (operator : op.SingleChoice single) (count : Nat)
    (default : α) (f : α → β → α) :
    (either .ordered p q).SingleChoice single ∧
    (oneAnd .greedy p).SingleChoice single ∧
    (listOf .ordered p q).SingleChoice single ∧
    (listOfExactly count p q).SingleChoice single ∧
    (separatedBy .ordered p q).SingleChoice single ∧
    (foldLeft .ordered f p q).SingleChoice single ∧
    (chainLeft .ordered p op).SingleChoice single ∧
    (chainLeftOr .ordered default p op).SingleChoice single ∧
    (chainRightOr .ordered default p op).SingleChoice single ∧
    (skip .ordered p).SingleChoice single ∧
    (skipManyGreedy p).SingleChoice single ∧
    (skipSomeGreedy p).SingleChoice single ∧
    (trim .ordered p q).SingleChoice single := by
  have following : (keepRight q p).SingleChoice single := pair_singleChoice second first
  have list : (listOf .ordered p q).SingleChoice single :=
    pair_singleChoice first ⟨trivial, following⟩
  have chain : (chainLeft .ordered p op).SingleChoice single :=
    pair_singleChoice first ⟨trivial, pair_singleChoice operator first⟩
  have skipped : (skipManyGreedy p).SingleChoice single :=
    optional_singleChoice (p := manyGreedy p) ⟨trivial, first⟩
  have orDefault : ∀ {g : Grammar N τ α}, g.SingleChoice single →
      (choiceOf .ordered [g, succeed default]).SingleChoice single := by
    intro g part
    apply choiceOfTwo_singleChoice part
    trivial
  refine ⟨?_, pair_singleChoice first ⟨trivial, first⟩, list, ?_, optional_singleChoice list,
    pair_singleChoice first ⟨trivial, second⟩, chain, orDefault chain,
    orDefault ⟨rfl, first, operator⟩, optional_singleChoice first, skipped,
    pair_singleChoice first skipped, ?_⟩
  · apply choiceOfTwo_singleChoice
    · exact first
    · exact second
  · match count with
    | 0 => trivial
    | 1 => exact first
    | _ + 2 => exact pair_singleChoice first ⟨trivial, following⟩
  · exact pair_singleChoice (p := manyGreedy q) ⟨trivial, second⟩
      (pair_singleChoice (q := manyGreedy q) first ⟨trivial, second⟩)

end Grammar

/-! ## At most one reading -/

/-- Whatever the parser returns has at most one reading. -/
def Parser.Single (p : Parser Run τ α) : Prop :=
  ∀ input, (p input).Ensures fun outcome => outcome.readings.length ≤ 1

theorem Outcome.length_conclude_le (success : Bool) (readings : List (Reading τ α))
    (error : Option Diagnostic) :
    (Outcome.conclude success readings error).readings.length ≤ readings.length := by
  cases success with
  | true => exact le_rfl
  | false => exact Nat.zero_le _

theorem Reading.length_group_le {readings : List (Reading τ α)} (few : readings.length ≤ 1) :
    (Reading.group readings).length ≤ 1 := by
  match readings, few with
  | [], _ => exact Nat.zero_le 1
  | [_], _ => exact le_rfl

/-! ## Sequences -/

/-- From at most one reading a stage is run at most once. -/
theorem Layer.advance_length_le {stage : Reading τ α → Run (Outcome τ β)}
    (stages : ∀ reading, (stage reading).Ensures fun outcome => outcome.readings.length ≤ 1)
    {readings : List (Reading τ α)} (few : readings.length ≤ 1) (error : Option Diagnostic) :
    (Layer.advance stage readings error).Ensures fun layer => layer.readings.length ≤ 1 := by
  match readings, few with
  | [], _ => exact .pure (Nat.zero_le 1)
  | [reading], _ =>
    refine .bind (stages reading) fun outcome found => ?_
    refine .pure ?_
    rw [List.append_nil]
    exact found

theorem Layer.through_length_le {stages : List (Reading τ α → Run (Outcome τ α))}
    (each : ∀ stage ∈ stages, ∀ reading, (stage reading).Ensures fun outcome =>
      outcome.readings.length ≤ 1)
    {layer : Layer τ α} (few : layer.readings.length ≤ 1) :
    (Layer.through stages layer).Ensures fun outcome => outcome.readings.length ≤ 1 := by
  induction stages generalizing layer with
  | nil => exact .pure few
  | cons stage others ih =>
    refine .bind (advance_length_le (each stage List.mem_cons_self) few layer.error)
      fun next found => ?_
    split
    · exact .pure (Nat.zero_le 1)
    · exact ih (fun stage member => each stage (List.mem_cons_of_mem _ member)) found

namespace Parser

variable {p : Parser Run τ α}

theorem ofFunction_single {run : Residual τ → Outcome τ α}
    (few : ∀ input, (run input).readings.length ≤ 1) : Single (ofFunction run) :=
  fun input => .pure (few input)

theorem map_single (part : p.Single) (f : α → β) : (map f p).Single := by
  intro input
  refine .bind (part input) fun outcome found => ?_
  refine .pure ?_
  rw [Outcome.map_readings, List.length_map]
  exact found

theorem bind_single {next : α → Parser Run τ β} (part : p.Single)
    (continues : ∀ value, (next value).Single) : (bind p next).Single := by
  intro input
  refine .bind (part input) fun first found => ?_
  split
  · exact .pure (Nat.zero_le 1)
  · refine .bind (Layer.advance_length_le (fun reading => continues _ reading.rest) found _)
      fun layer few => ?_
    exact .pure ((Outcome.length_conclude_le _ _ _).trans few)

theorem bindAll_single {nexts : List (α → Parser Run τ α)} (part : p.Single)
    (continues : ∀ next ∈ nexts, ∀ value, (next value).Single) : (bindAll p nexts).Single := by
  intro input
  refine .bind (part input) fun first found => ?_
  split
  · exact .pure found
  · apply Layer.through_length_le ?_ found
    intro stage member reading
    obtain ⟨next, present, rfl⟩ := List.mem_map.mp member
    exact continues next present reading.value reading.rest

theorem sequence_single {ps : List (Parser Run τ α)} (parts : ∀ p ∈ ps, p.Single) :
    (sequence ps).Single := by
  intro input
  apply Layer.through_length_le ?_ le_rfl
  intro stage member reading
  obtain ⟨p, present, rfl⟩ := List.mem_map.mp member
  exact map_single (parts p present) _ reading.rest

/-! ## Choices -/

theorem firstOfFrom_length_le {ps : List (Parser Run τ α)} (parts : ∀ p ∈ ps, p.Single)
    (input : Residual τ) (error : Option Diagnostic) :
    (firstOfFrom input ps error).Ensures fun outcome => outcome.readings.length ≤ 1 := by
  induction ps generalizing error with
  | nil => exact .pure (Nat.zero_le 1)
  | cons p others ih =>
    refine .bind (parts p List.mem_cons_self input) fun outcome found => ?_
    split
    · exact .pure found
    · exact ih (fun p member => parts p (List.mem_cons_of_mem _ member)) _

theorem choice_single {ps : List (Parser Run τ α)} (parts : ∀ p ∈ ps, p.Single) :
    (choice .ordered ps).Single :=
  fun input => firstOfFrom_length_le parts input none

theorem first_single (p : Parser Run τ α) : (first p).Single := by
  intro input
  refine act_ensures _ fun outcome => ?_
  exact .pure (List.length_take_le 1 outcome.readings)

/-! ## Repetitions -/

theorem round_length_le (part : p.Single) {layer : Layer τ (List α)}
    (few : layer.readings.length ≤ 1) :
    (Repetition.round p layer).Ensures fun next => next.readings.length ≤ 1 := by
  apply Layer.advance_length_le ?_ few
  intro reading
  refine .bind (part reading.rest) fun outcome found => ?_
  refine .pure ?_
  rw [Outcome.map_readings, List.length_map]
  exact (List.length_filter_le _ _).trans found

theorem layers_length_le (part : p.Single) (rounds : Nat) {layer : Layer τ (List α)}
    (few : layer.readings.length ≤ 1) :
    (Repetition.layers p rounds layer).Ensures fun explored =>
      ∀ readings ∈ explored.1, readings.length ≤ 1 := by
  induction rounds generalizing layer with
  | zero => exact .pure (List.forall_mem_singleton.mpr few)
  | succ rounds ih =>
    refine .bind (round_length_le part few) fun next found => ?_
    split
    · exact .pure (List.forall_mem_singleton.mpr few)
    · refine .bind (ih found) fun explored deeper => ?_
      exact .pure (List.forall_mem_cons.mpr ⟨few, deeper⟩)

theorem exactly_length_le (part : p.Single) (count : Nat) {layer : Layer τ (List α)}
    (few : layer.readings.length ≤ 1) :
    (Repetition.exactly p count layer).Ensures fun outcome => outcome.readings.length ≤ 1 := by
  induction count generalizing layer with
  | zero => exact .pure few
  | succ count ih =>
    refine .bind (round_length_le part few) fun next found => ?_
    split
    · exact .pure (Nat.zero_le 1)
    · exact ih found

theorem repeated_single {extent : Extent} (keeps : extent.KeepsOne) (part : p.Single) :
    (repeated extent p).Single := by
  intro input
  match extent, keeps with
  | .exactly count, _ => exact exactly_length_le part count le_rfl
  | .greedy, _ =>
    refine .bind (layers_length_le part _ le_rfl) fun explored few => ?_
    refine .pure ?_
    rcases List.eq_nil_or_concat explored.1 with empty | ⟨others, deepest, last⟩
    · simp only [empty]
      exact Nat.zero_le 1
    · have found := few deepest (by simp [last])
      simpa [Outcome.ofReadings, last] using found

/-! ## Chains -/

/-- Each operator is followed by one chain at most, since that begins farther on. -/
theorem chainRight_single {op : Parser Run τ (α → α → α)} (part : p.Single)
    (operators : op.Single) : (chainRight .ordered p op).Single := by
  intro input
  generalize measured : input.remaining = remaining
  induction remaining using Nat.strongRecOn generalizing input with
  | ind remaining ih =>
    subst measured
    rw [chainRight]
    apply bind_single part
    intro left
    apply choice_single
    intro branch member
    rcases List.mem_pair.mp member with rfl | rfl
    · apply bind_single operators
      intro apply rest
      dsimp only
      split
      next shorter =>
        refine .bind (ih _ shorter rest rfl) fun outcome found => ?_
        refine .pure ?_
        rw [Outcome.map_readings, List.length_map]
        exact found
      next => exact .abort
    · exact ofFunction_single fun _ => le_rfl

/-! ## Parsers that change an outcome -/

theorem satisfy_single [Token τ] (accepts : τ → Bool) (expected : String) :
    (satisfy accepts expected : Parser Run τ τ).Single := by
  apply ofFunction_single
  intro input
  split
  · exact Nat.zero_le 1
  · split
    · exact le_rfl
    · exact Nat.zero_le 1

theorem endOfInput_single [Token τ] : (endOfInput : Parser Run τ Unit).Single := by
  apply ofFunction_single
  intro input
  split
  · exact le_rfl
  · exact Nat.zero_le 1

/-- On failure something else is returned that has at most one reading. -/
theorem onFailure_single (part : p.Single)
    (instead : Residual τ → Option Diagnostic → Outcome τ α)
    (few : ∀ input error, (instead input error).readings.length ≤ 1) :
    Single fun input => p input >>= fun outcome =>
      if outcome.success then pure outcome else pure (instead input outcome.error) := by
  intro input
  refine .bind (part input) fun outcome found => ?_
  split
  · exact .pure found
  · exact .pure (few input outcome.error)

theorem gather_single (part : p.Single) : (gather p).Single := by
  intro input
  refine .bind (part input) fun outcome found => ?_
  split
  · exact .pure (Nat.zero_le 1)
  · exact .pure (Reading.length_group_le found)

theorem lookAhead_single (p : Parser Run τ α) : (lookAhead p).Single := by
  intro input
  refine act_ensures _ fun outcome => ?_
  split
  · exact .pure (Nat.zero_le 1)
  · exact .pure le_rfl

theorem notAhead_single [Token τ] (p : Parser Run τ α) : (notAhead p).Single := by
  intro input
  refine act_ensures _ fun outcome => ?_
  split
  · exact .pure (Nat.zero_le 1)
  · exact .pure le_rfl

theorem traced_single {θ : Type} [Observes θ Run] (tracer : θ) (name : String)
    (part : p.Single) : (traced tracer name p).Single := by
  intro input
  refine act_ensures _ fun depth => ?_
  refine .bind (part input) fun outcome found => ?_
  refine act_ensures _ fun left => ?_
  exact .pure found

theorem withDepth_single {θ : Type} [Observes θ Run] (tracer : θ) (part : p.Single) :
    (withDepth tracer p).Single := by
  intro input
  refine .bind (part input) fun outcome found => ?_
  refine act_ensures _ fun depth => ?_
  refine .pure ?_
  rw [Outcome.map_readings, List.length_map]
  exact found

end Parser

/-! ## Asking for the only reading -/

namespace Outcome

variable {outcome : Outcome τ α} {reported : Diagnostic}

/-- With at most one reading, asking for the only one complains about several in the words of the
outcome's own diagnostic at most. -/
theorem own_of_single (few : outcome.readings.length ≤ 1)
    (asked : outcome.single = .error reported)
    (several : reported.message = "multiple results are returned") :
    outcome.error = some reported := by
  unfold single at asked
  split at asked
  next failed =>
    obtain rfl := Except.error.inj asked
    cases present : outcome.error with
    | some own => rfl
    | none =>
      rw [present] at several
      exact absurd several (by decide)
  next succeeded =>
    split at asked
    · obtain rfl := Except.error.inj asked
      exact absurd several (by decide)
    · cases asked
    next none one =>
      match readings : outcome.readings with
      | [] => exact absurd readings none
      | [reading] => exact absurd readings (one reading)
      | _ :: _ :: _ =>
        rw [readings] at few
        simp at few

/-- Nor does a reading that stops early complain about several. -/
theorem message_stop_ne [Token τ] {reading : Reading τ α} {reason : Diagnostic}
    (stopped : stop reading = some reason) : reason.message ≠ "multiple results are returned" := by
  obtain ⟨token, -, rfl⟩ := Option.map_eq_some_iff.mp stopped
  intro same
  have first := congrArg (fun text => text.toList.head?) same
  simp [stoppedAt, Diagnostic.ofMessage, Diagnostic.moveTo] at first

theorem own_of_stop [Token τ] {error : Option Diagnostic} {reading : Reading τ α}
    (merged : Diagnostic.farthest error (stop reading) = some reported)
    (several : reported.message = "multiple results are returned") : error = some reported := by
  cases stopped : stop reading with
  | none => rwa [stopped, Diagnostic.farthest_none_right] at merged
  | some reason =>
    rw [stopped] at merged
    rcases Diagnostic.farthest_of_silent (expected_of_stop stopped) error with own | early
    · rwa [own] at merged
    · rw [early] at merged
      obtain rfl := Option.some.inj merged
      exact absurd several (message_stop_ne stopped)

theorem own_of_conclude {success : Bool} {readings : List (Reading τ α)}
    {error : Option Diagnostic} (present : (conclude success readings error).error = some reported)
    (several : reported.message = "multiple results are returned") : error = some reported := by
  rw [conclude] at present
  split at present
  · exact present
  · obtain rfl := Option.some.inj present
    cases error with
    | none => exact absurd several (by decide)
    | some own => rfl

/-- Of at most one reading at most one used up the input, and words about several are the outcome's
own. -/
theorem complete_of_few [Token τ] (few : outcome.readings.length ≤ 1) :
    outcome.complete.readings.length ≤ 1 ∧
      ∀ reported, outcome.complete.error = some reported →
        reported.message = "multiple results are returned" → outcome.error = some reported := by
  obtain ⟨success, readings, error⟩ := outcome
  cases success with
  | false => exact ⟨few, fun _ present _ => present⟩
  | true =>
    match readings, few with
    | [], _ =>
      refine ⟨Nat.zero_le 1, fun reported present several => ?_⟩
      obtain rfl := Option.some.inj present
      exact absurd several (by decide)
    | [reading], _ =>
      rw [complete_of_readings rfl (List.cons_ne_nil _ _)]
      refine ⟨(length_conclude_le _ _ _).trans (List.length_filter_le _ _), ?_⟩
      intro reported present several
      exact own_of_stop (own_of_conclude present several) several

/-- So does asking for the only one that used up the input. -/
theorem own_of_whole [Token τ] (few : outcome.readings.length ≤ 1)
    (asked : outcome.whole = .error reported)
    (several : reported.message = "multiple results are returned") :
    outcome.error = some reported := by
  obtain ⟨one, own⟩ := outcome.complete_of_few few
  exact own reported (own_of_single one asked several) several

end Outcome

/-! ## Grammars -/

section Grammars

variable [Observes N.Tracer Run] [Token τ] {single : N.Rule → Prop}

theorem Grammar.interpret_single {call : (rule : N.Rule) → Parser Run τ (N.Result rule)}
    (called : ∀ rule, single rule → (call rule).Single) (g : Grammar N τ α)
    (keeps : g.SingleChoice single) : (g.interpret call).Single := by
  induction g with
  | satisfy accepts expected => exact Parser.satisfy_single accepts expected
  | succeed value => exact Parser.ofFunction_single fun _ => le_rfl
  | fail message => exact Parser.ofFunction_single fun _ => Nat.zero_le 1
  | endOfInput => exact Parser.endOfInput_single
  | custom run => exact Parser.ofFunction_single keeps
  | map f p ih => exact Parser.map_single (ih keeps) f
  | sequence ps ih =>
    apply Parser.sequence_single
    intro p member
    obtain ⟨i, rfl⟩ := List.mem_ofFn.mp member
    exact ih i (keeps i)
  | bind p held next ih ihNext =>
    exact Parser.bind_single (ih keeps.1) fun value => ihNext value (keeps.2 value)
  | bindAll p held nexts ih ihNexts =>
    apply Parser.bindAll_single (ih keeps.1)
    intro next member value
    obtain ⟨i, rfl⟩ := List.mem_ofFn.mp member
    exact ihNexts i value (keeps.2 i value)
  | choice policy ps ih =>
    obtain ⟨rfl, parts⟩ := keeps
    apply Parser.choice_single
    intro p member
    obtain ⟨i, rfl⟩ := List.mem_ofFn.mp member
    exact ih i (parts i)
  | first p ih => exact Parser.first_single _
  | repeated extent p ih => exact Parser.repeated_single keeps.1 (ih keeps.2)
  | chainRight policy p op ih ihOp =>
    obtain ⟨rfl, operand, operator⟩ := keeps
    exact Parser.chainRight_single (ih operand) (ihOp operator)
  | gather p ih => exact Parser.gather_single (ih keeps)
  | reportAs message p ih =>
    exact Parser.onFailure_single (ih keeps)
      (fun _ error => .failure (Diagnostic.rephrase message error)) fun _ _ => Nat.zero_le 1
  | recover message default p ih =>
    exact Parser.onFailure_single (ih keeps)
      (fun input error => .ofReadings [⟨default, input⟩]
        (some (Diagnostic.rephrase message error))) fun _ _ => le_rfl
  | named name p ih =>
    exact Parser.onFailure_single (ih keeps)
      (fun input error => .failure (Diagnostic.wantedAs name input.position error))
      fun _ _ => Nat.zero_le 1
  | lookAhead p ih => exact Parser.lookAhead_single _
  | notAhead p ih => exact Parser.notAhead_single _
  | traced tracer name p ih => exact Parser.traced_single tracer name (ih keeps)
  | withDepth tracer p ih => exact Parser.withDepth_single tracer (ih keeps)
  | deferred cell p ih => exact fun input => Parser.act_ensures _ fun _ => ih keeps input
  | rule r => exact called r keeps

theorem Rules.call_single {rules : Rules N τ} (keeps : rules.SingleChoice single) (limit : Nat)
    {rule : N.Rule} (among : single rule) : Parser.Single (rules.call limit rule) := by
  induction limit generalizing rule with
  | zero => exact fun input => .abort
  | succ limit ih =>
    intro input
    rw [Rules.call]
    cases found : rules rule with
    | error fault => exact .abort
    | ok pattern =>
      exact Grammar.interpret_single (fun _ => ih) pattern (keeps rule pattern among found) input

/-- Words about several readings are nobody's stock text. -/
theorem StockText.ne_several {text : String} (stock : StockText (τ := τ) text) :
    text ≠ "multiple results are returned" := by
  cases stock with
  | mismatch | exhausted | noAlternative | unexpectedMatch => decide
  | unexpected token =>
    intro same
    have first := congrArg (fun text => text.toList.head?) same
    simp at first

/-- **Grammars that keep a single choice are deterministic.** Take any grammar of the fragment, under
rules of which those it may refer to belong to the fragment. Whatever a run of it returns has at most
one reading. So asking for the only reading, or for the only one that used up the input, never
complains about several: if these words are reported, they are those of the run's own diagnostic, and
they are not reported at all if the grammar and its rules do not hold them ready themselves. -/
theorem at_most_one_reading (single : N.Rule → Prop) (rules : Rules N τ) (limit : Nat)
    (g : Grammar N τ α) (input : Residual τ) (rulesKeep : rules.SingleChoice single)
    (keeps : g.SingleChoice single) {before after : Machine} {outcome : Outcome τ α}
    (returned : Run.Ends (g.run rules limit input) before outcome after) :
    outcome.readings.length ≤ 1 ∧
    (∀ reported, outcome.single = .error reported ∨ outcome.whole = .error reported →
      reported.message = "multiple results are returned" → outcome.error = some reported) ∧
    (rules.Texts (· ≠ "multiple results are returned") →
      g.Texts (· ≠ "multiple results are returned") →
        ∀ reported, outcome.single = .error reported ∨ outcome.whole = .error reported →
          reported.message ≠ "multiple results are returned") := by
  have few : outcome.readings.length ≤ 1 :=
    Grammar.interpret_single (fun _ => Rules.call_single rulesKeep limit) g keeps input
      before outcome after returned
  have own : ∀ reported, outcome.single = .error reported ∨ outcome.whole = .error reported →
      reported.message = "multiple results are returned" → outcome.error = some reported := by
    intro reported asked several
    rcases asked with alone | complete
    · exact Outcome.own_of_single few alone several
    · exact Outcome.own_of_whole few complete several
  refine ⟨few, own, fun rulesTexts texts reported asked several => ?_⟩
  have worded := Grammar.run_worded (fun _ stock => stock.ne_several) rulesTexts limit texts input
    before outcome after returned
  exact worded reported (own reported asked several) several

end Grammars

section Ladders

open Grammar

/-- Towers with commas between them, and then whatever is left. -/
def ladder : Grammar towerNames Word (List Nat) :=
  keepLeft (listOf .ordered (rule (N := towerNames) ()) (literal ","))
    (first (many (N := towerNames) (anyToken (τ := Word))))

theorem ladder_singleChoice : ladder.SingleChoice fun _ => True := by
  have reference : (rule () : Grammar towerNames Word Nat).SingleChoice fun _ => True := trivial
  have comma : (literal "," : Grammar towerNames Word Word).SingleChoice fun _ => True := trivial
  have operator : (succeed fun _ => id : Grammar towerNames Word (Nat → Nat → Nat)).SingleChoice
      fun _ => True := trivial
  obtain ⟨-, -, list, -⟩ := derived_singleChoice reference comma operator 0 0 fun value _ => value
  exact pair_singleChoice list trivial

theorem towerRules_singleChoice : towerRules.SingleChoice fun _ => True := by
  intro rule pattern among found
  obtain rfl := Except.ok.inj found
  have above : storey.SingleChoice fun _ => True :=
    pair_singleChoice (p := literal "(") trivial
      (pair_singleChoice (q := literal ")") trivial trivial)
  exact choiceOfTwo_singleChoice above trivial

/-- There is one way to read `( ) , ( ( ) ) )`, in which two towers are found. -/
theorem at_most_one_reading_ladder :
    ∃ outcome after,
      Run.Ends (ladder.run towerRules 4
        (.start (["(", ")", ",", "(", "(", ")", ")", ")"].map Word.ofLexeme)))
        .initial outcome after ∧
      outcome.values = [[1, 2]] ∧ outcome.readings.length ≤ 1 := by
  obtain ⟨outcome, after, returned, values⟩ : ∃ outcome after,
      Run.Ends (ladder.run towerRules 4
        (.start (["(", ")", ",", "(", "(", ")", ")", ")"].map Word.ofLexeme)))
        .initial outcome after ∧ outcome.values = [[1, 2]] := ⟨_, _, rfl, rfl⟩
  obtain ⟨few, -, -⟩ := at_most_one_reading (fun _ => True) towerRules 4 ladder _
    towerRules_singleChoice ladder_singleChoice returned
  exact ⟨outcome, after, returned, values, few⟩

end Ladders

end Multiparse
