import Multiparse.Proofs.Computed
import Multiparse.Proofs.Inclusion

/-!
# What readings consume

The values that a parser reads are related to the tokens that it consumes for them. If this holds of
the parts of a parser, it holds of the parser, with relations that are put together alike: one value
behind another for a sequence, either of two for a choice, and one more value at the end for a
repetition.
-/

namespace Multiparse

variable {τ α β : Type}

/-- Running on the input, the reading consumed tokens that spell its value. -/
def Reading.Spelled (spells : List τ → α → Prop) (input : Residual τ) (reading : Reading τ α) :
    Prop :=
  ∃ read, input.tokens = read ++ reading.rest.tokens ∧ spells read reading.value

/-- Wherever the parser returns, its readings consumed tokens that spell their values. -/
def Parser.Consumes (p : Parser (Except Fault) τ α) (spells : List τ → α → Prop) : Prop :=
  ∀ input outcome, p input = .ok outcome → ∀ reading ∈ outcome.readings,
    reading.Spelled spells input

/-- What has returned consists of a first part that returned and one behind it. -/
theorem exists_of_bind_eq_ok {A B : Type} {run : Except Fault A} {next : A → Except Fault B}
    {result : B} (returned : (run >>= next) = .ok result) :
    ∃ value, run = .ok value ∧ next value = .ok result := by
  cases run with
  | error fault => cases returned
  | ok value => exact ⟨value, rfl, returned⟩

/-- What a stage finds on the readings of a layer is found on one of them. -/
theorem Layer.exists_of_advance {stage : Reading τ α → Except Fault (Outcome τ β)}
    {readings : List (Reading τ α)} {error : Option Diagnostic} {layer : Layer τ β}
    (returned : advance stage readings error = .ok layer) {found : Reading τ β}
    (member : found ∈ layer.readings) :
    ∃ reading ∈ readings, ∃ outcome, stage reading = .ok outcome ∧ found ∈ outcome.readings := by
  induction readings generalizing error layer with
  | nil =>
    cases returned
    cases member
  | cons reading others ih =>
    obtain ⟨outcome, ran, returned⟩ := exists_of_bind_eq_ok returned
    obtain ⟨later, further, returned⟩ := exists_of_bind_eq_ok returned
    cases returned
    rcases List.mem_append.mp member with here | there
    · exact ⟨reading, List.mem_cons_self, outcome, ran, here⟩
    · obtain ⟨other, present, found⟩ := ih further there
      exact ⟨other, List.mem_cons_of_mem _ present, found⟩

namespace Parser

variable {p : Parser (Except Fault) τ α} {spells spells' : List τ → α → Prop}

theorem Consumes.mono (consumes : p.Consumes spells)
    (weaker : ∀ read value, spells read value → spells' read value) : p.Consumes spells' := by
  intro input outcome returned reading member
  obtain ⟨read, tokens, spelled⟩ := consumes input outcome returned reading member
  exact ⟨read, tokens, weaker read reading.value spelled⟩

theorem satisfy_consumes [Token τ] (accepts : τ → Bool) (expected : String) :
    (satisfy accepts expected).Consumes fun (read : List τ) token =>
      read = [token] ∧ accepts token = true := by
  intro input outcome returned reading member
  obtain ⟨tokens, offset⟩ := input
  cases returned
  cases tokens with
  | nil => cases member
  | cons token tokens =>
    by_cases accepted : accepts token = true
    · simp only [Residual.peek?, List.head?_cons, accepted, ↓reduceIte] at member
      obtain rfl := List.mem_singleton.mp member
      exact ⟨[token], rfl, rfl, accepted⟩
    · simp only [Residual.peek?, List.head?_cons, accepted] at member
      cases member

theorem succeed_consumes (value : α) :
    (succeed value).Consumes fun (read : List τ) result => read = [] ∧ result = value := by
  intro input outcome returned reading member
  cases returned
  obtain rfl := List.mem_singleton.mp member
  exact ⟨[], rfl, rfl, rfl⟩

theorem fail_consumes (message : String) (spells : List τ → α → Prop) :
    (fail message).Consumes spells := by
  intro input outcome returned reading member
  cases returned
  cases member

theorem map_consumes {f : α → β} {spells : List τ → β → Prop}
    (part : p.Consumes fun read value => spells read (f value)) : (map f p).Consumes spells := by
  intro input outcome returned reading member
  obtain ⟨plain, ran, returned⟩ := exists_of_bind_eq_ok returned
  cases returned
  obtain ⟨found, present, rfl⟩ := List.mem_map.mp member
  exact part input plain ran found present

theorem bind_consumes {next : α → Parser (Except Fault) τ β} {spells' : List τ → β → Prop}
    (part : p.Consumes spells)
    (continues : ∀ read value, spells read value →
      (next value).Consumes fun more result => spells' (read ++ more) result) :
    (bind p next).Consumes spells' := by
  intro input outcome returned reading member
  obtain ⟨first, ran, returned⟩ := exists_of_bind_eq_ok returned
  split at returned
  · cases returned
    cases member
  · obtain ⟨layer, advanced, returned⟩ := exists_of_bind_eq_ok returned
    cases returned
    rw [Layer.conclude_readings] at member
    obtain ⟨middle, present, second, went, found⟩ := Layer.exists_of_advance advanced member
    obtain ⟨read, tokens, spelled⟩ := part input first ran middle present
    obtain ⟨more, behind, spelled'⟩ :=
      continues read middle.value spelled middle.rest second went reading found
    exact ⟨read ++ more, by rw [tokens, behind, List.append_assoc], spelled'⟩

theorem firstOf_consumes {ps : List (Parser (Except Fault) τ α)}
    (branches : ∀ p ∈ ps, p.Consumes spells) : (firstOf ps).Consumes spells := by
  suffices from_ : ∀ error, Parser.Consumes (fun input => firstOfFrom input ps error) spells from
    from_ none
  induction ps with
  | nil =>
    intro error input outcome returned reading member
    cases returned
    cases member
  | cons p ps ih =>
    intro error input outcome returned reading member
    obtain ⟨first, ran, returned⟩ := exists_of_bind_eq_ok returned
    split at returned
    · cases returned
      exact branches p List.mem_cons_self input first ran reading member
    · exact ih (fun q later => branches q (List.mem_cons_of_mem _ later)) _ input outcome returned
        reading member

/-! ## Repetitions -/

section Repetition

variable {items : List τ → List α → Prop} {input : Residual τ}

theorem round_spelled (part : p.Consumes spells)
    (snoc : ∀ read values more value, items read values → spells more value →
      items (read ++ more) (values ++ [value]))
    {layer next : Layer τ (List α)} (returned : Repetition.round p layer = .ok next)
    (spelled : ∀ reading ∈ layer.readings, reading.Spelled items input) :
    ∀ reading ∈ next.readings, reading.Spelled items input := by
  intro reading member
  obtain ⟨before, present, _, ran, here⟩ := Layer.exists_of_advance returned member
  obtain ⟨outcome, found, last⟩ := exists_of_bind_eq_ok ran
  cases last
  obtain ⟨item, kept, rfl⟩ := List.mem_map.mp here
  obtain ⟨read, tokens, values⟩ := spelled before present
  obtain ⟨more, behind, value⟩ :=
    part before.rest outcome found item (List.mem_of_mem_filter kept)
  exact ⟨read ++ more, by rw [tokens, behind, List.append_assoc]; rfl, snoc _ _ _ _ values value⟩

theorem layers_spelled (part : p.Consumes spells)
    (snoc : ∀ read values more value, items read values → spells more value →
      items (read ++ more) (values ++ [value]))
    {rounds : Nat} {layer : Layer τ (List α)}
    {explored : List (List (Reading τ (List α))) × Option Diagnostic}
    (returned : Repetition.layers p rounds layer = .ok explored)
    (spelled : ∀ reading ∈ layer.readings, reading.Spelled items input) :
    ∀ reading ∈ explored.1.flatten, reading.Spelled items input := by
  induction rounds generalizing layer explored with
  | zero =>
    cases returned
    simpa using spelled
  | succ rounds ih =>
    obtain ⟨next, ran, returned⟩ := exists_of_bind_eq_ok returned
    split at returned
    · cases returned
      simpa using spelled
    · obtain ⟨deeper, further, returned⟩ := exists_of_bind_eq_ok returned
      cases returned
      have later := ih further (round_spelled part snoc ran spelled)
      intro reading member
      rcases List.mem_append.mp member with here | there
      · exact spelled reading here
      · exact later reading there

/-- A greedy repetition consumes what one item behind another consumes. -/
theorem greedy_consumes (part : p.Consumes spells) (nil : items [] [])
    (snoc : ∀ read values more value, items read values → spells more value →
      items (read ++ more) (values ++ [value])) :
    (repeated .greedy p).Consumes items := by
  intro input outcome returned reading member
  obtain ⟨explored, explores, last⟩ := exists_of_bind_eq_ok returned
  cases last
  have seeded : ∀ first ∈ (Repetition.seed input : Layer τ (List α)).readings,
      first.Spelled items input := by
    intro first here
    obtain rfl := List.mem_singleton.mp here
    exact ⟨[], rfl, nil⟩
  exact layers_spelled part snoc explores seeded reading
    (getLastD_subset_flatten explored.1 member)

end Repetition

end Parser

theorem pair_consumes {N : Names} [Token τ] [Observes N.Tracer (Except Fault)]
    {call : (rule : N.Rule) → Parser (Except Fault) τ (N.Result rule)} {p : Grammar N τ α}
    {q : Grammar N τ β} {spells : List τ → α → Prop} {spells' : List τ → β → Prop}
    (first : (p.interpret call).Consumes spells) (second : (q.interpret call).Consumes spells') :
    ((Grammar.pair p q).interpret call).Consumes fun read values =>
      ∃ front back, read = front ++ back ∧ spells front values.1 ∧ spells' back values.2 := by
  refine Parser.bind_consumes first fun front left spelled => Parser.map_consumes ?_
  exact second.mono fun back right spelled' => ⟨front, back, rfl, spelled, spelled'⟩

end Multiparse
