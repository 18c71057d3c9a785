import Multiparse.Grammar.Lemmas
import Multiparse.Grammar.Run

/-!
# Raising the limit

Every parser is built from the runs of its parts in such a way that a part that returns more often
changes nothing where it returned before. So a run that returns under some limit on rule calls
returns the same outcome under every higher one (`Grammar.run_of_le`).
-/

namespace Multiparse

/-- Whatever the first run returns, the second one returns too. -/
def Returns {A : Type} (first second : Except Fault A) : Prop :=
  ∀ result, first = .ok result → second = .ok result

namespace Returns

variable {A B : Type}

theorem refl (run : Except Fault A) : Returns run run := fun _ returned => returned

theorem bind {first second : Except Fault A} {next next' : A → Except Fault B}
    (runs : Returns first second) (continues : ∀ result, Returns (next result) (next' result)) :
    Returns (first >>= next) (second >>= next') := by
  intro result returned
  cases ran : first with
  | error fault =>
    rw [ran] at returned
    cases returned
  | ok value =>
    rw [ran] at returned
    rw [runs value ran]
    exact continues value result returned

end Returns

variable {τ α β ι : Type}

/-- Wherever the first parser returns, the second one returns the same outcome. -/
def Parser.Refines (p q : Parser (Except Fault) τ α) : Prop := ∀ input, Returns (p input) (q input)

theorem Layer.advance_returns {stage stage' : Reading τ α → Except Fault (Outcome τ β)}
    (stages : ∀ reading, Returns (stage reading) (stage' reading))
    (readings : List (Reading τ α)) (error : Option Diagnostic) :
    Returns (Layer.advance stage readings error) (Layer.advance stage' readings error) := by
  induction readings generalizing error with
  | nil => exact .refl _
  | cons reading others ih => exact .bind (stages reading) fun _ => .bind (ih _) fun _ => .refl _

theorem Layer.through_returns {stage stage' : ι → Reading τ α → Except Fault (Outcome τ α)}
    (stages : ∀ i reading, Returns (stage i reading) (stage' i reading)) (indices : List ι)
    (layer : Layer τ α) :
    Returns (Layer.through (indices.map stage) layer)
      (Layer.through (indices.map stage') layer) := by
  induction indices generalizing layer with
  | nil => exact .refl _
  | cons i others ih =>
    refine .bind (Layer.advance_returns (stages i) _ _) fun next => ?_
    split
    · exact .refl _
    · exact ih next

namespace Parser

theorem map_refines {p q : Parser (Except Fault) τ α} (refines : Refines p q) (f : α → β) :
    Refines (map f p) (map f q) := fun input => .bind (refines input) fun _ => .refl _

theorem bind_refines {p q : Parser (Except Fault) τ α} {next next' : α → Parser (Except Fault) τ β}
    (refines : Refines p q) (continues : ∀ value, Refines (next value) (next' value)) :
    Refines (bind p next) (bind q next') := by
  intro input
  refine .bind (refines input) fun first => ?_
  split
  · exact .refl _
  · exact .bind (Layer.advance_returns (fun reading => continues _ reading.rest) _ _)
      fun _ => .refl _

theorem bindAll_refines {p q : Parser (Except Fault) τ α}
    {next next' : ι → α → Parser (Except Fault) τ α} (refines : Refines p q)
    (continues : ∀ i value, Refines (next i value) (next' i value)) (indices : List ι) :
    Refines (bindAll p (indices.map next)) (bindAll q (indices.map next')) := by
  intro input
  refine .bind (refines input) fun first => ?_
  split
  · exact .refl _
  · simp only [List.map_map]
    exact Layer.through_returns (fun i reading => continues i _ reading.rest) indices _

theorem sequence_refines {p q : ι → Parser (Except Fault) τ α}
    (refines : ∀ i, Refines (p i) (q i)) (indices : List ι) :
    Refines (sequence (indices.map p)) (sequence (indices.map q)) := by
  intro input
  simp only [sequence, List.map_map]
  exact Layer.through_returns
    (fun i reading => map_refines (refines i) (fun value => reading.value ++ [value]) reading.rest)
    indices _

theorem anyOfFrom_returns {p q : ι → Parser (Except Fault) τ α}
    (refines : ∀ i, Refines (p i) (q i)) (indices : List ι) (input : Residual τ) (success : Bool)
    (readings : List (Reading τ α)) (error : Option Diagnostic) :
    Returns (anyOfFrom input (indices.map p) success readings error)
      (anyOfFrom input (indices.map q) success readings error) := by
  induction indices generalizing success readings error with
  | nil => exact .refl _
  | cons i others ih =>
    refine .bind (refines i input) fun outcome => ?_
    split
    · exact ih _ _ _
    · exact ih _ _ _

theorem firstOfFrom_returns {p q : ι → Parser (Except Fault) τ α}
    (refines : ∀ i, Refines (p i) (q i)) (indices : List ι) (input : Residual τ)
    (error : Option Diagnostic) :
    Returns (firstOfFrom input (indices.map p) error)
      (firstOfFrom input (indices.map q) error) := by
  induction indices generalizing error with
  | nil => exact .refl _
  | cons i others ih =>
    refine .bind (refines i input) fun outcome => ?_
    split
    · exact .refl _
    · exact ih _

theorem choice_refines {p q : ι → Parser (Except Fault) τ α} (policy : Policy)
    (refines : ∀ i, Refines (p i) (q i)) (indices : List ι) :
    Refines (choice policy (indices.map p)) (choice policy (indices.map q)) := by
  intro input
  cases policy with
  | exhaustive => exact anyOfFrom_returns refines indices input false [] none
  | ordered => exact firstOfFrom_returns refines indices input none

theorem round_returns {p q : Parser (Except Fault) τ α} (refines : Refines p q)
    (layer : Layer τ (List α)) :
    Returns (Repetition.round p layer) (Repetition.round q layer) :=
  Layer.advance_returns (fun reading => .bind (refines reading.rest) fun _ => .refl _) _ _

theorem layers_returns {p q : Parser (Except Fault) τ α} (refines : Refines p q) (rounds : Nat)
    (layer : Layer τ (List α)) :
    Returns (Repetition.layers p rounds layer) (Repetition.layers q rounds layer) := by
  induction rounds generalizing layer with
  | zero => exact .refl _
  | succ rounds ih =>
    refine .bind (round_returns refines layer) fun next => ?_
    split
    · exact .refl _
    · exact .bind (ih next) fun _ => .refl _

theorem exactly_returns {p q : Parser (Except Fault) τ α} (refines : Refines p q) (count : Nat)
    (layer : Layer τ (List α)) :
    Returns (Repetition.exactly p count layer) (Repetition.exactly q count layer) := by
  induction count generalizing layer with
  | zero => exact .refl _
  | succ count ih =>
    refine .bind (round_returns refines layer) fun next => ?_
    split
    · exact .refl _
    · exact ih next

theorem repeated_refines {p q : Parser (Except Fault) τ α} (refines : Refines p q)
    (extent : Extent) : Refines (repeated extent p) (repeated extent q) := by
  intro input
  cases extent with
  | exactly count => exact exactly_returns refines count _
  | shortestFirst => exact .bind (layers_returns refines _ _) fun _ => .refl _
  | longestFirst => exact .bind (layers_returns refines _ _) fun _ => .refl _
  | greedy => exact .bind (layers_returns refines _ _) fun _ => .refl _

theorem chainRight_refines {p q : Parser (Except Fault) τ α}
    {op op' : Parser (Except Fault) τ (α → α → α)} (policy : Policy) (refines : Refines p q)
    (operators : Refines op op') : Refines (chainRight policy p op) (chainRight policy q op') := by
  intro input
  generalize measured : input.remaining = remaining
  induction remaining using Nat.strongRecOn generalizing input with
  | ind remaining ih =>
    subst measured
    rw [chainRight, chainRight]
    refine bind_refines refines (fun left => ?_) input
    have tails : ∀ apply : α → α → α, Refines
        (fun rest =>
          if rest.remaining < input.remaining then do
            let outcome ← chainRight policy p op rest
            pure (outcome.map (apply left))
          else Aborts.abort .runaway)
        (fun rest =>
          if rest.remaining < input.remaining then do
            let outcome ← chainRight policy q op' rest
            pure (outcome.map (apply left))
          else Aborts.abort .runaway) := by
      intro apply rest
      by_cases shorter : rest.remaining < input.remaining
      · simp only [shorter, ↓reduceIte]
        exact .bind (ih _ shorter rest rfl) fun _ => .refl _
      · simp only [shorter, ↓reduceIte]
        exact .refl _
    let Related := { pair : Parser (Except Fault) τ α × Parser (Except Fault) τ α //
      Refines pair.1 pair.2 }
    let branches : List Related :=
      [⟨(bind op _, bind op' _), bind_refines operators tails⟩,
        ⟨(succeed left, succeed left), fun _ => .refl _⟩]
    exact choice_refines policy (fun related : Related => related.2) branches

end Parser

namespace Grammar

variable {N : Names} [Token τ]

/-- A grammar returns at least where it did when its rules return at least where they did. -/
theorem interpret_refines {call call' : (rule : N.Rule) → Parser (Except Fault) τ (N.Result rule)}
    (refines : ∀ rule, Parser.Refines (call rule) (call' rule)) (g : Grammar N τ α) :
    Parser.Refines (g.interpret call) (g.interpret call') := by
  have asMap : ∀ {A : Type} {count : Nat} (f : Fin count → A),
      List.ofFn f = (List.ofFn fun i => i).map f := fun f => by rw [List.map_ofFn]; rfl
  induction g with
  | satisfy | succeed | fail | endOfInput | custom => exact fun _ => .refl _
  | map f p ih => exact Parser.map_refines ih f
  | sequence ps ih =>
    rw [interpret_sequence, interpret_sequence, asMap, asMap fun i => (ps i).interpret call']
    exact Parser.sequence_refines ih _
  | bind p held next ih ihNext => exact Parser.bind_refines ih ihNext
  | bindAll p held nexts ih ihNexts =>
    rw [interpret_bindAll, interpret_bindAll, asMap,
      asMap fun i value => (nexts i value).interpret call']
    exact Parser.bindAll_refines ih ihNexts _
  | choice policy ps ih =>
    rw [interpret_choice, interpret_choice, asMap, asMap fun i => (ps i).interpret call']
    exact Parser.choice_refines policy ih _
  | repeated extent p ih => exact Parser.repeated_refines ih extent
  | chainRight policy p op ih ihOp => exact Parser.chainRight_refines policy ih ihOp
  | first p ih | gather p ih | reportAs _ p ih | recover _ _ p ih | named _ p ih
  | lookAhead p ih | notAhead p ih =>
    exact fun input => .bind (ih input) fun _ => .refl _
  | traced tracer name p ih =>
    exact fun input => .bind (.refl _) fun _ => .bind (ih input) fun _ => .refl _
  | withDepth tracer p ih => exact fun input => .bind (ih input) fun _ => .refl _
  | deferred cell p ih => exact fun input => .bind (.refl _) fun _ => ih input
  | rule r => exact refines r

/-- A rule that returns under a limit returns the same outcome under the next one. -/
theorem call_refines_succ (rules : Rules N τ) (limit : Nat) (rule : N.Rule) :
    Parser.Refines (rules.call limit rule) (rules.call (m := Except Fault) (limit + 1) rule) := by
  induction limit generalizing rule with
  | zero =>
    intro input outcome returned
    cases returned
  | succ limit ih =>
    intro input
    rw [Rules.call, Rules.call]
    cases rules rule with
    | error fault => exact .refl _
    | ok pattern => exact interpret_refines ih pattern input

/-- A run that returns gives the same outcome under every higher limit. -/
theorem run_of_le (rules : Rules N τ) (g : Grammar N τ α) {limit higher : Nat}
    (le : limit ≤ higher) : Parser.Refines (g.run rules limit) (g.run rules higher) := by
  induction le with
  | refl => exact fun _ => .refl _
  | step _ ih =>
    intro input outcome returned
    exact interpret_refines (call_refines_succ rules _) g input outcome (ih input outcome returned)

end Grammar

end Multiparse
