import Multiparse.Fault
import Multiparse.Parser.Choice
import Multiparse.Parser.Repeat
import Multiparse.Proofs.Farthest

/-!
# Runs with at most one reading

A run either hits, with one reading, or misses, for a reason. Sequencing, ordered choice and greedy
repetition of such runs are such runs again; the lemmas here say which reading they have and how
the diagnostics of the parts are merged.
-/

namespace Multiparse

open Diagnostic

/-- A layer of one reading is advanced by running the stage once. -/
theorem Layer.advance_single {τ α β : Type} (stage : Reading τ α → Except Fault (Outcome τ β))
    (reading : Reading τ α) (error : Option Diagnostic) :
    Layer.advance stage [reading] error =
      (stage reading).map fun outcome => ⟨outcome.readings, farthest error outcome.error⟩ := by
  rw [Layer.advance]
  cases stage reading with
  | error fault => rfl
  | ok outcome =>
    change Except.ok (⟨outcome.readings ++ [], farthest error outcome.error⟩ : Layer τ β) = _
    rw [List.append_nil]
    rfl

namespace Parser

variable {τ α β : Type} {p : Parser (Except Fault) τ α} {ps : List (Parser (Except Fault) τ α)}
  {next : α → Parser (Except Fault) τ β} {input middle rest : Residual τ} {value : α}
  {error error' earlier : Option Diagnostic}

/-- On the input the parser has exactly one reading. -/
def Hits (p : Parser (Except Fault) τ α) (input : Residual τ) (value : α) (rest : Residual τ)
    (error : Option Diagnostic) : Prop :=
  p input = .ok (.ofReadings [⟨value, rest⟩] error)

/-- On the input the parser fails for a reason. -/
def Misses (p : Parser (Except Fault) τ α) (input : Residual τ) (error : Option Diagnostic) :
    Prop :=
  error.isSome ∧ p input = .ok ⟨false, [], error⟩

/-! ## Sequencing -/

theorem Hits.map (hits : Hits p input value rest error) (f : α → β) :
    Hits (map f p) input (f value) rest error := by
  unfold Hits at hits ⊢
  rw [Parser.map, hits]
  rfl

theorem Misses.map (misses : Misses p input error) (f : α → β) : Misses (map f p) input error := by
  refine ⟨misses.1, ?_⟩
  rw [Parser.map, misses.2]
  rfl

theorem Hits.bind_eq (hits : Hits p input value middle error) {outcome : Outcome τ β}
    (continues : next value middle = .ok outcome) :
    bind p next input =
      .ok (Layer.conclude ⟨outcome.readings, farthest error outcome.error⟩) := by
  unfold Hits at hits
  rw [Parser.bind, hits]
  change (Layer.advance (fun reading => next reading.value reading.rest) [⟨value, middle⟩] error
    >>= fun layer => pure layer.conclude) = _
  rw [Layer.advance_single]
  simp only [continues]
  rfl

theorem Hits.bind {result : β} (hits : Hits p input value middle error)
    (continues : Hits (next value) middle result rest error') :
    Hits (bind p next) input result rest (farthest error error') :=
  hits.bind_eq continues

theorem Misses.bind (misses : Misses p input error) (next : α → Parser (Except Fault) τ β) :
    Misses (bind p next) input error := by
  refine ⟨misses.1, ?_⟩
  rw [Parser.bind, misses.2]
  rfl

theorem Hits.bind_misses (hits : Hits p input value middle error)
    (ends : Misses (next value) middle error') :
    Misses (Parser.bind p next) input (farthest error error') := by
  have present := farthest_isSome_right error ends.1
  refine ⟨present, ?_⟩
  rw [hits.bind_eq ends.2]
  obtain ⟨reason, some⟩ := Option.isSome_iff_exists.mp present
  simp only [some, Layer.conclude, List.isEmpty_nil, Bool.not_true, Outcome.conclude,
    Bool.false_eq_true, ↓reduceIte, Outcome.failure, Option.getD_some]

/-- One parser and then another, with both values. -/
theorem Hits.pair {q : Parser (Except Fault) τ β} {result : β}
    (hits : Hits p input value middle error) (continues : Hits q middle result rest error') :
    Hits (Parser.bind p fun left => Parser.map (fun right => (left, right)) q) input (value, result)
      rest (farthest error error') :=
  Hits.bind hits (continues.map fun right => (value, right))

theorem Hits.pair_misses {q : Parser (Except Fault) τ β} (hits : Hits p input value middle error)
    (ends : Misses q middle error') :
    Misses (Parser.bind p fun left => Parser.map (fun right => (left, right)) q) input
      (farthest error error') :=
  hits.bind_misses (ends.map fun right => (value, right))

/-! ## Ordered choice -/

theorem Hits.firstOfFrom (hits : Hits p input value rest error)
    (ps : List (Parser (Except Fault) τ α)) (earlier : Option Diagnostic) :
    firstOfFrom input (p :: ps) earlier =
      .ok (.ofReadings [⟨value, rest⟩] (farthest earlier error)) := by
  unfold Hits at hits
  rw [Parser.firstOfFrom, hits]
  rfl

theorem Misses.firstOfFrom (misses : Misses p input error)
    (ps : List (Parser (Except Fault) τ α)) (earlier : Option Diagnostic) :
    firstOfFrom input (p :: ps) earlier = firstOfFrom input ps (farthest earlier error) := by
  rw [Parser.firstOfFrom, misses.2]
  rfl

theorem firstOfFrom_nil (present : error.isSome) :
    firstOfFrom input ([] : List (Parser (Except Fault) τ α)) error = .ok ⟨false, [], error⟩ := by
  obtain ⟨reason, rfl⟩ := Option.isSome_iff_exists.mp present
  rfl

end Parser

/-! ## Greedy repetition -/

namespace Repetition

variable {τ α : Type} {p : Parser (Except Fault) τ α} {rest further : Residual τ} {value : α}
  {values : List α} {error error' : Option Diagnostic} {rounds : Nat}

/-- The exploration that begins with a layer ends with another one. -/
def Ends (p : Parser (Except Fault) τ α) (rounds : Nat) (layer final : Layer τ (List α)) : Prop :=
  ∃ others, layers p rounds layer = .ok (others ++ [final.readings], final.error)

/-- A round on one reading keeps what the parser reads beyond it. -/
theorem round_single {outcome : Outcome τ α} (ran : p rest = .ok outcome) (values : List α)
    (error : Option Diagnostic) :
    round p ⟨[⟨values, rest⟩], error⟩ =
      .ok ⟨(progressing rest outcome).readings.map (Reading.map fun value => values ++ [value]),
        farthest error outcome.error⟩ := by
  rw [round, Layer.advance_single]
  simp only [ran]
  rfl

theorem ends_of_misses (misses : p.Misses rest error') :
    Ends p (rounds + 1) ⟨[⟨values, rest⟩], error⟩ ⟨[⟨values, rest⟩], farthest error error'⟩ := by
  have ran : round p ⟨[⟨values, rest⟩], error⟩ = .ok ⟨[], farthest error error'⟩ :=
    round_single misses.2 values error
  refine ⟨[], ?_⟩
  rw [layers, ran]
  rfl

theorem ends_of_hits (hits : p.Hits rest value further error')
    (progress : rest.offset < further.offset) {final : Layer τ (List α)}
    (ends : Ends p rounds ⟨[⟨values ++ [value], further⟩], farthest error error'⟩ final) :
    Ends p (rounds + 1) ⟨[⟨values, rest⟩], error⟩ final := by
  obtain ⟨others, explored⟩ := ends
  have ran : round p ⟨[⟨values, rest⟩], error⟩ =
      .ok ⟨[⟨values ++ [value], further⟩], farthest error error'⟩ := by
    rw [round_single hits values error]
    simp only [progressing, Outcome.ofReadings, List.filter_cons, progress, decide_true,
      ↓reduceIte, List.filter_nil]
    rfl
  refine ⟨[⟨values, rest⟩] :: others, ?_⟩
  rw [layers, ran]
  change (layers p rounds _ >>= _) = _
  rw [explored]
  rfl

end Repetition

namespace Parser

variable {τ α : Type} {p : Parser (Except Fault) τ α} {input rest : Residual τ}
  {values : List α} {error : Option Diagnostic}

/-- A greedy repetition has the reading with which its exploration ends. -/
theorem hits_greedy
    (ends : Repetition.Ends p (input.remaining + 1) (Repetition.seed input)
      ⟨[⟨values, rest⟩], error⟩) :
    Hits (repeated .greedy p) input values rest error := by
  obtain ⟨others, explored⟩ := ends
  unfold Hits
  simp only [repeated, Repetition.explore]
  rw [explored]
  change Except.ok (Outcome.ofReadings (List.getLastD (others ++ [_]) []) error) = _
  rw [List.getLastD_concat]

end Parser

end Multiparse
