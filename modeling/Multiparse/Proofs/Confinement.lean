import Multiparse.Proofs.Consumption
import Multiparse.Proofs.SingleReading

/-!
# What can be reported

Diagnostics are made where a parser looks at the input; what is put together from parsers merges
them. So if parsers that start on certain rests of the input report only certain diagnostics and
leave only such rests, whatever is put together from them does so too (`Parser.Confined`).
-/

namespace Multiparse

open Diagnostic

variable {τ α β : Type}

/-- Which rests of the input may be left, and which diagnostics may be reported there. Merging two
diagnostics that may be reported gives one that may be reported. -/
structure Bounds (τ : Type) where
  rests : Residual τ → Prop
  reports : Diagnostic → Prop
  absorb : ∀ kept other, reports kept → reports (kept.absorb other)
  noAlternative : reports .noAlternative

variable {bounds : Bounds τ}

namespace Bounds

/-- Everything that was left and reported is within the bounds. -/
structure Admits (bounds : Bounds τ) (readings : List (Reading τ α)) (error : Option Diagnostic) :
    Prop where
  rests : ∀ reading ∈ readings, bounds.rests reading.rest
  reports : ∀ reason, error = some reason → bounds.reports reason

namespace Admits

variable {readings : List (Reading τ α)} {others : List (Reading τ β)}
  {error error' : Option Diagnostic}

theorem nothing : bounds.Admits ([] : List (Reading τ α)) none :=
  ⟨List.forall_mem_nil _, fun _ present => by cases present⟩

theorem farthest (first : bounds.Admits readings error) (second : bounds.Admits others error') :
    ∀ reason, farthest error error' = some reason → bounds.reports reason := by
  cases error with
  | none => exact second.reports
  | some own =>
    cases error' with
    | none => exact first.reports
    | some other =>
      have here := first.reports own rfl
      rintro reason ⟨⟩
      rcases deeper_cases own other with ⟨-, kept⟩ | ⟨-, kept⟩ | ⟨-, kept⟩ <;> rw [kept]
      · exact second.reports other rfl
      · exact here
      · exact bounds.absorb own other here

/-- What is found next replaces the readings, and its diagnostic is added. -/
theorem replace (first : bounds.Admits readings error) (second : bounds.Admits others error') :
    bounds.Admits others (Diagnostic.farthest error error') :=
  ⟨second.rests, first.farthest second⟩

theorem subset {fewer : List (Reading τ α)} (admits : bounds.Admits readings error)
    (within : fewer ⊆ readings) : bounds.Admits fewer error :=
  ⟨fun reading member => admits.rests reading (within member), admits.reports⟩

theorem map (admits : bounds.Admits readings error) (f : α → β) :
    bounds.Admits (readings.map (Reading.map f)) error :=
  ⟨List.forall_mem_map.mpr admits.rests, admits.reports⟩

theorem append {more : List (Reading τ α)} (first : bounds.Admits readings error)
    (second : bounds.Admits more error') : bounds.Admits (readings ++ more) error' :=
  ⟨List.forall_mem_append.mpr ⟨first.rests, second.rests⟩, second.reports⟩

theorem conclude (admits : bounds.Admits readings error) (success : Bool) :
    bounds.Admits (Outcome.conclude success readings error).readings
      (Outcome.conclude success readings error).error := by
  cases success with
  | true => exact admits
  | false =>
    refine ⟨nothing.rests, ?_⟩
    rintro reason ⟨⟩
    cases error with
    | none => exact bounds.noAlternative
    | some reason => exact admits.reports reason rfl

end Admits

end Bounds

open Bounds

/-- Stages within the bounds keep a layer within them. -/
theorem Layer.advance_confined {stage : Reading τ α → Except Fault (Outcome τ β)}
    (stages : ∀ reading outcome, bounds.rests reading.rest → stage reading = .ok outcome →
      bounds.Admits outcome.readings outcome.error)
    {readings : List (Reading τ α)} {error : Option Diagnostic} {layer : Layer τ β}
    (admits : bounds.Admits readings error) (returned : advance stage readings error = .ok layer) :
    bounds.Admits layer.readings layer.error := by
  induction readings generalizing error layer with
  | nil =>
    cases returned
    exact ⟨Admits.nothing.rests, admits.reports⟩
  | cons reading others ih =>
    obtain ⟨outcome, ran, returned⟩ := exists_of_bind_eq_ok returned
    obtain ⟨later, further, returned⟩ := exists_of_bind_eq_ok returned
    cases returned
    obtain ⟨here, behind⟩ := List.forall_mem_cons.mp admits.rests
    have found := stages reading outcome here ran
    exact found.append (ih ⟨behind, admits.farthest found⟩ further)

namespace Parser

/-- Running on a rest within the bounds, the parser stays within them if it returns. -/
def Confined (bounds : Bounds τ) (p : Parser (Except Fault) τ α) : Prop :=
  ∀ input outcome, bounds.rests input → p input = .ok outcome →
    bounds.Admits outcome.readings outcome.error

variable {p : Parser (Except Fault) τ α} {input rest : Residual τ} {outcome : Outcome τ α}
  {value : α} {error : Option Diagnostic}

theorem Hits.admits (hits : Hits p input value rest none) (inside : bounds.rests rest)
    (returned : p input = .ok outcome) : bounds.Admits outcome.readings outcome.error := by
  obtain rfl := Except.ok.inj (hits.symm.trans returned)
  exact ⟨List.forall_mem_singleton.mpr inside, (Admits.nothing (α := α)).reports⟩

theorem Misses.admits (misses : Misses p input error)
    (reports : ∀ reason, error = some reason → bounds.reports reason)
    (returned : p input = .ok outcome) : bounds.Admits outcome.readings outcome.error := by
  obtain rfl := Except.ok.inj (misses.2.symm.trans returned)
  exact ⟨Admits.nothing.rests, reports⟩

theorem map_confined (part : p.Confined bounds) (f : α → β) : (map f p).Confined bounds := by
  intro input outcome inside returned
  obtain ⟨plain, ran, returned⟩ := exists_of_bind_eq_ok returned
  cases returned
  exact (part input plain inside ran).map f

theorem bind_confined {next : α → Parser (Except Fault) τ β} (part : p.Confined bounds)
    (continues : ∀ value, (next value).Confined bounds) : (bind p next).Confined bounds := by
  intro input outcome inside returned
  obtain ⟨first, ran, returned⟩ := exists_of_bind_eq_ok returned
  have found := part input first inside ran
  split at returned
  · cases returned
    exact ⟨Admits.nothing.rests, found.reports⟩
  · obtain ⟨layer, advanced, returned⟩ := exists_of_bind_eq_ok returned
    cases returned
    refine (Layer.advance_confined (fun reading outcome left went => ?_) found advanced).conclude _
    exact continues reading.value reading.rest outcome left went

theorem firstOf_confined {ps : List (Parser (Except Fault) τ α)}
    (branches : ∀ p ∈ ps, p.Confined bounds) : (firstOf ps).Confined bounds := by
  suffices from_ : ∀ error, bounds.Admits ([] : List (Reading τ α)) error →
      Parser.Confined bounds fun input => firstOfFrom input ps error from from_ none .nothing
  induction ps with
  | nil =>
    intro error earlier input outcome inside returned
    cases returned
    exact earlier.conclude false
  | cons p ps ih =>
    intro error earlier input outcome inside returned
    obtain ⟨first, ran, returned⟩ := exists_of_bind_eq_ok returned
    have found := branches p List.mem_cons_self input first inside ran
    split at returned
    · cases returned
      exact earlier.replace found
    · have others := fun q later => branches q (List.mem_cons_of_mem _ later)
      have failed := (earlier.replace found).subset (List.nil_subset _)
      exact ih others _ failed input outcome inside returned

/-! ## Repetitions -/

theorem round_confined (part : p.Confined bounds) {layer next : Layer τ (List α)}
    (admits : bounds.Admits layer.readings layer.error)
    (returned : Repetition.round p layer = .ok next) :
    bounds.Admits next.readings next.error := by
  refine Layer.advance_confined (fun reading outcome left went => ?_) admits returned
  obtain ⟨found, ran, last⟩ := exists_of_bind_eq_ok went
  cases last
  exact ((part reading.rest found left ran).subset (List.filter_subset_self _)).map _

theorem layers_confined (part : p.Confined bounds) {rounds : Nat} {layer : Layer τ (List α)}
    {explored : List (List (Reading τ (List α))) × Option Diagnostic}
    (admits : bounds.Admits layer.readings layer.error)
    (returned : Repetition.layers p rounds layer = .ok explored) :
    bounds.Admits explored.1.flatten explored.2 := by
  induction rounds generalizing layer explored with
  | zero =>
    cases returned
    simpa using admits
  | succ rounds ih =>
    obtain ⟨next, ran, returned⟩ := exists_of_bind_eq_ok returned
    have found := round_confined part admits ran
    split at returned
    · cases returned
      simpa using (⟨admits.rests, found.reports⟩ : bounds.Admits layer.readings next.error)
    · obtain ⟨deeper, further, returned⟩ := exists_of_bind_eq_ok returned
      cases returned
      rw [List.flatten_cons]
      exact admits.append (ih found further)

theorem greedy_confined (part : p.Confined bounds) : (repeated .greedy p).Confined bounds := by
  intro input outcome inside returned
  obtain ⟨explored, explores, last⟩ := exists_of_bind_eq_ok returned
  cases last
  have seeded : bounds.Admits (Repetition.seed input : Layer τ (List α)).readings none :=
    ⟨List.forall_mem_singleton.mpr inside, (Admits.nothing (α := α)).reports⟩
  exact (layers_confined part seeded explores).subset (getLastD_subset_flatten explored.1)

end Parser

theorem pair_confined {N : Names} [Token τ] [Observes N.Tracer (Except Fault)]
    {call : (rule : N.Rule) → Parser (Except Fault) τ (N.Result rule)} {p : Grammar N τ α}
    {q : Grammar N τ β} (first : (p.interpret call).Confined bounds)
    (second : (q.interpret call).Confined bounds) :
    ((Grammar.pair p q).interpret call).Confined bounds :=
  Parser.bind_confined first fun left => Parser.map_confined second (Prod.mk left)

end Multiparse
