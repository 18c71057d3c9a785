import Mathlib.Data.List.Forall2
import Multiparse.Grammar.Run

/-!
# Fragments of the grammars

Many laws hold for the grammars that are put together in certain ways only. A fragment is given by
the forms that it allows, and a grammar belongs to it if all its parts have such forms, those that
its continuations may build included.
-/

namespace Multiparse

/-- How a grammar is put together from its parts. -/
inductive Form where
  | satisfy
  | succeed
  | fail
  | endOfInput
  | custom
  | map
  | sequence
  | bind
  | bindAll
  | choice (policy : Policy)
  | first
  | repeated (extent : Extent)
  | chainRight (policy : Policy)
  | gather
  | reportAs
  | recover
  | named
  | lookAhead
  | notAhead
  | traced
  | withDepth
  | deferred
  | rule
  deriving DecidableEq

variable {N : Names} {τ : Type}

/-- All parts of the grammar have allowed forms. -/
def Grammar.BuiltFrom (allowed : Form → Prop) {α : Type} : Grammar N τ α → Prop
  | satisfy _ _ => allowed .satisfy
  | succeed _ => allowed .succeed
  | fail _ => allowed .fail
  | endOfInput => allowed .endOfInput
  | custom _ => allowed .custom
  | map _ p => allowed .map ∧ p.BuiltFrom allowed
  | sequence ps => allowed .sequence ∧ ∀ i, (ps i).BuiltFrom allowed
  | bind p _ next => allowed .bind ∧ p.BuiltFrom allowed ∧ ∀ value, (next value).BuiltFrom allowed
  | bindAll p _ nexts =>
    allowed .bindAll ∧ p.BuiltFrom allowed ∧ ∀ i value, (nexts i value).BuiltFrom allowed
  | choice policy ps => allowed (.choice policy) ∧ ∀ i, (ps i).BuiltFrom allowed
  | first p => allowed .first ∧ p.BuiltFrom allowed
  | repeated extent p => allowed (.repeated extent) ∧ p.BuiltFrom allowed
  | chainRight policy p op =>
    allowed (.chainRight policy) ∧ p.BuiltFrom allowed ∧ op.BuiltFrom allowed
  | gather p => allowed .gather ∧ p.BuiltFrom allowed
  | reportAs _ p => allowed .reportAs ∧ p.BuiltFrom allowed
  | recover _ _ p => allowed .recover ∧ p.BuiltFrom allowed
  | named _ p => allowed .named ∧ p.BuiltFrom allowed
  | lookAhead p => allowed .lookAhead ∧ p.BuiltFrom allowed
  | notAhead p => allowed .notAhead ∧ p.BuiltFrom allowed
  | traced _ _ p => allowed .traced ∧ p.BuiltFrom allowed
  | withDepth _ p => allowed .withDepth ∧ p.BuiltFrom allowed
  | deferred _ p => allowed .deferred ∧ p.BuiltFrom allowed
  | rule _ => allowed .rule

namespace Grammar

variable {allowed : Form → Prop} {α β : Type}

@[simp] theorem builtFrom_satisfy {accepts : τ → Bool} {expected : String} :
    (satisfy accepts expected : Grammar N τ τ).BuiltFrom allowed ↔ allowed .satisfy := Iff.rfl

@[simp] theorem builtFrom_succeed {value : α} :
    (succeed value : Grammar N τ α).BuiltFrom allowed ↔ allowed .succeed := Iff.rfl

@[simp] theorem builtFrom_fail {message : String} :
    (fail message : Grammar N τ α).BuiltFrom allowed ↔ allowed .fail := Iff.rfl

@[simp] theorem builtFrom_map {f : α → β} {p : Grammar N τ α} :
    (map f p).BuiltFrom allowed ↔ allowed .map ∧ p.BuiltFrom allowed := Iff.rfl

@[simp] theorem builtFrom_bind {p : Grammar N τ α} {held : List N.Rule} {next : α → Grammar N τ β} :
    (bind p held next).BuiltFrom allowed ↔
      allowed .bind ∧ p.BuiltFrom allowed ∧ ∀ value, (next value).BuiltFrom allowed := Iff.rfl

@[simp] theorem builtFrom_choice {policy : Policy} {count : Nat} {ps : Fin count → Grammar N τ α} :
    (choice policy ps).BuiltFrom allowed ↔
      allowed (.choice policy) ∧ ∀ i, (ps i).BuiltFrom allowed := Iff.rfl

@[simp] theorem builtFrom_repeated {extent : Extent} {p : Grammar N τ α} :
    (repeated extent p).BuiltFrom allowed ↔
      allowed (.repeated extent) ∧ p.BuiltFrom allowed := Iff.rfl

@[simp] theorem builtFrom_reportAs {message : String} {p : Grammar N τ α} :
    (reportAs message p).BuiltFrom allowed ↔ allowed .reportAs ∧ p.BuiltFrom allowed := Iff.rfl

@[simp] theorem builtFrom_named {name : String} {p : Grammar N τ α} :
    (named name p).BuiltFrom allowed ↔ allowed .named ∧ p.BuiltFrom allowed := Iff.rfl

@[simp] theorem builtFrom_notAhead {p : Grammar N τ α} :
    (notAhead p).BuiltFrom allowed ↔ allowed .notAhead ∧ p.BuiltFrom allowed := Iff.rfl

@[simp] theorem builtFrom_traced {tracer : N.Tracer} {name : String} {p : Grammar N τ α} :
    (traced tracer name p).BuiltFrom allowed ↔ allowed .traced ∧ p.BuiltFrom allowed := Iff.rfl

@[simp] theorem builtFrom_deferred {cell : Nat} {p : Grammar N τ α} :
    (deferred cell p).BuiltFrom allowed ↔ allowed .deferred ∧ p.BuiltFrom allowed := Iff.rfl

-- The type is left out of the index, since under known names it is written as what the rule reads.
@[simp] theorem builtFrom_rule {r : N.Rule} :
    @Grammar.BuiltFrom N τ allowed (no_index (N.Result r)) (rule r) ↔ allowed .rule := Iff.rfl

end Grammar

/-- The patterns of all rules belong to the fragment. -/
def Rules.BuiltFrom (allowed : Form → Prop) (rules : Rules N τ) : Prop :=
  ∀ rule pattern, rules rule = .ok pattern → pattern.BuiltFrom allowed

/-- All custom parts of the grammar have the property. -/
def Grammar.Customs (holds : {β : Type} → (Residual τ → Outcome τ β) → Prop) {α : Type} :
    Grammar N τ α → Prop
  | satisfy _ _ => True
  | succeed _ => True
  | fail _ => True
  | endOfInput => True
  | custom run => holds run
  | map _ p => p.Customs holds
  | sequence ps => ∀ i, (ps i).Customs holds
  | bind p _ next => p.Customs holds ∧ ∀ value, (next value).Customs holds
  | bindAll p _ nexts => p.Customs holds ∧ ∀ i value, (nexts i value).Customs holds
  | choice _ ps => ∀ i, (ps i).Customs holds
  | first p => p.Customs holds
  | repeated _ p => p.Customs holds
  | chainRight _ p op => p.Customs holds ∧ op.Customs holds
  | gather p => p.Customs holds
  | reportAs _ p => p.Customs holds
  | recover _ _ p => p.Customs holds
  | named _ p => p.Customs holds
  | lookAhead p => p.Customs holds
  | notAhead p => p.Customs holds
  | traced _ _ p => p.Customs holds
  | withDepth _ p => p.Customs holds
  | deferred _ p => p.Customs holds
  | rule _ => True

/-- All custom parts of the rules' patterns have the property. -/
def Rules.Customs (holds : {β : Type} → (Residual τ → Outcome τ β) → Prop) (rules : Rules N τ) :
    Prop :=
  ∀ rule pattern, rules rule = .ok pattern → pattern.Customs holds

/-- Nothing has to be checked where there are no custom parts. -/
theorem Grammar.BuiltFrom.customs {allowed : Form → Prop}
    {holds : {β : Type} → (Residual τ → Outcome τ β) → Prop} {α : Type} {g : Grammar N τ α}
    (built : g.BuiltFrom allowed) (never : ¬ allowed .custom) : g.Customs holds := by
  induction g with
  | custom run => exact absurd built never
  | satisfy | succeed | fail | endOfInput | rule => trivial
  | sequence ps ih | choice policy ps ih => exact fun i => ih i (built.2 i)
  | bind p held next ih ihNext =>
    exact ⟨ih built.2.1, fun value => ihNext value (built.2.2 value)⟩
  | bindAll p held nexts ih ihNexts =>
    exact ⟨ih built.2.1, fun i value => ihNexts i value (built.2.2 i value)⟩
  | chainRight policy p op ih ihOp => exact ⟨ih built.2.1, ihOp built.2.2⟩
  | map _ p ih | first p ih | repeated _ p ih | gather p ih | reportAs _ p ih | recover _ _ p ih
  | named _ p ih | lookAhead p ih | notAhead p ih | traced _ _ p ih | withDepth _ p ih
  | deferred _ p ih => exact ih built.2

theorem Rules.BuiltFrom.customs {allowed : Form → Prop}
    {holds : {β : Type} → (Residual τ → Outcome τ β) → Prop} {rules : Rules N τ}
    (built : rules.BuiltFrom allowed) (never : ¬ allowed .custom) : rules.Customs holds :=
  fun rule pattern stands => (built rule pattern stands).customs never

/-- Families of parts that are related one by one are related as lists. -/
theorem forall₂_ofFn {A B : Type _} {related : A → B → Prop} {count : Nat} {f : Fin count → A}
    {g : Fin count → B} (each : ∀ i, related (f i) (g i)) :
    List.Forall₂ related (List.ofFn f) (List.ofFn g) := by
  rw [List.forall₂_iff_get]
  refine ⟨by simp, fun i left right => ?_⟩
  simpa using each ⟨i, by simpa using left⟩

end Multiparse
