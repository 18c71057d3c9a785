import Multiparse.Grammar.Run
import Multiparse.Inspect

/-!
# Cells

A cell has room for one pattern. A rule's cell is made empty and gets its pattern later, at most
once; a stored parser's cell is made with its pattern. Patterns refer to cells by number, either
weakly or as an owner. A cell is freed when nothing holds it any more, and running a weak reference
to a freed cell is a fault.
-/

namespace Multiparse

/-- How a parser refers to a cell. -/
inductive CellRef where
  /-- Without keeping the cell alive. -/
  | weak (cell : Nat)
  /-- Keeping the cell alive. -/
  | owning (cell : Nat)
  deriving DecidableEq

namespace CellRef

/-- The cell referred to. -/
def cell : CellRef → Nat
  | weak cell => cell
  | owning cell => cell

/-- The cell kept alive. -/
def held? : CellRef → Option Nat
  | weak _ => none
  | owning cell => some cell

end CellRef

/-- The names a pattern may use: cells and numbered tracers. -/
abbrev cellNames (ρ : Type) : Names := ⟨CellRef, fun _ => ρ, Nat⟩

/-- A grammar over cells, together with the cells that it keeps alive. -/
structure Pattern (τ ρ : Type) : Type 1 where
  grammar : Grammar (cellNames ρ) τ ρ
  holds : List Nat
  holds_eq : holds = (grammar.references.filterMap CellRef.held?).eraseDups

/-- The pattern of a grammar. -/
def Pattern.ofGrammar {τ ρ : Type} (grammar : Grammar (cellNames ρ) τ ρ) : Pattern τ ρ :=
  ⟨grammar, _, rfl⟩

/-- A place for a pattern. -/
structure Cell (τ ρ : Type) : Type 1 where
  name : String
  pattern : Option (Pattern τ ρ)
  freed : Bool

namespace Cell

variable {τ ρ : Type}

/-- A rule without a pattern. -/
def fresh (name : String) : Cell τ ρ := ⟨name, none, false⟩

/-- A parser that needs no name, since it has its pattern from the start. -/
def filled (pattern : Pattern τ ρ) : Cell τ ρ := ⟨"", some pattern, false⟩

/-- Whether the cell has its pattern. -/
def isDefined (cell : Cell τ ρ) : Bool := cell.pattern.isSome

/-- The cells that this one keeps alive. A freed cell lets go of its pattern. -/
def holds (cell : Cell τ ρ) : List Nat :=
  match cell.freed, cell.pattern with
  | false, some pattern => pattern.holds
  | _, _ => []

/-- The structural text of a rule. -/
def inspect (cell : Cell τ ρ) : String :=
  Inspect.record "Rule"
    [("name", Text.quoted cell.name), ("defined", Inspect.truth cell.isDefined)]

/-- What running a reference to the cell means. -/
def lookUp (cell : Cell τ ρ) (ref : CellRef) : Except Fault (Grammar (cellNames ρ) τ ρ) :=
  match ref, cell.freed, cell.pattern with
  | .weak _, true, _ => .error (.dropped cell.name)
  | _, _, some pattern => .ok pattern.grammar
  | _, _, none => .error (.undefined cell.name)

end Cell

end Multiparse
