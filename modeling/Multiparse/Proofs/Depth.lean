import Mathlib.Data.Prod.Lex
import Mathlib.Order.WithBot
import Multiparse.Diagnostic

/-!
# Depth as an order

Positions are ordered by how deep they lie in the input, and `Position.compareDepth` decides that
order. The depth of an optional diagnostic is its position, with a missing diagnostic below every
position; keeping the farther of two diagnostics takes the maximum of their depths
(`Diagnostic.depth_farthest`).
-/

namespace Multiparse

namespace Position

/-- Before the tokens, among them, or after them, and then the place among them. -/
def rank : Position → ℕ ×ₗ ℕ
  | unknown => toLex (0, 0)
  | token offset => toLex (1, offset)
  | eof => toLex (2, 0)

theorem rank_injective : Function.Injective rank := by
  intro left right same
  cases left <;> cases right <;> simp_all [rank]

instance : LinearOrder Position := LinearOrder.lift' rank rank_injective

theorem lt_iff_rank {left right : Position} : left < right ↔ left.rank < right.rank := Iff.rfl

theorem le_iff_rank {left right : Position} : left ≤ right ↔ left.rank ≤ right.rank := Iff.rfl

@[simp] theorem unknown_le (position : Position) : unknown ≤ position := by
  cases position <;> simp [le_iff_rank, rank, Prod.Lex.toLex_le_toLex]

@[simp] theorem unknown_lt_token (offset : Nat) : unknown < token offset := by
  simp [lt_iff_rank, rank, Prod.Lex.toLex_lt_toLex]

@[simp] theorem unknown_lt_eof : unknown < eof := by
  simp [lt_iff_rank, rank, Prod.Lex.toLex_lt_toLex]

@[simp] theorem token_lt_eof (offset : Nat) : token offset < eof := by
  simp [lt_iff_rank, rank, Prod.Lex.toLex_lt_toLex]

@[simp] theorem token_lt_token {left right : Nat} : token left < token right ↔ left < right := by
  simp [lt_iff_rank, rank, Prod.Lex.toLex_lt_toLex]

theorem compareDepth_eq_lt_iff {left right : Position} :
    left.compareDepth right = .lt ↔ left < right := by
  cases left <;> cases right <;>
    simp [compareDepth, lt_iff_rank, rank, Prod.Lex.toLex_lt_toLex, Nat.compare_eq_lt]

theorem compareDepth_eq_gt_iff {left right : Position} :
    left.compareDepth right = .gt ↔ right < left := by
  rw [← compareDepth_eq_lt_iff, ← compareDepth_swap right left]
  cases right.compareDepth left <;> simp

end Position

namespace Diagnostic

/-- Of two diagnostics the deeper one is kept, and at equal depth the first with more wishes. -/
theorem deeper_cases (first second : Diagnostic) :
    (first.position < second.position ∧ first.deeper second = second) ∨
      (second.position < first.position ∧ first.deeper second = first) ∨
        (first.position = second.position ∧ first.deeper second = first.absorb second) := by
  unfold deeper
  cases compared : first.position.compareDepth second.position with
  | lt => exact .inl ⟨Position.compareDepth_eq_lt_iff.mp compared, rfl⟩
  | gt => exact .inr (.inl ⟨Position.compareDepth_eq_gt_iff.mp compared, rfl⟩)
  | eq => exact .inr (.inr ⟨Position.compareDepth_eq_iff.mp compared, rfl⟩)

@[simp] theorem deeper_position (first second : Diagnostic) :
    (first.deeper second).position = max first.position second.position := by
  rcases deeper_cases first second with ⟨deep, kept⟩ | ⟨deep, kept⟩ | ⟨same, kept⟩
  · rw [kept, max_eq_right deep.le]
  · rw [kept, max_eq_left deep.le]
  · rw [kept, absorb_position, same, max_self]

/-- The position of a diagnostic; a missing one lies below every position. -/
def depth (error : Option Diagnostic) : WithBot Position := error.map position

@[simp] theorem depth_none : depth none = ⊥ := rfl

@[simp] theorem depth_some (error : Diagnostic) : depth (some error) = error.position := rfl

/-- The farther of two diagnostics lies as deep as the deeper one. -/
@[simp] theorem depth_farthest (first second : Option Diagnostic) :
    depth (farthest first second) = max (depth first) (depth second) := by
  cases first with
  | none => simp
  | some first =>
    cases second with
    | none => simp
    | some second =>
      rw [farthest, depth_some, deeper_position, depth_some, depth_some, WithBot.coe_max]

end Diagnostic

end Multiparse
