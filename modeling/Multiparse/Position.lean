/-!
# Positions in a token sequence

A position says how far into the input something happened. Positions are ordered by depth: an
unknown position is shallower than every token, a later token is deeper than an earlier one, and
the end of the input is deepest of all.
-/

namespace Multiparse

/-- A place in a token sequence. -/
inductive Position where
  /-- No place can be attributed. -/
  | unknown
  /-- The token with this many tokens before it. -/
  | token (offset : Nat)
  /-- The place after the last token. -/
  | eof
  deriving DecidableEq

namespace Position

/-- Compares how deep two positions are. -/
def compareDepth : Position → Position → Ordering
  | unknown, unknown => .eq
  | unknown, _ => .lt
  | _, unknown => .gt
  | token left, token right => compare left right
  | token _, eof => .lt
  | eof, token _ => .gt
  | eof, eof => .eq

/-- The offset of a position that names a token. -/
def offset? : Position → Option Nat
  | token offset => some offset
  | _ => none

/-- Positions read by people count tokens from one. -/
def text : Position → String
  | unknown => "<unknown>"
  | token offset => "token " ++ toString (offset + 1)
  | eof => "end of input"

/-- Only equal positions are equally deep. -/
theorem compareDepth_eq_iff {left right : Position} :
    left.compareDepth right = .eq ↔ left = right := by
  cases left <;> cases right <;> simp [compareDepth]

/-- Comparing the other way round gives the opposite answer. -/
theorem compareDepth_swap (left right : Position) :
    (left.compareDepth right).swap = right.compareDepth left := by
  cases left <;> cases right <;> simp [compareDepth, Nat.compare_swap]

end Position

end Multiparse
