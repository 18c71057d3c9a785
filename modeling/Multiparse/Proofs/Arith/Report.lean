import Multiparse.Arith.Calculator
import Multiparse.Proofs.Arith.Outlook
import Multiparse.Proofs.SingleReading

/-!
# What a diagnostic of arithmetic says

A diagnostic reports at a count of lexemes if it lies no deeper than that count. The kinds it wishes
for there are what matters: where it is shallower it wishes for nothing. Merging two diagnostics
that report at the same count unites their wishes (`Reports.merge`), and a deeper count forgets them
(`Reports.past`).
-/

namespace Multiparse.Arith

open Diagnostic

/-- The position behind `count` of `total` lexemes. -/
def place (total count : Nat) : Position := if count < total then .token count else .eof

theorem place_lt {total first second : Nat} (before : first < second) (within : second ≤ total) :
    place total first < place total second := by
  rw [place, if_pos (before.trans_le within), place]
  split
  · exact Position.token_lt_token.mpr before
  · exact Position.token_lt_eof first

theorem place_le {total first second : Nat} (before : first ≤ second) (within : second ≤ total) :
    place total first ≤ place total second := by
  rcases before.lt_or_eq with earlier | rfl
  · exact (place_lt earlier within).le
  · exact le_rfl

/-- The diagnostic lies at most behind `count` lexemes, and there it wishes for the kinds. -/
structure Reports (total : Nat) (error : Option Diagnostic) (count : Nat) (kinds : List Kind) :
    Prop where
  reach : depth error ≤ place total count
  wishful : Wishful error
  distinct : Distinct error
  wishes : ∀ name, name ∈ wishesAt (place total count) error ↔ name ∈ kinds.map Kind.display

namespace Reports

variable {total count : Nat} {error first second : Option Diagnostic} {kinds others : List Kind}

theorem missing (total count : Nat) : Reports total none count [] where
  reach := bot_le
  wishful := wishful_none
  distinct := by rintro d ⟨⟩
  wishes := by simp [wishesAt]

theorem leaf {d : Diagnostic} {kind : Kind} (there : d.position = place total count)
    (wish : d.expected = [kind.display]) : Reports total (some d) count [kind] where
  reach := by rw [depth_some, there]
  wishful := by
    rintro d' ⟨⟩
    rw [wish]
    exact List.cons_ne_nil _ _
  distinct := by
    rintro d' ⟨⟩
    rw [wish]
    exact List.pairwise_singleton _ _
  wishes := by simp [wishesAt, there, wish]

/-- At a deeper count a diagnostic wishes for nothing. -/
theorem past (reports : Reports total error count kinds) {later : Nat} (further : count < later)
    (within : later ≤ total) : Reports total error later [] where
  reach := reports.reach.trans (WithBot.coe_le_coe.mpr (place_lt further within).le)
  wishful := reports.wishful
  distinct := reports.distinct
  wishes := by
    intro name
    cases error with
    | none => simp [wishesAt]
    | some d =>
      have shallow : d.position ≤ place total count := WithBot.coe_le_coe.mp reports.reach
      rw [wishesAt_of_ne (shallow.trans_lt (place_lt further within)).ne]
      simp

/-- A diagnostic that wishes for nothing at a count wishes for nothing later. -/
theorem later (reports : Reports total error count []) {later : Nat} (further : count ≤ later)
    (within : later ≤ total) : Reports total error later [] := by
  rcases further.lt_or_eq with before | rfl
  · exact reports.past before within
  · exact reports

/-- Merging diagnostics unites what they wish for. -/
theorem merge (left : Reports total first count kinds)
    (right : Reports total second count others) :
    Reports total (farthest first second) count (kinds ++ others) where
  reach := by
    rw [depth_farthest]
    exact max_le left.reach right.reach
  wishful := left.wishful.farthest right.wishful
  distinct := left.distinct.farthest right.distinct
  wishes := by
    intro name
    rw [mem_wishesAt_farthest left.reach right.reach left.wishful right.wishful, left.wishes,
      right.wishes, List.map_append, List.mem_append]

end Reports

end Multiparse.Arith
