import Mathlib.Order.Bounds.Basic
import Multiparse.Proofs.Arith.Recognition

/-!
# What is reported about lexemes that are no expression

A reader of expressions passes exactly the lexemes that can be extended to a sentence
(`viable_iff`): where an operand is waited for, a number and the missing parentheses complete them.
So the reader stops behind the longest such prefix, and what it waits for there are the kinds that
can follow in a sentence.
-/

namespace Multiparse.Arith

open Diagnostic Outlook

variable {lexemes : List Lexeme} {outlook : Outlook}

/-! ## Completing a prefix -/

/-- Lexemes that a reader passes up to the end of an expression are a sentence. -/
theorem sentence_of_pass (passes : pass .expr (.operand 0) lexemes = some (.operator 0)) :
    Sentence lexemes := by
  obtain ⟨result, reads, verdict⟩ := exists_reads (printer_accepts lexemes)
  cases verdict with
  | value forms image => exact ⟨_, forms⟩
  | error stops unfinished => exact absurd (stops.finishes passes) unfinished

/-- A lexeme of a kind. -/
def Kind.sample : Kind → Lexeme
  | .number => ⟨.number "0", ⟨0, 0, 0⟩⟩
  | .plus => ⟨.plus, ⟨0, 0, 0⟩⟩
  | .minus => ⟨.minus, ⟨0, 0, 0⟩⟩
  | .star => ⟨.star, ⟨0, 0, 0⟩⟩
  | .slash => ⟨.slash, ⟨0, 0, 0⟩⟩
  | .leftParen => ⟨.leftParen, ⟨0, 0, 0⟩⟩
  | .rightParen => ⟨.rightParen, ⟨0, 0, 0⟩⟩

theorem Kind.sample_kind (kind : Kind) : kind.sample.shape.kind = kind := by
  cases kind <;> rfl

theorem pass_closings (depth : Nat) :
    pass .expr (.operator depth) (List.replicate depth Kind.rightParen.sample) =
      some (.operator 0) := by
  induction depth with
  | zero => rfl
  | succ depth ih =>
    rw [List.replicate_succ, pass_cons (by simp [wanted, Kind.sample_kind])]
    exact ih

/-- From every outlook an expression can be completed. -/
theorem exists_completion (outlook : Outlook) :
    ∃ rest, pass .expr outlook rest = some (.operator 0) := by
  cases outlook with
  | operator depth => exact ⟨_, pass_closings depth⟩
  | operand depth =>
    refine ⟨Kind.number.sample :: List.replicate depth Kind.rightParen.sample, ?_⟩
    rw [pass_cons (by simp [wanted, Kind.sample_kind])]
    exact pass_closings depth

/-- Exactly what a reader passes can be extended to a sentence. -/
theorem viable_iff : Viable lexemes ↔ (pass .expr (.operand 0) lexemes).isSome := by
  constructor
  · rintro ⟨rest, tree, forms⟩
    have passes := forms.pass_self
    rw [pass_append] at passes
    obtain ⟨next, reached, -⟩ := Option.bind_eq_some_iff.mp passes
    rw [reached]
    rfl
  · intro passes
    obtain ⟨next, reached⟩ := Option.isSome_iff_exists.mp passes
    obtain ⟨rest, completes⟩ := exists_completion next
    refine ⟨rest, sentence_of_pass ?_⟩
    rw [pass_append, reached, Option.bind_some, completes]

/-- What can follow in a sentence is what a reader waits for. -/
theorem canFollow_iff (passes : pass .expr (.operand 0) lexemes = some outlook) {kind : Kind} :
    CanFollow lexemes kind ↔ kind ∈ outlook.wanted .expr := by
  have step : ∀ lexeme : Lexeme, Viable (lexemes ++ [lexeme]) ↔
      lexeme.shape.kind ∈ outlook.wanted .expr := by
    intro lexeme
    rw [viable_iff, pass_append, passes, Option.bind_some]
    constructor
    · intro continues
      obtain ⟨next, reached⟩ := Option.isSome_iff_exists.mp continues
      exact (comes_of_pass_cons reached).1
    · intro comes
      rw [pass_cons comes]
      rfl
  constructor
  · rintro ⟨lexeme, rfl, viable⟩
    exact (step lexeme).mp viable
  · intro waited
    refine ⟨kind.sample, kind.sample_kind, (step _).mpr ?_⟩
    rwa [kind.sample_kind]

/-! ## The diagnostic -/

namespace Stops

variable {tried : List Lexeme} {final : Outlook} {error : Option Diagnostic}

/-- The reader stops behind the longest prefix that can be extended to a sentence. -/
theorem isGreatest
    (stops : Stops .expr lexemes.length (.operand 0) (.start lexemes) tried final error) :
    IsGreatest {count | count ≤ lexemes.length ∧ Viable (lexemes.take count)} tried.length := by
  obtain ⟨blocked, tokens, stuck⟩ := stops.stuck
  obtain rfl : lexemes = tried ++ blocked := tokens
  constructor
  · refine ⟨by simp, ?_⟩
    rw [List.take_left, viable_iff, stops.passes]
    rfl
  · rintro count ⟨within, viable⟩
    by_contra further
    obtain ⟨more, rfl⟩ := Nat.exists_eq_add_of_lt (Nat.lt_of_not_le further)
    cases blocked with
    | nil =>
      rw [List.append_nil] at within
      omega
    | cons head blocked =>
      rw [viable_iff, Nat.add_assoc, List.take_length_add_append, List.take_succ_cons, pass_append,
        stops.passes, Option.bind_some, pass_cons_eq_none (stuck head rfl)] at viable
      cases viable

end Stops

/-- **The diagnostic of lexemes that are no sentence is exact.** It lies behind the longest prefix
that can be extended to a sentence, and lists once each, by name, the kinds that can follow
there. -/
theorem diagnostic_of_not_sentence {α : Type} (semantics : Semantics α) (lexemes : List Lexeme)
    (accepts : semantics.Accepts lexemes) (unread : ¬ Sentence lexemes) :
    ∃ count error, Reads semantics lexemes (.error error) ∧
      IsGreatest {count | count ≤ lexemes.length ∧ Viable (lexemes.take count)} count ∧
      error.position = (if count < lexemes.length then .token count else .eof) ∧
      error.expected.Nodup ∧
      ∀ name, name ∈ error.expected ↔
        ∃ kind : Kind, kind.display = name ∧ CanFollow (lexemes.take count) kind := by
  obtain ⟨result, reads, verdict⟩ := exists_reads accepts
  cases verdict with
  | value forms image => exact absurd ⟨_, forms⟩ unread
  | @error tried final error stops unfinished =>
    obtain ⟨d, same, there⟩ := stops.reports.located (wanted_expr_ne_nil final)
    obtain rfl := Option.some.inj same
    have count : (Residual.start lexemes).offset + tried.length = tried.length := Nat.zero_add _
    rw [count] at there
    have prefixed : lexemes.take tried.length = tried := by
      obtain ⟨blocked, tokens, -⟩ := stops.stuck
      obtain rfl : lexemes = tried ++ blocked := tokens
      exact List.take_left
    refine ⟨tried.length, error, reads, stops.isGreatest, there, stops.reports.distinct _ rfl, ?_⟩
    intro name
    have wishes := stops.reports.wishes name
    rw [count, wishesAt, if_pos there, List.mem_map] at wishes
    rw [wishes, prefixed]
    simp only [canFollow_iff stops.passes, and_comm]

/-- In `(1 + *)` the sign of multiplication is in the wrong place. -/
theorem diagnostic_of_misplaced_star :
    printer.Accepts (unplaced [.leftParen, .number "1", .plus, .star, .rightParen]) ∧
    ¬ Sentence (unplaced [.leftParen, .number "1", .plus, .star, .rightParen]) ∧
    ∃ error, Reads printer (unplaced [.leftParen, .number "1", .plus, .star, .rightParen])
        (.error error) ∧
      error.position = .token 3 ∧ "NUM" ∈ error.expected ∧ "'*'" ∉ error.expected := by
  have unread : ¬ Sentence (unplaced [.leftParen, .number "1", .plus, .star, .rightParen]) :=
    fun ⟨tree, forms⟩ => absurd forms.pass_self (by decide)
  refine ⟨printer_accepts _, unread, ?_⟩
  obtain ⟨count, error, reads, greatest, position, -, expected⟩ :=
    diagnostic_of_not_sentence printer _ (printer_accepts _) unread
  obtain rfl : count = 3 := by
    refine greatest.unique ⟨⟨by decide, viable_iff.mpr (by decide)⟩, ?_⟩
    rintro other ⟨within, viable⟩
    by_contra further
    have beyond : other = 4 ∨ other = 5 := by
      rw [unplaced, List.length_map] at within
      simp only [List.length_cons, List.length_nil] at within
      omega
    rcases beyond with rfl | rfl <;> exact absurd (viable_iff.mp viable) (by decide)
  have passes : pass .expr (.operand 0) ((unplaced [.leftParen, .number "1", .plus, .star,
      .rightParen]).take 3) = some (.operand 1) := by decide
  simp only [canFollow_iff passes] at expected
  refine ⟨error, reads, position, (expected "NUM").mpr ⟨.number, rfl, by decide⟩, ?_⟩
  intro listed
  obtain ⟨kind, display, waited⟩ := (expected "'*'").mp listed
  revert display waited
  cases kind <;> decide

end Multiparse.Arith
