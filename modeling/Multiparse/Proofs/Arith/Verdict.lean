import Multiparse.Grammar.Limit
import Multiparse.Proofs.Arith.Settled
import Multiparse.Proofs.WholeInput

/-!
# The verdict on a list of lexemes

Asked for the whole input, the parser of expressions gives either the value of an expression or
the diagnostic of where a reader of expressions stops. That a reading stopped before the end of the
input adds nothing to the diagnostic: it wishes for nothing and is not deeper.
-/

namespace Multiparse

namespace Arith

open Diagnostic Outlook Multiparse.Parser

variable {α : Type} {semantics : Semantics α} {total count : Nat} {lexemes : List Lexeme}

/-! ## Diagnostics that wish for something -/

namespace Reports

variable {error : Option Diagnostic} {kinds : List Kind}

/-- A diagnostic that wishes for something lies where it reports. -/
theorem located (reports : Reports total error count kinds) (wanting : kinds ≠ []) :
    ∃ d, error = some d ∧ d.position = place total count := by
  obtain ⟨kind, member⟩ := List.exists_mem_of_ne_nil kinds wanting
  have wish := (reports.wishes kind.display).mpr (List.mem_map_of_mem member)
  cases error with
  | none => cases wish
  | some d =>
    refine ⟨d, rfl, ?_⟩
    by_contra elsewhere
    rw [wishesAt_of_ne elsewhere] at wish
    cases wish

/-- A diagnostic that wishes for nothing and is not deeper changes nothing. -/
theorem farthest_quiet (reports : Reports total error count kinds) (wanting : kinds ≠ [])
    {quiet : Diagnostic} (shallow : quiet.position ≤ place total count)
    (silent : quiet.expected = []) : farthest error (some quiet) = error := by
  obtain ⟨d, rfl, there⟩ := reports.located wanting
  rw [farthest]
  rcases shallow.lt_or_eq with above | level
  · rw [deeper_of_gt (there ▸ above)]
  · rw [deeper_of_eq (there.trans level.symm), absorb_of_nil silent]

end Reports

theorem wanted_expr_ne_nil (outlook : Outlook) : outlook.wanted .expr ≠ [] := by
  cases outlook with
  | operand depth => exact List.cons_ne_nil _ _
  | operator depth => cases depth <;> exact List.cons_ne_nil _ _

/-! ## Verdicts -/

/-- What can come of reading lexemes as one expression. -/
inductive Verdict (semantics : Semantics α) (lexemes : List Lexeme) :
    Except Diagnostic α → Prop where
  | value {tree : Tree} {value : α} (forms : Forms .expr lexemes tree)
      (image : tree.image? semantics = some value) : Verdict semantics lexemes (.ok value)
  | error {tried : List Lexeme} {final : Outlook} {error : Diagnostic}
      (stops : Stops .expr lexemes.length (.operand 0) (.start lexemes) tried final (some error))
      (unfinished : ¬ (final = .operator 0 ∧ tried = lexemes)) :
      Verdict semantics lexemes (.error error)

/-- A reader who passes the whole input has tried all of it. -/
theorem Stops.finishes {level : Level} {outlook final next : Outlook} {input : Residual Lexeme}
    {tried : List Lexeme} {error : Option Diagnostic}
    (stops : Stops level total outlook input tried final error)
    (passes : pass level outlook input.tokens = some next) :
    final = next ∧ tried = input.tokens := by
  obtain ⟨blocked, tokens, stuck⟩ := stops.stuck
  rw [tokens, pass_append, stops.passes, Option.bind_some] at passes
  cases blocked with
  | nil => exact ⟨Option.some.inj passes, by rw [tokens, List.append_nil]⟩
  | cons head blocked =>
    rw [pass_cons_eq_none (stuck head rfl)] at passes
    cases passes

/-- That a reading stopped in front of a lexeme changes nothing about the diagnostic. -/
theorem Stops.whole_of_left_over {token : Lexeme} {others tried : List Lexeme} {offset : Nat}
    {final : Outlook} {error : Option Diagnostic} (value : α)
    (stops : Stops .expr total (.operator 0) ⟨token :: others, offset⟩ tried final error)
    (spans : Spans total ⟨token :: others, offset⟩) :
    ∃ d, error = some d ∧
      (Outcome.ofReadings [⟨value, ⟨token :: others, offset⟩⟩] error).whole = .error d := by
  have wanting := wanted_expr_ne_nil final
  obtain ⟨d, rfl, -⟩ := stops.reports.located wanting
  have shallow : (Outcome.stoppedAt (⟨token :: others, offset⟩ : Residual Lexeme) token).position ≤
      place total (offset + tried.length) := by
    have there : (Outcome.stoppedAt (⟨token :: others, offset⟩ : Residual Lexeme) token).position =
        place total offset := spans.position_eq
    rw [there]
    exact place_le (Nat.le_add_right _ _) (stops.length_le spans)
  have quiet := stops.reports.farthest_quiet wanting shallow rfl
  refine ⟨d, rfl, (Outcome.whole_of_unfinished rfl (List.cons_ne_nil _ _) rfl).trans ?_⟩
  exact congrArg (fun merged => Except.error (merged.getD .noAlternative)) quiet

/-- A parser of expressions that settles on the whole input comes to a verdict, and reports nothing
but its own diagnostic. -/
theorem Settles.verdict {p : Parser (Except Fault) Lexeme α}
    (settles : Settles semantics .expr lexemes.length p (.start lexemes)) :
    ∃ outcome, p (.start lexemes) = .ok outcome ∧ Verdict semantics lexemes outcome.whole ∧
      ∀ error, outcome.whole = .error error → outcome.error = some error := by
  cases settles with
  | @hit read rest tried tree value final error tokens forms image hits stops apart =>
    obtain rfl : lexemes = read ++ rest := tokens
    refine ⟨_, hits, ?_⟩
    cases rest with
    | nil =>
      rw [Outcome.whole_of_single rfl rfl, List.append_nil]
      exact ⟨.value forms image, fun _ failed => by cases failed⟩
    | cons token others =>
      have spans : Spans (read ++ token :: others).length (.start (read ++ token :: others)) :=
        Nat.zero_add _
      obtain ⟨d, rfl, whole⟩ := stops.whole_of_left_over value (spans.advance rfl)
      rw [whole]
      refine ⟨.error (stops.prepend rfl forms.pass_self) fun ⟨outside, all⟩ => ?_, ?_⟩
      · rw [apart outside] at all
        exact List.cons_ne_nil token others (List.append_cancel_left all).symm
      · exact fun error same => congrArg some (Except.error.inj same)
  | @miss tried final error misses stops unfinished =>
    refine ⟨_, misses.2, ?_⟩
    rw [Outcome.whole_of_failed rfl]
    obtain ⟨d, rfl⟩ := Option.isSome_iff_exists.mp misses.1
    exact ⟨.error stops fun finished => unfinished finished.1,
      fun error same => congrArg some (Except.error.inj same)⟩

/-- Under every sufficient limit on rule calls, reading the lexemes as one expression returns, with
this result. -/
def Reads (semantics : Semantics α) (lexemes : List Lexeme) (result : Except Diagnostic α) : Prop :=
  ∃ outcome, outcome.whole = result ∧ ∀ limit, callLimit lexemes ≤ limit →
    (use .expr).parse (rules semantics) limit lexemes = .ok outcome

theorem Reads.unique {result result' : Except Diagnostic α} (reads : Reads semantics lexemes result)
    (reads' : Reads semantics lexemes result') : result = result' := by
  obtain ⟨outcome, rfl, runs⟩ := reads
  obtain ⟨outcome', rfl, runs'⟩ := reads'
  have same := (runs _ le_rfl).symm.trans (runs' _ le_rfl)
  rw [Except.ok.inj same]

/-- Under the usual limit a run gives what is read under every sufficient one. -/
theorem reads_iff {result : Except Diagnostic α} :
    Reads semantics lexemes result ↔
      ∃ outcome, parse (rules semantics) .expr lexemes = .ok outcome ∧ outcome.whole = result := by
  constructor
  · intro reads
    obtain ⟨outcome, same, runs⟩ := reads
    exact ⟨outcome, runs (callLimit lexemes) le_rfl, same⟩
  · intro given
    obtain ⟨outcome, ran, same⟩ := given
    exact ⟨outcome, same, fun limit enough =>
      Grammar.run_of_le (rules semantics) (use .expr) enough (.start lexemes) outcome ran⟩

/-- **Reading accepted lexemes comes to a verdict.** -/
theorem exists_reads (accepts : semantics.Accepts lexemes) :
    ∃ result, Reads semantics lexemes result ∧ Verdict semantics lexemes result := by
  have settles := (call_settles semantics lexemes.length (callLimit lexemes)).2 _
    (two_mul_le_callLimit lexemes) (.start lexemes) (Nat.zero_add _) (Nat.lt_succ_self _) accepts
  obtain ⟨outcome, ran, verdict, -⟩ := settles.verdict
  exact ⟨outcome.whole, reads_iff.mpr ⟨outcome, ran, rfl⟩, verdict⟩

end Arith

end Multiparse
