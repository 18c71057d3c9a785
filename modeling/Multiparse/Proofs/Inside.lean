import Multiparse.Arith.Evaluation
import Multiparse.Proofs.Contract
import Multiparse.Proofs.FarthestError
import Multiparse.Proofs.Mirror

/-!
# Rests and positions inside the input

Whatever a grammar is put together from, what a reading leaves is the end of the same tokens, and a
diagnostic that lies at a token lies at one that was still to be read. So an error of a whole parse
never points beyond the tokens, and a report on a source always has something to point at
(`run_stays_inside`).
-/

namespace Multiparse

variable {τ α : Type}

theorem Residual.start_leadsTo_iff {tokens : List τ} {start : Nat} (within : start ≤ tokens.length)
    {rest : Residual τ} :
    ((Residual.start tokens).advanceBy start).LeadsTo rest ↔
      ∃ stop, start ≤ stop ∧ stop ≤ tokens.length ∧
        rest = (Residual.start tokens).advanceBy stop := by
  constructor
  · rintro ⟨count, rfl⟩
    refine ⟨min (start + count) tokens.length, by omega, by omega, ?_⟩
    rw [advanceBy_advanceBy]
    simp only [advanceBy, Residual.start, min_self, min_assoc, List.drop_eq_drop_iff, mk.injEq,
      and_true]
  · rintro ⟨stop, after, -, rfl⟩
    refine ⟨stop - start, ?_⟩
    rw [advanceBy_advanceBy, Nat.add_sub_cancel' after]

/-! ## The contract -/

/-- A reading leaves an end of the input, and a diagnostic at a token lies at one of the input. -/
def Contract.inside : Contract τ where
  leaves := Residual.LeadsTo
  places input position := ∀ offset, position = .token offset →
    input.offset ≤ offset ∧ offset < input.offset + input.remaining
  fruitful := False
  leaves_self := .refl
  leaves_advance := .advance
  leaves_trans := .trans
  places_unknown _ _ placed := nomatch placed
  places_here input offset placed := by
    obtain ⟨tokens, before⟩ := input
    cases tokens with
    | nil => cases placed
    | cons token tokens =>
      cases placed
      exact ⟨le_rfl, Nat.lt_add_of_pos_right (Nat.succ_pos _)⟩
  places_later leads later offset placed := by
    obtain ⟨above, below⟩ := later offset placed
    exact ⟨leads.offset_le.trans above, leads.total_eq ▸ below⟩

theorem Contract.inside_behind {tokens : List τ} {start offset : Nat} {position : Position}
    (within : start ≤ tokens.length)
    (places : Contract.inside.places ((Residual.start tokens).advanceBy start) position)
    (placed : position = .token offset) : start ≤ offset ∧ offset < tokens.length := by
  obtain ⟨above, below⟩ := places offset placed
  simp only [Residual.advanceBy, Residual.start, Residual.remaining,
    List.length_drop] at above below
  omega

/-! ## Whole parses -/

section Whole

variable [Token τ] {input : Residual τ} {outcome : Outcome τ α}

theorem Outcome.sift_admits {readings : List (Reading τ α)} {error : Option Diagnostic}
    (admits : Contract.inside.Admits input readings error) :
    Contract.inside.Admits input (sift error readings).1 (sift error readings).2 := by
  induction readings generalizing error with
  | nil => exact admits
  | cons reading others ih =>
    have left := admits.leaves reading List.mem_cons_self
    have remaining := admits.sublist (List.subset_cons_self reading others)
    rw [sift]
    cases reading.rest.peek? with
    | none =>
      refine ⟨fun kept member => ?_, (ih remaining).places⟩
      rcases List.mem_cons.mp member with rfl | later
      · exact left
      · exact (ih remaining).leaves kept later
    | some token =>
      have stopped : Contract.inside.Admits reading.rest ([] : List (Reading τ α))
          (some (stoppedAt reading.rest token)) := by
        refine ⟨fun _ member => absurd member List.not_mem_nil, fun reason present => ?_⟩
        obtain rfl := Option.some.inj present
        exact Contract.inside.places_here reading.rest
      exact ih (remaining.merge (stopped.later left))

theorem Outcome.Meets.complete (meets : outcome.Meets .inside input) :
    outcome.complete.Meets .inside input := by
  rw [Outcome.complete]
  split
  · exact meets
  · split
    · exact .failure fun offset placed => nomatch placed
    · exact .conclude (Outcome.sift_admits meets.toAdmits) fun asked => asked.elim

/-- The error of a whole parse lies at a token of the input, if at any. -/
theorem Outcome.Meets.whole_error (meets : outcome.Meets .inside input) {error : Diagnostic}
    (failed : outcome.whole = .error error) :
    Contract.inside.places input error.position := by
  rw [Outcome.whole, Outcome.single] at failed
  split at failed
  · obtain rfl := Except.error.inj failed
    cases present : outcome.complete.error with
    | none => exact Contract.inside.places_unknown input
    | some reason => exact meets.complete.places reason present
  · split at failed
    · obtain rfl := Except.error.inj failed
      exact Contract.inside.places_unknown input
    · cases failed
    · obtain rfl := Except.error.inj failed
      exact Contract.inside.places_unknown input

end Whole

/-! ## Plain parses -/

/-- An observer that takes no notice. -/
@[reducible] def Observes.idle (θ : Type) : Observes θ Run where
  enter _ _ _ := pure 0
  leave _ _ := pure ()
  depth _ := pure 0

theorem Grammar.parse_meets {N : Names} [Token τ] {contract : Contract τ} {rules : Rules N τ}
    (rulesBuilt : rules.BuiltFrom Form.Blind) {limit : Nat} {g : Grammar N τ α}
    (built : g.BuiltFrom Form.Blind) {tokens : List τ} {outcome : Outcome τ α}
    (parsed : g.parse rules limit tokens = .ok outcome) :
    outcome.Meets contract (.start tokens) := by
  let _ := Observes.idle N.Tracer
  have unobtrusive : Unobtrusive N.Tracer :=
    ⟨fun _ _ _ _ => ⟨_, _, rfl⟩, fun _ _ _ => ⟨_, _, rfl⟩⟩
  have mirrors := Grammar.run_mirrors 0 rulesBuilt limit built (.start tokens)
  obtain ⟨after, ended⟩ := (mirrors .initial outcome).mpr
    ⟨outcome, parsed, Outcome.shift_zero outcome⟩
  exact Grammar.interpret_meets (Rules.call_meets (rulesBuilt.customs (·.1 rfl)) limit) g
    (built.customs (·.1 rfl)) _ _ _ _ ended

namespace Arith

open Grammar

theorem number_blind (semantics : Semantics α) : (number semantics).BuiltFrom Form.Blind := by
  refine ⟨by simp [Form.Blind], by simp [lexeme, token, Form.Blind], fun written => ?_⟩
  beta_reduce
  split <;> simp [Form.Blind]

theorem rules_blind (semantics : Semantics α) : (rules semantics).BuiltFrom Form.Blind := by
  intro nonterminal pattern stands
  cases nonterminal with
  | expr =>
    cases stands
    simp [expr, term, leftGrouped, foldLeft, manyUnder, manyGreedy, pair, additive,
      multiplicative, operator, lexeme, token, use, firstOf, choiceOf, Form.Blind,
      Fin.forall_fin_two]
  | factor =>
    cases stands
    simp [factor, number_blind, parenthesized, signed, between, triple, pair, additive, operator,
      lexeme, token, use, firstOf, choiceOf, Form.Blind, Fin.forall_fin_succ]

theorem rejected_iff {semantics : Semantics α} {source : String} {lexemes : List Lexeme}
    {error : Diagnostic} :
    value semantics source lexemes = .error (.rejected source lexemes error) ↔
      ∃ outcome, parse (rules semantics) .expr lexemes = .ok outcome ∧
        outcome.whole = .error error := by
  unfold value
  cases parse (rules semantics) .expr lexemes with
  | error fault => simp
  | ok outcome => cases failed : outcome.whole <;> simp [Except.mapError, failed]

end Arith

/-- **Nothing lies outside of the input.** First, take any grammar without custom parts, under rules
without any, and a run of it behind `start` tokens of a sequence that returns. A reading leaves what
`stop` tokens of the sequence leave, for some `stop` from `start` to the end; the diagnostic lies
nowhere, at the end, or at a token that was still to be read; and if the error of a whole parse lies
at a token, there is such a token and it was still to be read. Second, if lexemes are rejected with
an error at a token, there is such a lexeme, and the report points at it. -/
theorem run_stays_inside {N : Names} [Observes N.Tracer Run] [Token τ] :
    (∀ (rules : Rules N τ) (limit : Nat) (g : Grammar N τ α) (tokens : List τ) (start : Nat),
      start ≤ tokens.length → rules.BuiltFrom (· ≠ .custom) → g.BuiltFrom (· ≠ .custom) →
      ∀ before outcome after,
        Run.Ends (g.run rules limit ((Residual.start tokens).advanceBy start))
          before outcome after →
        (∀ reading ∈ outcome.readings, ∃ stop, start ≤ stop ∧ stop ≤ tokens.length ∧
          reading.rest = (Residual.start tokens).advanceBy stop) ∧
        (∀ error, outcome.error = some error →
          error.position = .unknown ∨ error.position = .eof ∨
            ∃ offset, error.position = .token offset ∧ start ≤ offset ∧ offset < tokens.length) ∧
        (∀ error offset, outcome.whole = .error error → error.position = .token offset →
          start ≤ offset ∧ ∃ token, tokens[offset]? = some token)) ∧
    (∀ (semantics : Arith.Semantics α) (source : String) (lexemes : List Arith.Lexeme)
      (error : Diagnostic) (offset : Nat),
      Arith.value semantics source lexemes = .error (.rejected source lexemes error) →
      error.position = .token offset →
        ∃ lexeme, lexemes[offset]? = some lexeme ∧ ∀ highlight,
          Arith.report highlight source lexemes error =
            Arith.point highlight source lexeme.span error.text) := by
  constructor
  · intro rules limit g tokens start within rulesBuilt built before outcome after returned
    have meets : outcome.Meets .inside _ := Grammar.interpret_meets
      (Rules.call_meets (rulesBuilt.customs (· rfl)) limit) g (built.customs (· rfl)) _
      before outcome after returned
    refine ⟨fun reading member => ?_, fun error present => ?_, fun error offset failed placed => ?_⟩
    · exact (Residual.start_leadsTo_iff within).mp (meets.leaves reading member)
    · cases placed : error.position with
      | unknown => exact .inl rfl
      | eof => exact .inr (.inl rfl)
      | token offset =>
        exact .inr (.inr ⟨offset, rfl,
          Contract.inside_behind within (meets.places error present) placed⟩)
    · obtain ⟨above, below⟩ := Contract.inside_behind within (meets.whole_error failed) placed
      exact ⟨above, tokens[offset], List.getElem?_eq_getElem below⟩
  · intro semantics source lexemes error offset rejected placed
    obtain ⟨outcome, parsed, failed⟩ := Arith.rejected_iff.mp rejected
    have meets : outcome.Meets .inside (.start lexemes) :=
      Grammar.parse_meets (Arith.rules_blind semantics) (by simp [Arith.use, Form.Blind]) parsed
    have below : offset < lexemes.length := by
      simpa [Residual.start, Residual.remaining] using (meets.whole_error failed offset placed).2
    refine ⟨lexemes[offset], List.getElem?_eq_getElem below, fun highlight => ?_⟩
    simp only [Arith.report, placed, List.getElem?_eq_getElem below]

/-- The lexemes of `1 * *`. -/
def Arith.doubledStar : List Arith.Lexeme :=
  [⟨.number "1", ⟨0, 0, 1⟩⟩, ⟨.star, ⟨0, 2, 3⟩⟩, ⟨.star, ⟨0, 4, 5⟩⟩]

/-- Behind `)`, what is read of `( a (` stops within it and what is wrong lies within it. The report
on `1 * *` points at the second star. -/
theorem run_stays_inside_enclosed :
    (∃ outcome after reading error,
      Run.Ends (enclosed.run enclosedRules 3
        ((Residual.start ([")", "(", "a", "("].map Word.ofLexeme)).advanceBy 1))
        .initial outcome after ∧
      outcome.readings = [reading] ∧ outcome.error = some error ∧
      (∃ stop, 1 ≤ stop ∧ stop ≤ 4 ∧ reading.rest =
        (Residual.start ([")", "(", "a", "("].map Word.ofLexeme)).advanceBy stop) ∧
      ∃ offset, error.position = .token offset ∧ 1 ≤ offset ∧ offset < 4) ∧
    ∃ error lexeme,
      Arith.value Arith.printer "1 * *" Arith.doubledStar =
        .error (.rejected "1 * *" Arith.doubledStar error) ∧
      Arith.doubledStar[2]? = some lexeme ∧
      Arith.report .plain "1 * *" Arith.doubledStar error =
        Arith.point .plain "1 * *" lexeme.span error.text := by
  constructor
  · obtain ⟨outcome, after, reading, error, returned, only, present, there⟩ :
        ∃ outcome after reading error,
          Run.Ends (enclosed.run enclosedRules 3
            ((Residual.start ([")", "(", "a", "("].map Word.ofLexeme)).advanceBy 1))
            .initial outcome after ∧
          outcome.readings = [reading] ∧ outcome.error = some error ∧
          error.position = .token 3 := ⟨_, _, _, _, rfl, rfl, rfl, rfl⟩
    obtain ⟨stops, places, -⟩ := (run_stays_inside (N := enclosedNames)).1 enclosedRules 3
      enclosed ([")", "(", "a", "("].map Word.ofLexeme) 1 (by simp) enclosedRules_builtFrom
      enclosed_builtFrom .initial outcome after returned
    refine ⟨outcome, after, reading, error, returned, only, present, ?_, ?_⟩
    · exact stops reading (only ▸ List.mem_singleton_self reading)
    · rcases places error present with unknown | atEnd | inside
      · rw [there] at unknown
        cases unknown
      · rw [there] at atEnd
        cases atEnd
      · exact inside
  · obtain ⟨error, rejected, there⟩ : ∃ error,
        Arith.value Arith.printer "1 * *" Arith.doubledStar =
          .error (.rejected "1 * *" Arith.doubledStar error) ∧ error.position = .token 2 :=
      ⟨_, rfl, rfl⟩
    obtain ⟨lexeme, present, report⟩ := (run_stays_inside (N := enclosedNames) (τ := Word)).2
      Arith.printer "1 * *" Arith.doubledStar error 2 rejected there
    exact ⟨error, lexeme, rejected, present, report .plain⟩

end Multiparse
