import Mathlib.Order.Bounds.Defs
import Multiparse.Grammar.Run
import Multiparse.Proofs.Foremost
import Multiparse.Proofs.WellFormed

/-!
# Readings of the whole input

Asking for the whole input keeps the readings that leave nothing, wherever they stand among the
others. There is a result exactly if one of them is left; if there is none, the diagnostic is the
first of the deepest among the one that the parse came with and those that say where the readings
stopped (`whole_exact`).
-/

namespace Multiparse

open Diagnostic

variable {τ α : Type} [Token τ]

namespace Outcome

/-- What a reading counts as that leaves some token; one that leaves nothing counts for nothing. -/
def stop (reading : Reading τ α) : Option Diagnostic :=
  reading.rest.peek?.map (stoppedAt reading.rest)

/-- The readings that leave nothing. -/
def finished (outcome : Outcome τ α) : List (Reading τ α) :=
  outcome.readings.filter fun reading => reading.rest.isEmpty

variable {outcome : Outcome τ α} {reading : Reading τ α} {reason : Diagnostic}

/-! ## Where readings stop -/

theorem depth_stop (left : reading.rest.isEmpty = false) :
    depth (stop reading) = Position.token reading.rest.offset := by
  obtain ⟨value, ⟨tokens, offset⟩⟩ := reading
  cases tokens with
  | nil => cases left
  | cons token tokens => rfl

theorem expected_of_stop (stopped : stop reading = some reason) : reason.expected = [] := by
  obtain ⟨token, -, rfl⟩ := Option.map_eq_some_iff.mp stopped
  rfl

theorem wishesAt_stop (position : Position) (reading : Reading τ α) :
    wishesAt position (stop reading) = [] := by
  cases stopped : stop reading with
  | none => rfl
  | some reason => simp [wishesAt, expected_of_stop stopped]

theorem sift_eq (error : Option Diagnostic) (readings : List (Reading τ α)) :
    sift error readings =
      (readings.filter fun reading => reading.rest.isEmpty,
        (readings.map stop).foldl farthest error) := by
  induction readings generalizing error with
  | nil => rfl
  | cons reading others ih =>
    obtain ⟨value, ⟨tokens, offset⟩⟩ := reading
    rw [sift]
    cases tokens with
    | nil =>
      simp only [Residual.peek?, List.head?_nil, ih]
      simp [stop, Residual.peek?, Residual.isEmpty]
    | cons token tokens =>
      simp only [Residual.peek?, List.head?_cons, ih]
      simp [stop, Residual.peek?, Residual.isEmpty]

/-! ## The whole input -/

theorem complete_of_readings (succeeded : outcome.success = true) (found : outcome.readings ≠ []) :
    outcome.complete =
      .conclude (!outcome.finished.isEmpty) outcome.finished
        ((outcome.readings.map stop).foldl farthest outcome.error) := by
  simp [complete, succeeded, found, sift_eq, finished]

omit [Token τ] in
theorem readings_ne_nil (given : outcome.finished ≠ []) : outcome.readings ≠ [] := by
  intro nothing
  rw [finished, nothing] at given
  exact given List.filter_nil

theorem whole_of_single (succeeded : outcome.success = true)
    (single : outcome.finished = [reading]) : outcome.whole = .ok reading.value := by
  have found := readings_ne_nil (single ▸ List.cons_ne_nil _ _)
  rw [whole, complete_of_readings succeeded found, single]
  rfl

theorem whole_of_several (succeeded : outcome.success = true)
    (several : 2 ≤ outcome.finished.length) :
    outcome.whole = .error (.ofMessage "multiple results are returned") := by
  match split : outcome.finished, several with
  | first :: second :: others, _ =>
    have found := readings_ne_nil (split ▸ List.cons_ne_nil _ _)
    rw [whole, complete_of_readings succeeded found, split]
    rfl

theorem whole_of_unfinished (succeeded : outcome.success = true) (found : outcome.readings ≠ [])
    (unfinished : outcome.finished = []) :
    outcome.whole =
      .error (((outcome.readings.map stop).foldl farthest outcome.error).getD .noAlternative) := by
  rw [whole, complete_of_readings succeeded found, unfinished]
  rfl

theorem whole_of_failed (failed : outcome.success = false) :
    outcome.whole = .error (outcome.error.getD .noAlternative) := by
  simp [whole, complete, single, failed]

theorem whole_of_barren (succeeded : outcome.success = true) (barren : outcome.readings = []) :
    outcome.whole = .error ((Diagnostic.ofMessage "no result is returned").moveTo .eof) := by
  simp [whole, complete, single, succeeded, barren, failure]

/-- There is a result exactly if one reading leaves nothing. -/
theorem whole_eq_ok_iff {value : α} :
    outcome.whole = .ok value ↔
      outcome.success = true ∧ ∃ reading, outcome.finished = [reading] ∧ reading.value = value := by
  constructor
  · intro given
    cases succeeded : outcome.success with
    | false =>
      rw [whole_of_failed succeeded] at given
      cases given
    | true =>
      refine ⟨rfl, ?_⟩
      match split : outcome.finished with
      | [reading] =>
        rw [whole_of_single succeeded split] at given
        exact ⟨reading, rfl, Except.ok.inj given⟩
      | first :: second :: others =>
        rw [whole_of_several succeeded (by simp [split])] at given
        cases given
      | [] =>
        by_cases found : outcome.readings = []
        · rw [whole_of_barren succeeded found] at given
          cases given
        · rw [whole_of_unfinished succeeded found split] at given
          cases given
  · intro holds
    obtain ⟨succeeded, reading, single, rfl⟩ := holds
    exact whole_of_single succeeded single

/-- Where no reading leaves nothing, the first of the deepest diagnostics is given. -/
theorem whole_of_foremost (succeeded : outcome.success = true) (found : outcome.readings ≠ [])
    (unfinished : outcome.finished = []) {later : List (Option Diagnostic)}
    (foremost : Foremost (outcome.error :: outcome.readings.map stop) reason later) :
    outcome.whole = .error reason := by
  have merged := foremost.foldl_farthest
  rw [List.foldl_cons, farthest_none_left] at merged
  rw [whole_of_unfinished succeeded found unfinished, merged, Option.getD_some]
  rcases foremost.of_cons with ⟨-, rfl⟩ | ⟨-, stops⟩
  · -- The outcome's own diagnostic is met first, and no stop adds to its wishes.
    rw [joined_eq_self fun error member => ?_]
    obtain ⟨reading, -, rfl⟩ := List.mem_map.mp member
    exact wishesAt_stop _ reading
  · obtain ⟨reading, -, stopped⟩ := List.mem_map.mp stops.mem
    rw [joined_of_silent (expected_of_stop stopped)]

theorem exists_foremost_stop (found : outcome.readings ≠ []) (unfinished : outcome.finished = []) :
    ∃ reason later, Foremost (outcome.error :: outcome.readings.map stop) reason later := by
  obtain ⟨reading, member⟩ := List.exists_mem_of_ne_nil _ found
  have left := List.filter_eq_nil_iff.mp unfinished reading member
  rcases exists_foremost (outcome.error :: outcome.readings.map stop) with missing | foremost
  · have absent := missing (stop reading) (List.mem_cons_of_mem _ (List.mem_map_of_mem member))
    have deep := depth_stop (Bool.eq_false_of_not_eq_true left)
    rw [absent] at deep
    cases deep
  · exact foremost

/-- The first of the deepest stops is that of the first reading that got there. -/
theorem exists_reading_of_foremost {readings : List (Reading τ α)}
    {later : List (Option Diagnostic)}
    (left : ∀ reading ∈ readings, reading.rest.isEmpty = false)
    (foremost : Foremost (readings.map stop) reason later) :
    ∃ before reading behind token, readings = before ++ reading :: behind ∧
      (∀ other ∈ before, other.rest.offset < reading.rest.offset) ∧
      reading.rest.peek? = some token ∧ reason = stoppedAt reading.rest token := by
  obtain ⟨earlier, split, shallow, -⟩ := foremost
  obtain ⟨before, others, rfl, rfl, stops⟩ := List.map_eq_append_iff.mp split
  obtain ⟨reading, behind, rfl, stopped, -⟩ := List.map_eq_cons_iff.mp stops
  obtain ⟨token, next, rfl⟩ := Option.map_eq_some_iff.mp stopped
  refine ⟨before, reading, behind, token, rfl, fun other member => ?_, next, rfl⟩
  have there := depth_stop (left reading (List.mem_append_right _ List.mem_cons_self))
  have lower := shallow (stop other) (List.mem_map_of_mem member)
  rw [depth_stop (left other (List.mem_append_left _ member)), ← depth_some, ← stopped, there,
    WithBot.coe_lt_coe, Position.token_lt_token] at lower
  exact lower

end Outcome

omit [Token τ] in
/-- Of the rests of some tokens the one behind all of them is empty. -/
theorem Residual.LeadsTo.isEmpty_iff {tokens : List τ} {rest : Residual τ}
    (leads : (Residual.start tokens).LeadsTo rest) :
    rest.isEmpty = true ↔ rest.offset = tokens.length := by
  have total := leads.total_eq
  simp only [Residual.start, Residual.remaining, Nat.zero_add] at total
  rw [Residual.isEmpty, List.isEmpty_iff_length_eq_zero]
  omega

/-- **The whole input is read in one way or not at all.** Let the run of a grammar on some tokens
return. Asked for the whole input, it gives a value exactly if it is a success, one of its readings
leaves nothing, and this is the value of that reading; the others may be many and stand anywhere. If
several readings leave nothing, this is what is reported. If it has readings and all of them leave
something, the reported diagnostic lies at the deepest place among its own diagnostic and the stops
of its readings. It is its own one if that lies there, and otherwise it tells where the first of the
readings that got there stopped. A failure with a reason is reported as it is. -/
theorem whole_exact {N : Names} {rules : Rules N τ} {limit : Nat} {g : Grammar N τ α}
    {tokens : List τ} {outcome : Outcome τ α} (ran : g.parse rules limit tokens = .ok outcome) :
    (∀ value, Outcome.whole <$> g.parse rules limit tokens = .ok (.ok value) ↔
      outcome.success = true ∧
        ∃ reading, (outcome.readings.filter fun reading => reading.rest.isEmpty) = [reading] ∧
          reading.value = value) ∧
    (∀ rest, (Residual.start tokens).LeadsTo rest →
      (rest.isEmpty = true ↔ rest.offset = tokens.length)) ∧
    (outcome.success = true →
      2 ≤ (outcome.readings.filter fun reading => reading.rest.isEmpty).length →
        Outcome.whole <$> g.parse rules limit tokens =
          .ok (.error (.ofMessage "multiple results are returned"))) ∧
    (outcome.success = true → outcome.readings ≠ [] →
      (∀ reading ∈ outcome.readings, reading.rest.isEmpty = false) →
        ∃ reason, Outcome.whole <$> g.parse rules limit tokens = .ok (.error reason) ∧
          IsGreatest {place | place = depth outcome.error ∨ ∃ reading ∈ outcome.readings,
            place = Position.token reading.rest.offset} reason.position ∧
          (∀ own, outcome.error = some own → own.position = reason.position → reason = own) ∧
          (depth outcome.error < reason.position →
            ∃ before reading later token, outcome.readings = before ++ reading :: later ∧
              (∀ other ∈ before, other.rest.offset < reading.rest.offset) ∧
              reading.rest.peek? = some token ∧
              reason = Outcome.stoppedAt reading.rest token)) ∧
    ∀ reason, outcome.success = false → outcome.error = some reason →
      Outcome.whole <$> g.parse rules limit tokens = .ok (.error reason) := by
  have given : ∀ result, Outcome.whole <$> g.parse rules limit tokens = .ok result ↔
      outcome.whole = result := by
    intro result
    rw [ran]
    exact ⟨Except.ok.inj, congrArg Except.ok⟩
  simp only [given]
  refine ⟨fun value => Outcome.whole_eq_ok_iff, fun rest => Residual.LeadsTo.isEmpty_iff,
    Outcome.whole_of_several, fun succeeded found left => ?stops, fun reason failed own => ?failure⟩
  case stops =>
    have unfinished : outcome.finished = [] := by
      rw [Outcome.finished, List.filter_eq_nil_iff]
      intro reading member
      rw [left reading member]
      exact Bool.false_ne_true
    obtain ⟨reason, later, foremost⟩ := Outcome.exists_foremost_stop found unfinished
    refine ⟨reason, Outcome.whole_of_foremost succeeded found unfinished foremost, ⟨?among, ?bound⟩,
      ?own, ?first⟩
    case among =>
      rcases List.mem_cons.mp foremost.mem with own | stopped
      · exact .inl (congrArg depth own)
      · obtain ⟨reading, member, stopped⟩ := List.mem_map.mp stopped
        refine .inr ⟨reading, member, ?_⟩
        rw [← Outcome.depth_stop (left reading member), stopped, depth_some]
    case bound =>
      rintro place (rfl | ⟨reading, member, rfl⟩)
      · exact foremost.depth_le List.mem_cons_self
      · rw [← Outcome.depth_stop (left reading member)]
        exact foremost.depth_le (List.mem_cons_of_mem _ (List.mem_map_of_mem member))
    case own =>
      intro own present level
      rcases foremost.of_cons with ⟨same, -⟩ | ⟨deeper, -⟩
      · exact Option.some.inj (same.symm.trans present)
      · rw [present, depth_some, level] at deeper
        exact absurd deeper (lt_irrefl _)
    case first =>
      intro deeper
      rcases foremost.of_cons with ⟨same, -⟩ | ⟨-, stops⟩
      · rw [same, depth_some] at deeper
        exact absurd deeper (lt_irrefl _)
      · exact Outcome.exists_reading_of_foremost left stops
  case failure =>
    rw [Outcome.whole_of_failed failed, own, Option.getD_some]

section Letters

open Grammar

/-- The same letter any number of times. -/
def letters : Grammar towerNames Word (List Word) := many (literal "a")

/-- Letters are read to the end of the input, up to another letter, in two ways or not at all. -/
theorem whole_exact_letters :
    Outcome.whole <$> letters.parse towerRules 0 (["a", "a"].map Word.ofLexeme) =
      .ok (.ok (["a", "a"].map Word.ofLexeme)) ∧
    Outcome.whole <$> letters.parse towerRules 0 (["a", "b"].map Word.ofLexeme) =
      .ok (.error (.mismatch "'a'" "'b'" 1)) ∧
    Outcome.whole <$> (anyOf [literal "a", anyToken] : Grammar towerNames Word Word).parse
        towerRules 0 (["a"].map Word.ofLexeme) =
      .ok (.error (.ofMessage "multiple results are returned")) ∧
    Outcome.whole <$> (literal "a" : Grammar towerNames Word Word).parse
        towerRules 0 (["b"].map Word.ofLexeme) =
      .ok (.error (.mismatch "'a'" "'b'" 0)) := by
  obtain ⟨value, -⟩ := whole_exact
    (rfl : letters.parse towerRules 0 (["a", "a"].map Word.ofLexeme) = .ok _)
  obtain ⟨-, -, -, stops, -⟩ := whole_exact
    (rfl : letters.parse towerRules 0 (["a", "b"].map Word.ofLexeme) = .ok _)
  obtain ⟨-, -, several, -⟩ := whole_exact
    (rfl : (anyOf [literal "a", anyToken] : Grammar towerNames Word Word).parse
      towerRules 0 (["a"].map Word.ofLexeme) = .ok _)
  obtain ⟨-, -, -, -, failure⟩ := whole_exact
    (rfl : (literal "a" : Grammar towerNames Word Word).parse
      towerRules 0 (["b"].map Word.ofLexeme) = .ok _)
  refine ⟨(value _).mpr ⟨rfl, _, rfl, rfl⟩, ?_, several rfl (by decide), failure _ rfl rfl⟩
  obtain ⟨reason, reported, -, own, -⟩ := stops rfl (List.cons_ne_nil _ _) (by decide)
  have level : (Diagnostic.mismatch "'a'" "'b'" 1).position = reason.position := by
    cases reported
    rfl
  obtain rfl := own _ rfl level
  exact reported

end Letters

end Multiparse
