import Multiparse.Arith.Evaluation
import Multiparse.Proofs.Arith.Diagnosis
import Multiparse.Proofs.Confinement

/-!
# Where an invalid number is reported

A semantics may reject numbers. Reading lexemes as one expression then fails at the first number
that it rejects, if a number can stand there at all, and in no other case the message is about an
invalid number. The number itself has been consumed when the parser fails, so the diagnostic does
not lie at the number but right behind it, and a report points at the lexeme that comes next
(`invalid_number_behind`).
-/

namespace Multiparse.Arith

open Diagnostic Outlook Multiparse.Parser

variable {α : Type} {semantics : Semantics α} {lexemes before behind : List Lexeme}
  {numeral : Lexeme}

/-- The message says that a number is invalid. -/
def BlamesNumber (error : Diagnostic) : Prop :=
  ∃ description, error.message = "invalid number " ++ description

/-- The number stands where one can stand, and it is the first that the semantics rejects. -/
structure FirstRejected (semantics : Semantics α) (before : List Lexeme) (numeral : Lexeme) :
    Prop where
  accepts : semantics.Accepts before
  follows : CanFollow before .number
  rejects : semantics.Rejects numeral

theorem not_blamesNumber {error : Diagnostic} (message : String) (is : error.message = message)
    (other : message.toList.head? ≠ some 'i') : ¬ BlamesNumber error := by
  intro blames
  obtain ⟨description, same⟩ := blames
  rw [← is, same, String.toList_append] at other
  exact other rfl

/-! ## Diagnostics that wish for something -/

/-- The rest begins behind at most `limit` of the lexemes. A diagnostic that wishes for something
lies no deeper than that, and it blames no number. -/
def upTo (lexemes : List Lexeme) (limit : Nat) : Bounds Lexeme where
  rests input := input.offset ≤ limit ∧ input.tokens = lexemes.drop input.offset
  reports error := error.expected ≠ [] →
    ¬ BlamesNumber error ∧ error.position ≤ place lexemes.length limit
  absorb := by
    intro kept other holds wishful
    have wishes : kept.expected ≠ [] := by
      intro silent
      rw [absorb_of_silent silent] at wishful
      exact wishful silent
    obtain ⟨blameless, shallow⟩ := holds wishes
    rw [BlamesNumber, absorb_message, absorb_position]
    exact ⟨blameless, shallow⟩
  noAlternative := fun wishful => absurd rfl wishful

/-- Nothing stands behind `limit` lexemes, or a number that the semantics rejects. -/
structure Barred (semantics : Semantics α) (lexemes : List Lexeme) (limit : Nat) : Prop where
  within : limit ≤ lexemes.length
  stands : ∀ head, (lexemes.drop limit).head? = some head → semantics.Rejects head

namespace Barred

variable {limit : Nat}

theorem at_end (semantics : Semantics α) (lexemes : List Lexeme) :
    Barred semantics lexemes lexemes.length where
  within := le_rfl
  stands := by
    intro head standing
    rw [List.drop_length] at standing
    cases standing

theorem at_rejected (first : FirstRejected semantics before numeral) (behind : List Lexeme) :
    Barred semantics (before ++ numeral :: behind) before.length where
  within := by simp
  stands := by
    intro head standing
    rw [List.drop_left] at standing
    obtain rfl := Option.some.inj standing
    exact first.rejects

variable {input : Residual Lexeme}

theorem spans (barred : Barred semantics lexemes limit)
    (inside : (upTo lexemes limit).rests input) : Spans lexemes.length input := by
  have offset := inside.1.trans barred.within
  unfold Spans
  rw [inside.2, List.length_drop]
  omega

/-- A lexeme that is not rejected leads to a rest within the bounds. -/
theorem tail {head : Lexeme} {rest : List Lexeme} {offset : Nat}
    (barred : Barred semantics lexemes limit)
    (inside : (upTo lexemes limit).rests ⟨head :: rest, offset⟩)
    (passable : ¬ semantics.Rejects head) :
    (upTo lexemes limit).rests ⟨rest, offset + 1⟩ := by
  obtain ⟨within, tokens⟩ := inside
  simp only at within tokens
  constructor
  · by_contra beyond
    obtain rfl : offset = limit := by
      simp only at beyond
      omega
    exact passable (barred.stands head (by rw [← tokens, List.head?_cons]))
  · change rest = lexemes.drop (offset + 1)
    rw [← List.tail_drop, ← tokens, List.tail_cons]

end Barred

/-! ## Rules -/

section Rules

variable {call : Nonterminal → Parser (Except Fault) Lexeme α} {limit : Nat}
  {input : Residual Lexeme} {kind : Kind}

theorem lexeme_blameless {outcome : Outcome Lexeme Lexeme}
    (returned : (lexeme kind : Phrase α Lexeme).interpret call input = .ok outcome) :
    ∀ reason, outcome.error = some reason → ¬ BlamesNumber reason := by
  obtain ⟨tokens, offset⟩ := input
  cases returned
  cases tokens with
  | nil =>
    rintro reason ⟨⟩
    exact not_blamesNumber "unexpected end of input" rfl (by decide)
  | cons head rest =>
    intro reason present
    by_cases accepted : decide (Token.kind head = kind) = true
    · simp only [Residual.peek?, List.head?_cons, accepted, ↓reduceIte] at present
      cases present
    · simp only [Residual.peek?, List.head?_cons, accepted] at present
      cases present
      exact not_blamesNumber "unexpected token" rfl (by decide)

theorem leftGrouped_confined (semantics : Semantics α) {bounds : Bounds Lexeme}
    {operand : Phrase α α} {operators : Phrase α Op}
    (operands : (operand.interpret call).Confined bounds)
    (signs : (operators.interpret call).Confined bounds) :
    ((leftGrouped semantics operand operators).interpret call).Confined bounds :=
  map_confined (pair_confined (q := .repeated .greedy (.pair operators operand)) operands
    (greedy_confined (pair_confined signs operands))) _

namespace Barred

/-- Where another lexeme stands, a missing one is reported within the bounds. -/
theorem lexeme_missed (barred : Barred semantics lexemes limit)
    (inside : (upTo lexemes limit).rests input)
    (other : ∀ head, input.tokens.head? = some head → head.shape.kind ≠ kind) :
    ∃ error, Misses ((lexeme kind : Phrase α Lexeme).interpret call) input error ∧
      ∀ reason, error = some reason → (upTo lexemes limit).reports reason := by
  obtain ⟨error, misses, reports⟩ := lexeme_misses call (barred.spans inside) other
  refine ⟨error, misses, fun reason present _ => ⟨lexeme_blameless misses.2 reason present, ?_⟩⟩
  have reach : depth error ≤ place lexemes.length limit :=
    reports.reach.trans (WithBot.coe_le_coe.mpr (place_le inside.1 barred.within))
  rw [present] at reach
  exact WithBot.coe_le_coe.mp reach

theorem lexeme_confined (barred : Barred semantics lexemes limit) (noNumber : kind ≠ .number) :
    ((lexeme kind : Phrase α Lexeme).interpret call).Confined (upTo lexemes limit) := by
  rintro ⟨tokens, offset⟩ outcome inside returned
  by_cases other : ∀ head, tokens.head? = some head → head.shape.kind ≠ kind
  · obtain ⟨error, misses, reports⟩ := barred.lexeme_missed inside other
    exact misses.admits reports returned
  · push Not at other
    obtain ⟨head, standing, is⟩ := other
    obtain ⟨rest, rfl⟩ := List.head?_eq_some_iff.mp standing
    have left := barred.tail inside fun rejects => noNumber (is ▸ rejects.1)
    exact (lexeme_hits call is rest offset).admits left returned

/-- A rejected number ends the parse, so nothing is read behind it. -/
theorem number_confined (barred : Barred semantics lexemes limit) :
    ((number semantics).interpret call).Confined (upTo lexemes limit) := by
  rintro ⟨tokens, offset⟩ outcome inside returned
  by_cases other : ∀ head, tokens.head? = some head → head.shape.kind ≠ .number
  · obtain ⟨error, misses, reports⟩ := barred.lexeme_missed inside other
    exact (misses.bind _).admits reports returned
  · push Not at other
    obtain ⟨head, standing, isNumber⟩ := other
    obtain ⟨rest, rfl⟩ := List.head?_eq_some_iff.mp standing
    cases image : semantics.number head.shape.text with
    | none =>
      have misses := number_complains call ⟨isNumber, image⟩ (barred.spans inside)
      refine misses.admits ?_ returned
      rintro reason ⟨⟩ wishful
      exact absurd rfl wishful
    | some value =>
      obtain ⟨digits, written⟩ := Shape.exists_digits isNumber
      have left := barred.tail inside fun rejects =>
        Option.some_ne_none value (image.symm.trans rejects.2)
      rw [written, Shape.text] at image
      exact (number_hits call written image rest offset).admits left returned

theorem signs_confined (barred : Barred semantics lexemes limit) {first second : Kind}
    (noNumber : first ≠ .number) (noNumber' : second ≠ .number) (op op' : Op) :
    ((Grammar.firstOf [operator first op, operator second op'] : Phrase α Op).interpret
      call).Confined (upTo lexemes limit) := by
  rw [Grammar.interpret_firstOf]
  apply firstOf_confined
  simpa using ⟨map_confined (barred.lexeme_confined noNumber) fun _ => op,
    map_confined (barred.lexeme_confined noNumber') fun _ => op'⟩

theorem additive_confined (barred : Barred semantics lexemes limit) :
    ((additive : Phrase α Op).interpret call).Confined (upTo lexemes limit) :=
  barred.signs_confined (by decide) (by decide) .add .sub

theorem multiplicative_confined (barred : Barred semantics lexemes limit) :
    ((multiplicative : Phrase α Op).interpret call).Confined (upTo lexemes limit) :=
  barred.signs_confined (by decide) (by decide) .mul .div

theorem factor_confined (barred : Barred semantics lexemes limit)
    (expressions : (call .expr).Confined (upTo lexemes limit))
    (factors : (call .factor).Confined (upTo lexemes limit)) :
    ((factor semantics).interpret call).Confined (upTo lexemes limit) := by
  have closed : ((Grammar.pair (use .expr) (lexeme .rightParen)).interpret call).Confined
      (upTo lexemes limit) := pair_confined expressions (barred.lexeme_confined (by decide))
  rw [factor, Grammar.interpret_firstOf]
  apply firstOf_confined
  simpa using ⟨barred.number_confined,
    map_confined (pair_confined (barred.lexeme_confined (by decide)) closed) _,
    map_confined (pair_confined (q := use .factor) barred.additive_confined factors) _⟩

/-- Whatever a rule reads and reports is within the bounds, with any limit on rule calls. -/
theorem call_confined (barred : Barred semantics lexemes limit) (calls : Nat) (rule : Nonterminal) :
    Confined (upTo lexemes limit) ((rules semantics).call calls rule) := by
  induction calls generalizing rule with
  | zero =>
    intro input outcome inside returned
    cases returned
  | succ calls ih =>
    cases rule with
    | factor => exact barred.factor_confined (ih .expr) (ih .factor)
    | expr =>
      have factors : ((use .factor).interpret ((rules semantics).call calls)).Confined
          (upTo lexemes limit) := ih .factor
      have terms := leftGrouped_confined semantics factors barred.multiplicative_confined
      exact leftGrouped_confined semantics terms barred.additive_confined

end Barred

end Rules

/-! ## The first number that is rejected -/

/-- In place of a lexeme that can follow any other of the same kind can. -/
theorem CanFollow.viable {kind : Kind} {next : Lexeme} (follows : CanFollow before kind)
    (is : next.shape.kind = kind) : Viable (before ++ [next]) := by
  obtain ⟨other, same, viable⟩ := follows
  obtain ⟨final, reached⟩ := Option.isSome_iff_exists.mp (viable_iff.mp viable)
  rw [pass_append] at reached
  obtain ⟨outlook, passes, continues⟩ := Option.bind_eq_some_iff.mp reached
  have comes : next.shape.kind ∈ outlook.wanted .expr := by
    rw [is, ← same]
    exact (comes_of_pass_cons continues).1
  rw [viable_iff, pass_append, passes, Option.bind_some, pass_cons comes]
  rfl

namespace FirstRejected

variable {before' behind' : List Lexeme} {numeral' : Lexeme}

/-- The number that is the first is not behind another one that is rejected. -/
theorem eq_nil_of_between {between : List Lexeme} (first : FirstRejected semantics before numeral)
    (first' : FirstRejected semantics (before ++ between) numeral')
    (split : numeral :: behind = between ++ numeral' :: behind') : between = [] := by
  cases between with
  | nil => rfl
  | cons head between =>
    obtain ⟨rfl, -⟩ := List.cons.inj split
    exact absurd first'.accepts (first.rejects.not_accepts (by simp))

theorem unique (first : FirstRejected semantics before numeral)
    (first' : FirstRejected semantics before' numeral')
    (split : before ++ numeral :: behind = before' ++ numeral' :: behind') :
    before = before' ∧ numeral = numeral' ∧ behind = behind' := by
  rcases List.append_eq_append_iff.mp split with ⟨between, rfl, rest⟩ | ⟨between, rfl, rest⟩
  · obtain rfl := first.eq_nil_of_between first' rest
    exact ⟨(List.append_nil _).symm, List.cons.inj rest⟩
  · obtain rfl := first'.eq_nil_of_between first rest
    exact ⟨List.append_nil _, List.cons.inj rest.symm⟩

end FirstRejected

/-- From the beginning a reader of expressions balks at the first number that is rejected. -/
theorem Balks.firstRejected {read : List Lexeme} {reason : Diagnostic}
    (balks : Balks semantics .expr lexemes.length (.operand 0) (.start lexemes) read reason) :
    ∃ numeral behind, lexemes = read ++ numeral :: behind ∧ FirstRejected semantics read numeral ∧
      reason = complaint lexemes.length read.length numeral := by
  obtain ⟨depth, waits⟩ := balks.passes
  obtain ⟨numeral, behind, tokens, rejects, same⟩ := balks.stands
  have follows : CanFollow read .number := (canFollow_iff waits).mpr (by simp [wanted])
  refine ⟨numeral, behind, tokens, ⟨balks.accepts, follows, rejects⟩, ?_⟩
  rw [same, Residual.start, Nat.zero_add]

/-! ## Results -/

/-- The result is the complaint about the first number that is rejected. -/
def Complains (semantics : Semantics α) (lexemes : List Lexeme) (result : Except Diagnostic α) :
    Prop :=
  ∃ before numeral behind, lexemes = before ++ numeral :: behind ∧
    FirstRejected semantics before numeral ∧
    result = .error (complaint lexemes.length before.length numeral)

/-- That a reading stopped in front of an operator changes nothing about the complaint. -/
theorem Rejects.complains {p : Parser (Except Fault) Lexeme α}
    (rejects : Rejects semantics .expr lexemes.length p (.start lexemes)) :
    ∃ outcome, p (.start lexemes) = .ok outcome ∧ Complains semantics lexemes outcome.whole := by
  have spans : Spans lexemes.length (.start lexemes) := Nat.zero_add _
  cases rejects with
  | @miss read reason balks misses =>
    obtain ⟨numeral, behind, split, first, rfl⟩ := balks.firstRejected
    exact ⟨_, misses.2, read, numeral, behind, split, first, Outcome.whole_of_failed rfl⟩
  | @hit read reason value rest balks halts hits =>
    obtain ⟨numeral, behind, split, first, same⟩ := balks.firstRejected
    refine ⟨_, hits, read, numeral, behind, split, first, ?_⟩
    obtain ⟨sign, standing, -⟩ := halts.joins
    obtain ⟨tokens, offset⟩ := rest
    obtain ⟨others, rfl⟩ := List.head?_eq_some_iff.mp standing
    have reach : depth (some (Outcome.stoppedAt ⟨sign :: others, offset⟩ sign)) ≤
        place lexemes.length offset := by
      rw [depth_some]
      exact (congrArg _ halts.spans.position_eq).le
    have overtaken := (balks.overtakes spans halts.before reach).2
    refine (Outcome.whole_of_unfinished rfl (List.cons_ne_nil _ _) rfl).trans ?_
    rw [← same]
    exact congrArg (fun merged => Except.error (merged.getD .noAlternative)) overtaken

/-- The result is a verdict. If it is a diagnostic, it stays within all bounds. -/
structure Regular (semantics : Semantics α) (lexemes : List Lexeme) (result : Except Diagnostic α) :
    Prop where
  verdict : Verdict semantics lexemes result
  bounded : ∀ limit error, Barred semantics lexemes limit → result = .error error →
    (upTo lexemes limit).reports error

/-- Reading lexemes, whatever numbers the semantics accepts, comes to a verdict or complains. -/
theorem exists_reads_regular_or_complains (semantics : Semantics α) (lexemes : List Lexeme) :
    ∃ result, Reads semantics lexemes result ∧
      (Regular semantics lexemes result ∨ Complains semantics lexemes result) := by
  have resolves := (call_resolves semantics lexemes.length (callLimit lexemes)).2 _
    (two_mul_le_callLimit lexemes) (.start lexemes) (Nat.zero_add _) (Nat.lt_succ_self _)
  rcases resolves with settles | rejects
  · obtain ⟨outcome, ran, verdict, reported⟩ := settles.verdict
    refine ⟨outcome.whole, reads_iff.mpr ⟨outcome, ran, rfl⟩, .inl ⟨verdict, ?_⟩⟩
    intro limit error barred failed
    have inside : (upTo lexemes limit).rests (.start lexemes) := ⟨Nat.zero_le _, rfl⟩
    have admits := barred.call_confined (callLimit lexemes) .expr _ outcome inside ran
    exact admits.reports error (reported error failed)
  · obtain ⟨outcome, ran, complains⟩ := rejects.complains
    exact ⟨outcome.whole, reads_iff.mpr ⟨outcome, ran, rfl⟩, .inr complains⟩

/-- A verdict blames no number. -/
theorem Regular.not_blamesNumber {error : Diagnostic}
    (regular : Regular semantics lexemes (.error error)) : ¬ BlamesNumber error := by
  cases regular.verdict with
  | error stops unfinished =>
    exact (regular.bounded _ _ (.at_end semantics lexemes) rfl (stops.reports.wishful error rfl)).1

/-- Where a number is rejected there is no verdict: it would get past the number. -/
theorem FirstRejected.not_regular (first : FirstRejected semantics before numeral)
    {result : Except Diagnostic α} :
    ¬ Regular semantics (before ++ numeral :: behind) result := by
  intro regular
  cases regular.verdict with
  | value forms image => exact first.rejects.not_accepts (by simp) (forms.accepts image)
  | @error tried final error stops unfinished =>
    obtain ⟨d, same, there⟩ := stops.reports.located (wanted_expr_ne_nil final)
    obtain rfl := Option.some.inj same
    have shallow := (regular.bounded _ _ (.at_rejected first behind) rfl
      (stops.reports.wishful error rfl)).2
    have past : before.length + 1 ≤ tried.length := by
      refine stops.isGreatest.2 ⟨by simp, ?_⟩
      rw [List.take_length_add_append, List.take_succ_cons, List.take_zero]
      exact first.follows.viable first.rejects.1
    have count : (Residual.start (before ++ numeral :: behind)).offset + tried.length =
        tried.length := Nat.zero_add _
    rw [there, count] at shallow
    have within := stops.length_le (Nat.zero_add _)
    rw [count] at within
    exact absurd shallow (place_lt past within).not_ge

theorem complaint_eq (before : List Lexeme) (numeral : Lexeme) (behind : List Lexeme) :
    complaint (before ++ numeral :: behind).length before.length numeral =
      ⟨if behind.isEmpty then .eof else .token (before.length + 1),
        "invalid number " ++ numeral.shape.describe, [], none⟩ := by
  cases behind <;> simp [complaint, place, ofMessage, moveTo]

/-- Reading gives the complaint about the first number that is rejected. -/
theorem FirstRejected.reads (first : FirstRejected semantics before numeral)
    (behind : List Lexeme) :
    Reads semantics (before ++ numeral :: behind)
      (.error (complaint (before ++ numeral :: behind).length before.length numeral)) := by
  obtain ⟨result, reads, regular | complains⟩ :=
    exists_reads_regular_or_complains semantics (before ++ numeral :: behind)
  · exact absurd regular first.not_regular
  · obtain ⟨before', numeral', behind', split, first', rfl⟩ := complains
    obtain ⟨rfl, rfl, rfl⟩ := first.unique first' split
    exact reads

/-- What the user is told about lexemes that are no expression. -/
theorem Reads.told {error : Diagnostic} (reads : Reads semantics lexemes (.error error))
    (highlight : Highlight) (source : String) :
    (value semantics source lexemes).mapError (Failure.message highlight) =
      .error (report highlight source lexemes error) := by
  obtain ⟨outcome, ran, failed⟩ := reads_iff.mp reads
  have rejected : value semantics source lexemes = .error (.rejected source lexemes error) := by
    unfold value
    simp only [ran, failed, Except.mapError]
  rw [rejected]
  rfl

/-- **An invalid number is reported right behind it.** Whatever numbers a semantics accepts, reading
lexemes always returns. It fails with a message about an invalid number exactly if the semantics
rejects a number that stands where one can stand, and then the message describes the first such
number. The diagnostic lies at the lexeme behind that number, or at the end of the input if there is
none, and never at the number itself; so what the user is told points at the lexeme behind. -/
theorem invalid_number_behind (semantics : Semantics α) (lexemes : List Lexeme) :
    (∃ result, Reads semantics lexemes result) ∧
    (∀ error, (Reads semantics lexemes (.error error) ∧ BlamesNumber error) ↔
      ∃ before numeral behind, lexemes = before ++ numeral :: behind ∧
        FirstRejected semantics before numeral ∧
        error =
          { position := if behind.isEmpty then .eof else .token (before.length + 1)
            message := "invalid number " ++ numeral.shape.describe
            expected := []
            found := none }) ∧
    ∀ before numeral behind, lexemes = before ++ numeral :: behind →
      FirstRejected semantics before numeral → ∀ highlight source,
        (value semantics source lexemes).mapError (Failure.message highlight) =
          .error (match behind.head? with
            | some next =>
              point highlight source next.span ("invalid number " ++ numeral.shape.describe)
            | none => "invalid number " ++ numeral.shape.describe ++ " at end of input") := by
  obtain ⟨result, reads, holds⟩ := exists_reads_regular_or_complains semantics lexemes
  refine ⟨⟨result, reads⟩, fun error => ⟨?blamed, ?rejected⟩, ?reported⟩
  case blamed =>
    intro given
    obtain ⟨reads', blames⟩ := given
    obtain rfl := reads.unique reads'
    rcases holds with regular | ⟨before, numeral, behind, rfl, first, same⟩
    · exact absurd blames regular.not_blamesNumber
    · exact ⟨before, numeral, behind, rfl, first,
        (Except.error.inj same).trans (complaint_eq before numeral behind)⟩
  case rejected =>
    intro given
    obtain ⟨before, numeral, behind, rfl, first, rfl⟩ := given
    rw [← complaint_eq]
    exact ⟨first.reads behind, numeral.shape.describe, rfl⟩
  case reported =>
    intro before numeral behind split first highlight source
    subst split
    rw [(first.reads behind).told, complaint_eq]
    cases behind with
    | nil => rfl
    | cons next behind => simp [report, text]

/-- The lexemes of `(2 - 1.5) * 0.5`. -/
def halves : List Lexeme :=
  [⟨.leftParen, ⟨0, 0, 1⟩⟩, ⟨.number "2", ⟨0, 1, 2⟩⟩, ⟨.minus, ⟨0, 3, 4⟩⟩,
    ⟨.number "1.5", ⟨0, 5, 8⟩⟩, ⟨.rightParen, ⟨0, 8, 9⟩⟩, ⟨.star, ⟨0, 10, 11⟩⟩,
    ⟨.number "0.5", ⟨0, 12, 15⟩⟩]

/-- No whole number is written with a point. The first of two such numbers is reported, and the
parenthesis behind it is marked. -/
theorem invalid_number_behind_halves :
    lex "(2 - 1.5) * 0.5" = .ok halves ∧ halves = halves.take 3 ++ halves[3] :: halves.drop 4 ∧
    FirstRejected whole (halves.take 3) halves[3] ∧
    (∃ error, (Reads whole halves (.error error) ∧ BlamesNumber error) ∧
      error.position = .token 4) ∧
    (value whole "(2 - 1.5) * 0.5" halves).mapError (Failure.message .plain) =
      .error ("  |\n  | \n1 |(2 - 1.5) * 0.5\n" ++
        "2 |        ^--- invalid number number '1.5'\n  |") := by
  have cut : lex "(2 - 1.5) * 0.5" = .ok halves := by
    simp [lex, lexFrom, isBlank, sign?, splitNumber, Place.start, Place.along, Place.pastBlank,
      Place.span, Except.map, halves]
  have passes : pass .expr (.operand 0) (halves.take 3) = some (.operand 1) := by decide
  have first : FirstRejected whole (halves.take 3) halves[3] :=
    { accepts := by
        intro lexeme member
        revert lexeme
        decide
      follows := (canFollow_iff passes).mpr (by decide)
      rejects := ⟨rfl, rfl⟩ }
  obtain ⟨-, blames, told⟩ := invalid_number_behind whole halves
  have blamed := (blames _).mpr ⟨halves.take 3, halves[3], halves.drop 4, rfl, first, rfl⟩
  refine ⟨cut, rfl, first, ⟨_, blamed, rfl⟩, ?_⟩
  rw [told (halves.take 3) halves[3] (halves.drop 4) rfl first]
  decide

/-- It is not the number that a report points at: in `1.5 + 2` it is the sign behind. -/
theorem invalid_number_not_at_number :
    ¬ ∀ (α : Type) (semantics : Semantics α) (lexemes : List Lexeme) (error : Diagnostic),
      Reads semantics lexemes (.error error) → BlamesNumber error →
        ∃ offset numeral, error.position = .token offset ∧ lexemes[offset]? = some numeral ∧
          semantics.Rejects numeral ∧ error.message = "invalid number " ++ numeral.shape.describe := by
  intro claimed
  have reads : Reads whole (unplaced [.number "1.5", .plus, .number "2"])
      (.error ⟨.token 1, "invalid number number '1.5'", [], none⟩) :=
    reads_iff.mpr ⟨.failure ⟨.token 1, "invalid number number '1.5'", [], none⟩, rfl, rfl⟩
  obtain ⟨offset, numeral, position, standing, rejects, -⟩ :=
    claimed Int64 whole _ _ reads ⟨"number '1.5'", rfl⟩
  cases position
  cases standing
  cases rejects.1

end Multiparse.Arith
