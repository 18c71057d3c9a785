import Multiparse.Proofs.Arith.Descent
import Multiparse.Proofs.Foremost

/-!
# Numbers that a semantics rejects

A number is read as a lexeme before the semantics is asked for its value. If the semantics rejects
it, the parser fails behind the lexeme, deeper than anything was tried before, so this complaint
overtakes every other diagnostic. No parser goes on behind the number: each fails, or it stops in
front of the operator whose operand the number spoils (`Rejects`).
-/

namespace Multiparse.Arith

open Diagnostic Outlook Multiparse.Parser

variable {α : Type} {semantics : Semantics α} {level outer : Level} {total : Nat}
  {input : Residual Lexeme}

/-- The complaint about a rejected number with `count` of `total` lexemes before it. -/
def complaint (total count : Nat) (numeral : Lexeme) : Diagnostic :=
  (ofMessage ("invalid number " ++ numeral.shape.describe)).moveTo (place total (count + 1))

/-- From an outlook on, a reader of the level passes lexemes whose numbers the semantics accepts,
and then waits for an operand and comes to a number that the semantics rejects. -/
structure Balks (semantics : Semantics α) (level : Level) (total : Nat) (outlook : Outlook)
    (input : Residual Lexeme) (read : List Lexeme) (reason : Diagnostic) : Prop where
  accepts : semantics.Accepts read
  passes : ∃ depth, pass level outlook read = some (.operand depth)
  stands : ∃ numeral behind, input.tokens = read ++ numeral :: behind ∧
    semantics.Rejects numeral ∧ reason = complaint total (input.offset + read.length) numeral

/-- The rest begins with an operator of the level, and lies between the input and what was read. -/
structure Halts (level : Level) (total : Nat) (input : Residual Lexeme) (read : List Lexeme)
    (rest : Residual Lexeme) : Prop where
  joins : ∃ sign, rest.tokens.head? = some sign ∧ sign.shape.kind ∈ level.operators
  spans : Spans total rest
  after : input.offset ≤ rest.offset
  before : rest.offset ≤ input.offset + read.length

/-- The parser comes to a number that the semantics rejects, and its diagnostic is the complaint
about it. It fails, or it stops in front of an operator and leaves the number unread. -/
inductive Rejects (semantics : Semantics α) (level : Level) (total : Nat)
    (p : Parser (Except Fault) Lexeme α) (input : Residual Lexeme) : Prop where
  | miss {read : List Lexeme} {reason : Diagnostic}
      (balks : Balks semantics level total (.operand 0) input read reason)
      (misses : Misses p input (some reason))
  | hit {read : List Lexeme} {reason : Diagnostic} {value : α} {rest : Residual Lexeme}
      (balks : Balks semantics level total (.operand 0) input read reason)
      (halts : Halts level total input read rest) (hits : Hits p input value rest (some reason))

/-- The parser settles on the input, or comes to a number that the semantics rejects. -/
def Resolves (semantics : Semantics α) (level : Level) (total : Nat)
    (p : Parser (Except Fault) Lexeme α) (input : Residual Lexeme) : Prop :=
  Settles semantics level total p input ∨ Rejects semantics level total p input

/-- The parser resolves every rest of the input with fewer than `bound` lexemes. -/
def ResolvesBelow (semantics : Semantics α) (level : Level) (total bound : Nat)
    (p : Parser (Except Fault) Lexeme α) : Prop :=
  ∀ input, Spans total input → input.remaining < bound → Resolves semantics level total p input

namespace Balks

variable {outlook outlook' : Outlook} {read front rest : List Lexeme} {reason : Diagnostic}
  {error : Option Diagnostic} {kinds : List Kind} {count : Nat}

theorem lt_total (balks : Balks semantics level total outlook input read reason)
    (spans : Spans total input) : input.offset + read.length < total := by
  obtain ⟨numeral, behind, tokens, -⟩ := balks.stands
  unfold Spans at spans
  rw [tokens, List.length_append, List.length_cons] at spans
  omega

/-- A semantics that accepts the input does not balk. -/
theorem not_accepts (balks : Balks semantics level total outlook input read reason) :
    ¬ semantics.Accepts input.tokens := by
  obtain ⟨numeral, behind, tokens, rejects, -⟩ := balks.stands
  exact rejects.not_accepts (by simp [tokens])

/-- A reader who first passes some lexemes balks at the same number. -/
theorem prepend
    (balks : Balks semantics level total outlook' ⟨rest, input.offset + front.length⟩ read reason)
    (tokens : input.tokens = front ++ rest) (accepts : semantics.Accepts front)
    (passes : pass level outlook front = some outlook') :
    Balks semantics level total outlook input (front ++ read) reason where
  accepts := accepts.append balks.accepts
  passes := by
    obtain ⟨depth, waits⟩ := balks.passes
    exact ⟨depth, by rw [pass_append, passes, Option.bind_some, waits]⟩
  stands := by
    obtain ⟨numeral, behind, later, rejects, same⟩ := balks.stands
    refine ⟨numeral, behind, ?_, rejects, ?_⟩
    · rw [tokens, List.append_assoc, ← later]
    · rw [same, List.length_append, Nat.add_assoc]

/-- A reader gets to the number at least where more operators join. -/
theorem outward (balks : Balks semantics level total outlook input read reason)
    (operators : level.operators ⊆ outer.operators) :
    Balks semantics outer total outlook input read reason where
  accepts := balks.accepts
  passes := by
    obtain ⟨depth, waits⟩ := balks.passes
    exact ⟨depth, pass_of_subset operators waits⟩
  stands := balks.stands

/-- A number that spoils an expression spoils what encloses it. -/
theorem enclosed (balks : Balks semantics .expr total outlook input read reason) :
    Balks semantics outer total outlook.deeper input read reason where
  accepts := balks.accepts
  passes := by
    obtain ⟨depth, waits⟩ := balks.passes
    exact ⟨depth + 1, pass_deeper waits⟩
  stands := balks.stands

/-- What was reported up to the number lies above the complaint. -/
theorem depth_lt (balks : Balks semantics level total outlook input read reason)
    (spans : Spans total input) (further : count ≤ input.offset + read.length)
    (reach : depth error ≤ place total count) : depth error < reason.position := by
  have within := balks.lt_total spans
  obtain ⟨numeral, behind, -, -, rfl⟩ := balks.stands
  exact reach.trans_lt (WithBot.coe_lt_coe.mpr (place_lt (Nat.lt_succ_of_le further) within))

/-- The complaint overtakes what was reported before. -/
theorem overtakes (balks : Balks semantics level total outlook input read reason)
    (spans : Spans total input) (further : count ≤ input.offset + read.length)
    (reach : depth error ≤ place total count) :
    farthest error (some reason) = some reason ∧ farthest (some reason) error = some reason := by
  have shallow := balks.depth_lt spans further reach
  refine ⟨farthest_of_depth_lt shallow, ?_⟩
  cases error with
  | none => rfl
  | some earlier => rw [farthest, deeper_of_gt (WithBot.coe_lt_coe.mp shallow)]

end Balks

theorem Rejects.not_accepts {p : Parser (Except Fault) Lexeme α}
    (rejects : Rejects semantics level total p input) : ¬ semantics.Accepts input.tokens := by
  cases rejects with
  | miss balks misses => exact balks.not_accepts
  | hit balks halts hits => exact balks.not_accepts

namespace Halts

variable {read front behind : List Lexeme} {rest : Residual Lexeme}

/-- A factor has no operators to stop in front of. -/
theorem not_factor : ¬ Halts .factor total input read rest := by
  intro halts
  obtain ⟨sign, -, joins⟩ := halts.joins
  cases joins

theorem outward (halts : Halts level total input read rest)
    (operators : level.operators ⊆ outer.operators) : Halts outer total input read rest where
  joins := by
    obtain ⟨sign, standing, joins⟩ := halts.joins
    exact ⟨sign, standing, operators joins⟩
  spans := halts.spans
  after := halts.after
  before := halts.before

theorem prepend (halts : Halts level total ⟨behind, input.offset + front.length⟩ read rest) :
    Halts level total input (front ++ read) rest where
  joins := halts.joins
  spans := halts.spans
  after := (Nat.le_add_right _ _).trans halts.after
  before := by
    rw [List.length_append, ← Nat.add_assoc]
    exact halts.before

end Halts

end Multiparse.Arith
