import Multiparse.Proofs.Arith.Rejection

/-!
# Operands with signs between them

Terms and expressions are read alike: an operand, and then signs and operands as long as there are
any. The loop stops where no sign stands or where no operand follows the sign, and in both cases the
diagnostic reports what could have come, or else the operand came to a rejected number, and the
diagnostic is the complaint about it (`leftGrouped_resolves`). What an operand's own diagnostic says
behind it is either overtaken by the next operand or joined by the signs that were missing.
-/

namespace Multiparse.Arith

open Diagnostic Outlook Multiparse.Parser

/-- Phrases of the upper level are phrases of the lower one with signs of some kinds between
them. -/
structure Grouping (lower upper : Level) (sign? : Kind → Option Op) (kinds : List Kind) :
    Prop where
  single : ∀ {lexemes : List Lexeme} {tree : Tree}, Forms lower lexemes tree →
    Forms upper lexemes tree
  joined : ∀ {sign : Lexeme} {op : Op} {first second : List Lexeme} {left right : Tree},
    Forms upper first left → sign? sign.shape.kind = some op → Forms lower second right →
      Forms upper (first ++ sign :: second) (.binary op left right)
  operators : upper.operators = lower.operators ++ kinds
  signs : ∀ {kind : Kind}, kind ∈ kinds ↔ (sign? kind).isSome
  apart : ∀ {kind : Kind}, kind ∈ lower.operators → sign? kind = none

theorem grouping_term : Grouping .factor .term Kind.multiplicative? [.star, .slash] where
  single := .term
  joined := .product
  operators := rfl
  signs := by rintro (_ | _) <;> decide
  apart := by
    intro kind member
    cases member

theorem grouping_expr : Grouping .term .expr Kind.additive? [.plus, .minus] where
  single := .expr
  joined := .sum
  operators := rfl
  signs := by rintro (_ | _) <;> decide
  apart := by rintro (_ | _) <;> decide

section Loop

variable {α : Type} {semantics : Semantics α} {total : Nat} {input : Residual Lexeme}
  {lower upper level : Level} {sign? : Kind → Option Op} {kinds : List Kind}
  {operators : Parser (Except Fault) Lexeme Op} {operand : Parser (Except Fault) Lexeme α}

/-- A sign and then an operand. -/
def nextOperand (operators : Parser (Except Fault) Lexeme Op)
    (operand : Parser (Except Fault) Lexeme α) : Parser (Except Fault) Lexeme (Op × α) :=
  bind operators fun op => map (fun value => (op, value)) operand

/-- Joins a sign and an operand to the value so far. -/
def joinNext (semantics : Semantics α) (left : α) (step : Op × α) : α :=
  semantics.binary step.1 left step.2

/-- The loop has read a phrase of the upper level, the first value and some steps. A reader of the
given level stops behind it as the diagnostics of the first operand and of the loop report. -/
structure Gathered (semantics : Semantics α) (upper level : Level) (total : Nat)
    (input : Residual Lexeme) (value : α) (first : Option Diagnostic) (read rest : List Lexeme)
    (steps : List (Op × α)) (error : Option Diagnostic) : Prop where
  tokens : input.tokens = read ++ rest
  formed : ∃ tree, Forms upper read tree ∧
    tree.image? semantics = some (steps.foldl (joinNext semantics) value)
  stops : ∃ tried final, Stops level total (.operator 0) ⟨rest, input.offset + read.length⟩ tried
    final (farthest first error) ∧ (final = .operator 0 → tried = [])
  firstWishes : Wishful first
  wishes : Wishful error

/-- The layer of the loop with one reading. -/
def loopLayer (input : Residual Lexeme) (read rest : List Lexeme) (steps : List (Op × α))
    (error : Option Diagnostic) : Layer Lexeme (List (Op × α)) :=
  ⟨[⟨steps, ⟨rest, input.offset + read.length⟩⟩], error⟩

variable {value : α} {first error error' : Option Diagnostic} {read rest : List Lexeme}
  {steps : List (Op × α)}

/-- Without a sign there is no next operand. -/
theorem nextOperand_misses (operand : Parser (Except Fault) Lexeme α)
    (signs : Signs operators total sign? kinds) (spans : Spans total input)
    (unsigned : ∀ head, input.tokens.head? = some head → sign? head.shape.kind = none) :
    ∃ error, Misses (nextOperand operators operand) input error ∧
      Reports total error input.offset kinds := by
  obtain ⟨error, misses, reports⟩ := signs.misses spans unsigned
  exact ⟨error, misses.bind _, reports⟩

theorem Grouping.subset (grouping : Grouping lower upper sign? kinds) :
    lower.operators ⊆ upper.operators := by
  rw [grouping.operators]
  exact List.subset_append_left _ _

theorem Grouping.joins (grouping : Grouping lower upper sign? kinds) {kind : Kind} {op : Op}
    (signs : sign? kind = some op) : kind ∈ upper.operators := by
  rw [grouping.operators]
  exact List.mem_append_right _ (grouping.signs.mpr (by rw [signs]; rfl))

theorem Grouping.pass_sign (grouping : Grouping lower upper sign? kinds) {sign : Lexeme} {op : Op}
    (signs : sign? sign.shape.kind = some op) :
    pass upper (.operator 0) [sign] = some (.operand 0) := by
  have joins := grouping.joins signs
  rw [pass_cons joins, after_operator (operators_subset_expr upper joins), pass_nil]

/-- Where no sign stands a reader of the upper level stops where one of the lower level does, and
wishes for the signs as well if it got nowhere. -/
theorem Stops.unsigned (grouping : Grouping lower upper sign? kinds) {tried : List Lexeme}
    {final : Outlook} (stops : Stops lower total (.operator 0) input tried final error)
    (apart : final = .operator 0 → tried = []) (spans : Spans total input)
    (unsigned : ∀ head, input.tokens.head? = some head → sign? head.shape.kind = none)
    (reports : Reports total error' input.offset kinds) :
    Stops upper total (.operator 0) input tried final (farthest error error') := by
  refine stops.join id apart spans grouping.operators (fun head standing signs => ?_) reports
    fun _ inside stops => stops.outward grouping.subset inside
  rw [grouping.signs, unsigned head standing] at signs
  cases signs

/-- Where no sign stands the loop is over. -/
theorem Gathered.over_unsigned (grouping : Grouping lower upper sign? kinds)
    (gathered : Gathered semantics upper lower total input value first read rest steps error)
    (spans : Spans total input)
    (unsigned : ∀ head, rest.head? = some head → sign? head.shape.kind = none)
    (reports : Reports total error' (input.offset + read.length) kinds) :
    Gathered semantics upper upper total input value first read rest steps
      (farthest error error') where
  tokens := gathered.tokens
  formed := gathered.formed
  stops := by
    obtain ⟨tried, final, stops, apart⟩ := gathered.stops
    rw [farthest_assoc gathered.firstWishes gathered.wishes reports.wishful]
    have within := spans.advance gathered.tokens
    exact ⟨tried, final, stops.unsigned grouping apart within unsigned reports, apart⟩
  firstWishes := gathered.firstWishes
  wishes := gathered.wishes.farthest reports.wishful

section Signed

variable {sign : Lexeme} {op : Op} {behind tried : List Lexeme} {final : Outlook}
  {signError : Option Diagnostic}

/-- Behind a sign the diagnostics from before it no longer count. -/
theorem Gathered.overtaken (grouping : Grouping lower upper sign? kinds)
    (gathered : Gathered semantics upper lower total input value first read (sign :: behind) steps
      error)
    (signs : sign? sign.shape.kind = some op) {count : Nat}
    (further : input.offset + read.length < count) (within : count ≤ total) :
    Reports total (farthest first error) count [] := by
  obtain ⟨tried, final, stops, -⟩ := gathered.stops
  have refused : sign.shape.kind ∉ lower.operators := by
    intro joins
    rw [grouping.apart joins] at signs
    cases signs
  exact (stops.at_once refused).past further within

/-- Where no operand follows a sign the loop is over. -/
theorem Gathered.over_unfinished (grouping : Grouping lower upper sign? kinds)
    (gathered : Gathered semantics upper lower total input value first read (sign :: behind) steps
      error)
    (spans : Spans total input) (signs : sign? sign.shape.kind = some op)
    (signReports : Reports total signError (input.offset + read.length + 1) [])
    (stops : Stops lower total (.operand 0) ⟨behind, input.offset + read.length + 1⟩ tried final
      error')
    (unfinished : final ≠ .operator 0) :
    Gathered semantics upper upper total input value first read (sign :: behind) steps
      (farthest error (farthest signError error')) where
  tokens := gathered.tokens
  formed := gathered.formed
  stops := by
    have wishes := signReports.wishful.farthest stops.reports.wishful
    rw [farthest_assoc gathered.firstWishes gathered.wishes wishes]
    have reach := stops.length_le (spans.advance gathered.tokens).tail
    have inner := (stops.add_left (signReports.later (by simp) reach)).outward grouping.subset
      unfinished
    have all := inner.add_left (gathered.overtaken grouping signs (by simp only; omega) reach)
    exact ⟨sign :: tried, final, all.prepend rfl (grouping.pass_sign signs),
      fun outside => absurd outside unfinished⟩
  firstWishes := gathered.firstWishes
  wishes := gathered.wishes.farthest (signReports.wishful.farthest stops.reports.wishful)

/-- A sign and an operand continue the loop. -/
theorem Gathered.more (grouping : Grouping lower upper sign? kinds) {read' rest' : List Lexeme}
    {tree : Tree} {next : α}
    (gathered : Gathered semantics upper lower total input value first read
      (sign :: (read' ++ rest')) steps error)
    (spans : Spans total input) (signs : sign? sign.shape.kind = some op)
    (signReports : Reports total signError (input.offset + read.length + 1) [])
    (forms : Forms lower read' tree) (image : tree.image? semantics = some next)
    (stops : Stops lower total (.operator 0)
      ⟨rest', input.offset + (read ++ sign :: read').length⟩ tried final error')
    (apart : final = .operator 0 → tried = []) :
    Gathered semantics upper lower total input value first (read ++ sign :: read') rest'
      (steps ++ [(op, next)]) (farthest error (farthest signError error')) where
  tokens := by rw [gathered.tokens, List.append_assoc, List.cons_append]
  formed := by
    obtain ⟨earlier, formsEarlier, imageEarlier⟩ := gathered.formed
    refine ⟨.binary op earlier tree, grouping.joined formsEarlier signs forms, ?_⟩
    rw [Tree.image?, imageEarlier, image, List.foldl_append]
    rfl
  stops := by
    have wishes := signReports.wishful.farthest stops.reports.wishful
    rw [farthest_assoc gathered.firstWishes gathered.wishes wishes]
    have tokens : input.tokens = (read ++ sign :: read') ++ rest' := by
      rw [gathered.tokens, List.append_assoc, List.cons_append]
    have reach := stops.length_le (spans.advance tokens)
    have longer : (read ++ sign :: read').length = read.length + read'.length + 1 := by
      rw [List.length_append, List.length_cons, Nat.add_assoc]
    have inner := stops.add_left (signReports.later (by simp only [longer]; omega) reach)
    have all := inner.add_left
      (gathered.overtaken grouping signs (by simp only [longer]; omega) reach)
    exact ⟨tried, final, all, apart⟩
  firstWishes := gathered.firstWishes
  wishes := gathered.wishes.farthest (signReports.wishful.farthest stops.reports.wishful)

end Signed

/-! ### Rejected numbers -/

/-- The exploration that begins with a layer ends in front of an operator, with the complaint about
a rejected number behind it, which overtakes the diagnostic of the first operand too. -/
def EndsSpoiled (semantics : Semantics α) (upper : Level) (total : Nat)
    (p : Parser (Except Fault) Lexeme (Op × α)) (input : Residual Lexeme)
    (first : Option Diagnostic) (rounds : Nat) (layer : Layer Lexeme (List (Op × α))) : Prop :=
  ∃ read reason steps rest, Balks semantics upper total (.operand 0) input read reason ∧
    Halts upper total input read rest ∧ farthest first (some reason) = some reason ∧
    Repetition.Ends p rounds layer ⟨[⟨steps, rest⟩], some reason⟩

/-- Where an operand stopped in front of an operator of its own, no next operand begins. -/
theorem Halts.nextOperand_misses (grouping : Grouping lower upper sign? kinds)
    (operand : Parser (Except Fault) Lexeme α) (signs : Signs operators total sign? kinds)
    {rest : Residual Lexeme} {reason : Diagnostic} (halts : Halts lower total input read rest)
    (balks : Balks semantics level total (.operand 0) input read reason)
    (spans : Spans total input) :
    ∃ error, Misses (nextOperand operators operand) rest error ∧
      farthest (some reason) error = some reason := by
  obtain ⟨sign, standing, joins⟩ := halts.joins
  have unsigned : ∀ head, rest.tokens.head? = some head → sign? head.shape.kind = none := by
    intro head stands
    obtain rfl := Option.some.inj (standing.symm.trans stands)
    exact grouping.apart joins
  obtain ⟨error, misses, reports⟩ := Arith.nextOperand_misses operand signs halts.spans unsigned
  exact ⟨error, misses, (balks.overtakes spans halts.before reports.reach).2⟩

section Spoiled

variable {sign : Lexeme} {op : Op} {behind inner : List Lexeme} {signError : Option Diagnostic}
  {reason : Diagnostic}

/-- A number that spoils the next operand spoils the whole. -/
theorem Gathered.balks (grouping : Grouping lower upper sign? kinds)
    (gathered : Gathered semantics upper lower total input value first read (sign :: behind) steps
      error)
    (isSign : sign? sign.shape.kind = some op)
    (balks : Balks semantics lower total (.operand 0)
      ⟨behind, input.offset + (read ++ [sign]).length⟩ inner reason) :
    Balks semantics upper total (.operand 0) input (read ++ [sign] ++ inner) reason := by
  have noNumber : sign.shape.kind ≠ .number := by
    intro isNumber
    have joins := operators_subset_expr upper (grouping.joins isSign)
    rw [isNumber] at joins
    exact absurd joins (by decide)
  obtain ⟨tree, forms, image⟩ := gathered.formed
  have accepts : semantics.Accepts (read ++ [sign]) :=
    (forms.accepts image).append (.cons noNumber (List.forall_mem_nil _))
  have passes : pass upper (.operand 0) (read ++ [sign]) = some (.operand 0) := by
    rw [pass_append, forms.pass_self, Option.bind_some, grouping.pass_sign isSign]
  refine (balks.outward grouping.subset).prepend ?_ accepts passes
  rw [gathered.tokens, List.append_assoc, List.singleton_append]

/-- The complaint overtakes all that was met before the next operand. -/
theorem Gathered.overtaken_by (grouping : Grouping lower upper sign? kinds)
    (gathered : Gathered semantics upper lower total input value first read (sign :: behind) steps
      error)
    (spans : Spans total input) (isSign : sign? sign.shape.kind = some op)
    (signReports : Reports total signError (input.offset + read.length + 1) [])
    (balks : Balks semantics upper total (.operand 0) input (read ++ [sign] ++ inner) reason) :
    farthest first (some reason) = some reason ∧
      farthest error (farthest signError (some reason)) = some reason := by
  have further : input.offset + read.length + 1 ≤
      input.offset + (read ++ [sign] ++ inner).length := by
    simp only [List.length_append, List.length_singleton]
    omega
  have within := (spans.advance gathered.tokens).tail.offset_le
  have early := (gathered.overtaken grouping isSign (Nat.lt_succ_self _) within).reach
  rw [depth_farthest] at early
  refine ⟨(balks.overtakes spans further ((le_max_left _ _).trans early)).1, ?_⟩
  rw [(balks.overtakes spans further signReports.reach).1]
  exact (balks.overtakes spans further ((le_max_right _ _).trans early)).1

/-- Where the next operand comes to a rejected number the loop is over. -/
theorem Gathered.spoiled (grouping : Grouping lower upper sign? kinds)
    (signs : Signs operators total sign? kinds) {rounds : Nat}
    (gathered : Gathered semantics upper lower total input value first read (sign :: behind) steps
      error)
    (spans : Spans total input) (isSign : sign? sign.shape.kind = some op)
    (signHits : Hits operators ⟨sign :: behind, input.offset + read.length⟩ op
      ⟨behind, input.offset + read.length + 1⟩ signError)
    (signReports : Reports total signError (input.offset + read.length + 1) [])
    (rejects : Rejects semantics lower total operand ⟨behind, input.offset + read.length + 1⟩)
    (enough : behind.length < rounds) :
    EndsSpoiled semantics upper total (nextOperand operators operand) input first (rounds + 1)
      (loopLayer input read (sign :: behind) steps error) := by
  have within := spans.advance gathered.tokens
  have place : input.offset + read.length + 1 = input.offset + (read ++ [sign]).length := by
    rw [List.length_append, List.length_singleton, Nat.add_assoc]
  cases rejects with
  | @miss inner reason innerBalks misses =>
    have balks := gathered.balks grouping isSign (place ▸ innerBalks)
    obtain ⟨overFirst, overtakes⟩ := gathered.overtaken_by grouping spans isSign signReports balks
    have halts : Halts upper total input (read ++ [sign] ++ inner)
        ⟨sign :: behind, input.offset + read.length⟩ := by
      refine ⟨⟨sign, rfl, grouping.joins isSign⟩, within, Nat.le_add_right _ _, ?_⟩
      simp only [List.length_append]
      omega
    refine ⟨_, reason, steps, _, balks, halts, overFirst, ?_⟩
    rw [← overtakes]
    exact Repetition.ends_of_misses (signHits.pair_misses misses)
  | @hit inner reason next rest innerBalks innerHalts hits =>
    have balks := gathered.balks grouping isSign (place ▸ innerBalks)
    obtain ⟨overFirst, overtakes⟩ := gathered.overtaken_by grouping spans isSign signReports balks
    obtain ⟨error', misses, kept⟩ :=
      innerHalts.nextOperand_misses grouping operand signs innerBalks within.tail
    have halts : Halts upper total input (read ++ [sign] ++ inner) rest :=
      ((place ▸ innerHalts).prepend).outward grouping.subset
    refine ⟨_, reason, steps ++ [(op, next)], rest, balks, halts, overFirst, ?_⟩
    obtain ⟨left, rfl⟩ := Nat.exists_eq_succ_of_ne_zero (Nat.zero_lt_of_lt enough).ne'
    have progress : input.offset + read.length < rest.offset := innerHalts.after
    rw [← kept, ← overtakes]
    exact Repetition.ends_of_hits (signHits.pair hits) progress (Repetition.ends_of_misses misses)

end Spoiled

/-- **The loop ends.** Either a reader of the upper level then stops as the diagnostic reports, or
an operand came to a rejected number. -/
theorem loop_ends (grouping : Grouping lower upper sign? kinds)
    (signs : Signs operators total sign? kinds) {bound rounds : Nat}
    (operands : ResolvesBelow semantics lower total bound operand) (spans : Spans total input)
    (bounded : input.remaining < bound)
    (gathered : Gathered semantics upper lower total input value first read rest steps error)
    (enough : rest.length < rounds) :
    (∃ read' rest' steps' error',
      Repetition.Ends (nextOperand operators operand) rounds (loopLayer input read rest steps error)
        (loopLayer input read' rest' steps' error') ∧
      Gathered semantics upper upper total input value first read' rest' steps' error') ∨
    EndsSpoiled semantics upper total (nextOperand operators operand) input first rounds
      (loopLayer input read rest steps error) := by
  induction rounds generalizing read rest steps error with
  | zero => exact absurd enough (Nat.not_lt_zero _)
  | succ rounds ih =>
    have within := spans.advance gathered.tokens
    by_cases unsigned : ∀ head, rest.head? = some head → sign? head.shape.kind = none
    · obtain ⟨error', misses, reports⟩ := nextOperand_misses operand signs within unsigned
      exact .inl ⟨read, rest, steps, _, Repetition.ends_of_misses misses,
        gathered.over_unsigned grouping spans unsigned reports⟩
    · push Not at unsigned
      obtain ⟨sign, standing, signed⟩ := unsigned
      obtain ⟨op, isSign⟩ := Option.ne_none_iff_exists'.mp signed
      obtain ⟨behind, rfl⟩ := List.head?_eq_some_iff.mp standing
      obtain ⟨signError, signHits, signReports⟩ := signs.hits within isSign
      have later :
          (⟨behind, input.offset + read.length + 1⟩ : Residual Lexeme).remaining < bound := by
        have shorter := congrArg List.length gathered.tokens
        rw [List.length_append, List.length_cons] at shorter
        unfold Residual.remaining at bounded ⊢
        simp only
        omega
      rcases operands _ within.tail later with settles | rejects
      · cases settles with
        | miss misses stops unfinished =>
          exact .inl ⟨read, sign :: behind, steps, _,
            Repetition.ends_of_misses (signHits.pair_misses misses),
            gathered.over_unfinished grouping spans isSign signReports stops unfinished⟩
        | @hit read' rest' tried tree next final error' tokens forms image hits stops apart =>
          obtain rfl : behind = read' ++ rest' := tokens
          have place : input.offset + read.length + 1 + read'.length
              = input.offset + (read ++ sign :: read').length := by
            rw [List.length_append, List.length_cons]
            omega
          simp only [place] at hits stops
          have progress : input.offset + read.length
              < input.offset + (read ++ sign :: read').length := by
            simp only [List.length_append, List.length_cons]
            omega
          rcases ih (gathered.more grouping spans isSign signReports forms image stops apart) (by
              rw [List.length_cons, List.length_append] at enough
              omega) with
            ⟨read'', rest'', steps'', error'', ends, gathered'⟩ |
            ⟨spoilt, reason, steps'', rest'', balks, halts, overtakes, ends⟩
          · exact .inl ⟨read'', rest'', steps'', error'',
              Repetition.ends_of_hits (signHits.pair hits) progress ends, gathered'⟩
          · exact .inr ⟨spoilt, reason, steps'', rest'', balks, halts, overtakes,
              Repetition.ends_of_hits (signHits.pair hits) progress ends⟩
      · exact .inr (gathered.spoiled grouping signs spans isSign signHits signReports rejects
          (Nat.lt_of_succ_lt_succ enough))

/-- The loop begins behind the first operand. -/
theorem Gathered.begin (grouping : Grouping lower upper sign? kinds) {tree : Tree}
    {tried : List Lexeme} {final : Outlook} (tokens : input.tokens = read ++ rest)
    (forms : Forms lower read tree) (image : tree.image? semantics = some value)
    (stops : Stops lower total (.operator 0) ⟨rest, input.offset + read.length⟩ tried final first)
    (apart : final = .operator 0 → tried = []) :
    Gathered semantics upper lower total input value first read rest [] none where
  tokens := tokens
  formed := ⟨tree, grouping.single forms, image⟩
  stops := ⟨tried, final, by rwa [farthest_none_right], apart⟩
  firstWishes := stops.reports.wishful
  wishes := wishful_none

end Loop

/-- Operands with signs between them resolve if the operands do. -/
theorem leftGrouped_resolves {α : Type} {semantics : Semantics α} {total bound : Nat}
    {lower upper : Level} {sign? : Kind → Option Op} {kinds : List Kind}
    {call : Nonterminal → Parser (Except Fault) Lexeme α} {operand : Phrase α α}
    {operators : Phrase α Op} (grouping : Grouping lower upper sign? kinds)
    (signs : Signs (operators.interpret call) total sign? kinds)
    (operands : ResolvesBelow semantics lower total bound (operand.interpret call)) :
    ResolvesBelow semantics upper total bound
      ((leftGrouped semantics operand operators).interpret call) := by
  intro input spans bounded
  have form : (leftGrouped semantics operand operators).interpret call =
      map (fun values => values.2.foldl (joinNext semantics) values.1)
        (bind (operand.interpret call) fun value => map (fun steps => (value, steps))
          (repeated .greedy (nextOperand (operators.interpret call) (operand.interpret call)))) :=
    rfl
  rw [form]
  rcases operands input spans bounded with settles | rejects
  · cases settles with
    | miss misses stops unfinished =>
      exact .inl (.miss ((misses.bind _).map _) (stops.outward grouping.subset unfinished)
        unfinished)
    | @hit read rest tried tree value final error tokens forms image hits stops apart =>
      rcases loop_ends grouping signs operands spans bounded
          (Gathered.begin grouping tokens forms image stops apart) (Nat.lt_succ_self rest.length)
        with ⟨read', rest', steps, error', ends, gathered⟩ |
          ⟨read', reason, steps, rest', balks, halts, overtakes, ends⟩
      · obtain ⟨tree', forms', image'⟩ := gathered.formed
        obtain ⟨tried', final', stops', apart'⟩ := gathered.stops
        have all := (hits.pair (hits_greedy ends)).map fun values =>
          values.2.foldl (joinNext semantics) values.1
        exact .inl (.hit gathered.tokens forms' image' all stops' apart')
      · have all := (hits.pair (hits_greedy ends)).map fun values =>
          values.2.foldl (joinNext semantics) values.1
        rw [overtakes] at all
        exact .inr (.hit balks halts all)
  · cases rejects with
    | miss balks misses =>
      exact .inr (.miss (balks.outward grouping.subset) ((misses.bind _).map _))
    | @hit read reason value rest balks halts hits =>
      obtain ⟨error, misses, kept⟩ := halts.nextOperand_misses grouping _ signs balks spans
      have ends : Repetition.Ends _ (rest.remaining + 1) (Repetition.seed rest)
          ⟨[⟨[], rest⟩], farthest none error⟩ := Repetition.ends_of_misses misses
      have all := (hits.pair (hits_greedy ends)).map fun values =>
        values.2.foldl (joinNext semantics) values.1
      rw [farthest_none_left, kept] at all
      exact .inr (.hit (balks.outward grouping.subset) (halts.outward grouping.subset) all)

end Multiparse.Arith
