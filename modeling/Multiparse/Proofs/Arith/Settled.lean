import Multiparse.Proofs.Arith.Grouped

/-!
# Every rule settles or rejects a number

A factor is settled by its first lexeme: each of the three kinds of factor begins with lexemes of
its own, and the branches that do not apply only add what could have stood there. Parentheses take a
reader one level deeper and back. A number that the semantics rejects spoils whatever it stands in.
A rule call needs another call only behind a lexeme or from an expression to its first factor, so
twice the number of lexemes bounds the calls in progress (`call_resolves`). Where all numbers are
accepted every rule settles (`call_settles`).
-/

namespace Multiparse.Arith

open Diagnostic Outlook Multiparse.Parser

variable {α : Type} {semantics : Semantics α} {total : Nat} {input : Residual Lexeme}

/-! ## The kinds of factor -/

section Branches

variable (call : Nonterminal → Parser (Except Fault) Lexeme α)

theorem number_hits {head : Lexeme} {digits : String} {value : α}
    (written : head.shape = .number digits) (accepted : semantics.number digits = some value)
    (rest : List Lexeme) (offset : Nat) :
    Hits ((number semantics).interpret call) ⟨head :: rest, offset⟩ value ⟨rest, offset + 1⟩
      none := by
  have isNumber : head.shape.kind = .number := by rw [written]; rfl
  refine Hits.bind (lexeme_hits call isNumber rest offset) (?_ : Hits _ _ value _ none)
  simp only [written, Shape.text, accepted]
  rfl

theorem number_misses (semantics : Semantics α) (spans : Spans total input)
    (other : ∀ head, input.tokens.head? = some head → head.shape.kind ≠ .number) :
    ∃ error, Misses ((number semantics).interpret call) input error ∧
      Reports total error input.offset [.number] := by
  obtain ⟨error, misses, reports⟩ := lexeme_misses call spans other
  exact ⟨error, misses.bind _, reports⟩

/-- Behind a number that is rejected the parser fails. -/
theorem number_complains {head : Lexeme} {rest : List Lexeme} {offset : Nat}
    (rejects : semantics.Rejects head) (spans : Spans total ⟨head :: rest, offset⟩) :
    Misses ((number semantics).interpret call) ⟨head :: rest, offset⟩
      (some (complaint total offset head)) := by
  refine Hits.bind_misses (lexeme_hits call rejects.1 rest offset)
    (⟨rfl, ?_⟩ : Misses _ _ (some (complaint total offset head)))
  simp only [rejects.2]
  rw [complaint, ← spans.tail.position_eq]
  rfl

theorem number_rejects {head : Lexeme} {rest : List Lexeme} {offset : Nat}
    (rejects : semantics.Rejects head) (spans : Spans total ⟨head :: rest, offset⟩) :
    Rejects semantics .factor total ((number semantics).interpret call) ⟨head :: rest, offset⟩ :=
  .miss ⟨List.forall_mem_nil _, ⟨0, rfl⟩, head, rest, rfl, rejects, rfl⟩
    (number_complains call rejects spans)

theorem parenthesized_misses (spans : Spans total input)
    (other : ∀ head, input.tokens.head? = some head → head.shape.kind ≠ .leftParen) :
    ∃ error, Misses (parenthesized.interpret call) input error ∧
      Reports total error input.offset [.leftParen] := by
  obtain ⟨error, misses, reports⟩ := lexeme_misses call spans other
  exact ⟨error, (misses.bind _).map _, reports⟩

theorem signed_misses (semantics : Semantics α) (spans : Spans total input)
    (other : ∀ head, input.tokens.head? = some head → head.shape.kind.additive? = none) :
    ∃ error, Misses ((signed semantics).interpret call) input error ∧
      Reports total error input.offset [.plus, .minus] := by
  obtain ⟨error, misses, reports⟩ := (additive_signs call).misses spans other
  exact ⟨error, (misses.bind _).map _, reports⟩

end Branches

/-! ## Inside parentheses -/

section Enclosed

variable {outlook final : Outlook} {tried : List Lexeme} {error error' : Option Diagnostic}
  {outer : Level}

/-- In the middle of an expression a reader of what encloses it stops where a reader of the
expression does. -/
theorem Stops.enclosed (stops : Stops .expr total outlook input tried final error)
    (inside : final ≠ .operator 0) :
    Stops outer total outlook.deeper input tried final.deeper error where
  stuck := by
    rw [wanted_deeper_eq inside]
    exact stops.stuck
  passes := pass_deeper stops.passes
  reports := by
    rw [wanted_deeper_eq inside]
    exact stops.reports

/-- Behind an expression that is not closed, the closing parenthesis is wished for as well. -/
theorem Stops.unclosed (stops : Stops .expr total (.operator 0) input tried final error)
    (apart : final = .operator 0 → tried = []) (spans : Spans total input)
    (open_ : ∀ head, input.tokens.head? = some head → head.shape.kind ≠ .rightParen)
    (reports : Reports total error' input.offset [.rightParen]) :
    Stops outer total (.operator 1) input tried final.deeper (farthest error error') := by
  refine stops.join deeper apart spans rfl (fun head standing closing => ?_) reports
    fun _ inside stops => stops.enclosed inside
  exact open_ head standing (List.mem_singleton.mp closing)

end Enclosed

/-! ## Factors -/

section Factors

variable {call : Nonterminal → Parser (Except Fault) Lexeme α} {bound offset : Nat}
  {rest : List Lexeme}

theorem number_settles {head : Lexeme} {value : α} (isNumber : head.shape.kind = .number)
    (accepted : semantics.number head.shape.text = some value) :
    Settles semantics .factor total ((number semantics).interpret call) ⟨head :: rest, offset⟩ := by
  obtain ⟨digits, written⟩ := Shape.exists_digits isNumber
  rw [written, Shape.text] at accepted
  have tokens : head :: rest = [head] ++ rest := rfl
  exact .hit tokens (.number written) accepted (number_hits call written accepted rest offset)
    (.behind_factor (.missing ..)) fun _ => rfl

/-- A number is accepted or rejected. -/
theorem number_resolves {head : Lexeme} (isNumber : head.shape.kind = .number)
    (spans : Spans total ⟨head :: rest, offset⟩) :
    Resolves semantics .factor total ((number semantics).interpret call)
      ⟨head :: rest, offset⟩ := by
  cases image : semantics.number head.shape.text with
  | none => exact .inr (number_rejects call ⟨isNumber, image⟩ spans)
  | some value => exact .inl (number_settles isNumber image)

section Parenthesized

variable {opening : Lexeme} {read behind : List Lexeme} {tree : Tree} {value : α}
  {tried : List Lexeme} {final : Outlook} {error : Option Diagnostic}

theorem pass_opening (opens : opening.shape.kind = .leftParen) :
    pass .factor (.operand 0) [opening] = some (.operand 1) := by
  rw [pass_cons (by rw [opens]; simp [wanted]), opens]
  rfl

/-- An expression that is closed is a factor. -/
theorem parenthesized_closed {closing : Lexeme} (opens : opening.shape.kind = .leftParen)
    (closes : closing.shape.kind = .rightParen) (forms : Forms .expr read tree)
    (image : tree.image? semantics = some value)
    (spans : Spans total ⟨opening :: (read ++ closing :: behind), offset⟩)
    (hits : Hits (call .expr) ⟨read ++ closing :: behind, offset + 1⟩ value
      ⟨closing :: behind, offset + 1 + read.length⟩ error)
    (stops : Stops .expr total (.operator 0) ⟨closing :: behind, offset + 1 + read.length⟩ tried
      final error) :
    Settles semantics .factor total (parenthesized.interpret call)
      ⟨opening :: (read ++ closing :: behind), offset⟩ := by
  have opened : opening.shape = .leftParen := Shape.eq_of_kind_eq opens (by decide)
  have closed : closing.shape = .rightParen := Shape.eq_of_kind_eq closes (by decide)
  have tokens : opening :: (read ++ closing :: behind) =
      (opening :: (read ++ [closing])) ++ behind := by simp
  have count : offset + 1 + read.length + 1 =
      offset + (opening :: (read ++ [closing])).length := by
    simp only [List.length_cons, List.length_append, List.length_nil]
    omega
  have refused : closing.shape.kind ∉ (Outlook.operator 0).wanted .expr := by
    rw [closes]
    decide
  have within := (spans.tail.advance rfl).tail.offset_le
  have silent := (stops.at_once refused).past (Nat.lt_succ_self _) within
  have closesHits := lexeme_hits call closes behind (offset + 1 + read.length)
  rw [Nat.succ_eq_add_one, count] at silent
  rw [count] at closesHits
  refine .hit tokens (.parenthesized opened closed forms) image ?_ (.behind_factor silent)
    fun _ => rfl
  have inner := hits.pair closesHits
  rw [farthest_none_right] at inner
  exact ((lexeme_hits call opens _ offset).pair inner).map fun values => values.2.1

/-- An expression that is not closed is no factor. -/
theorem parenthesized_unclosed (opens : opening.shape.kind = .leftParen)
    (forms : Forms .expr read tree) (spans : Spans total ⟨opening :: (read ++ behind), offset⟩)
    (hits : Hits (call .expr) ⟨read ++ behind, offset + 1⟩ value
      ⟨behind, offset + 1 + read.length⟩ error)
    (stops : Stops .expr total (.operator 0) ⟨behind, offset + 1 + read.length⟩ tried final error)
    (apart : final = .operator 0 → tried = [])
    (unclosed : ∀ head, behind.head? = some head → head.shape.kind ≠ .rightParen) :
    Settles semantics .factor total (parenthesized.interpret call)
      ⟨opening :: (read ++ behind), offset⟩ := by
  have within := spans.tail.advance rfl
  obtain ⟨error', misses, reports⟩ := lexeme_misses call within unclosed
  have deep : pass .factor (.operand 1) read = some (.operator 1) :=
    forms.pass_eq 1 fun outside => absurd outside Nat.one_ne_zero
  have opened : pass .factor (.operand 0) (opening :: read) = some (.operator 1) := by
    rw [← List.singleton_append, pass_append, pass_opening opens, Option.bind_some, deep]
  have inner : Stops .factor total (.operator 1) ⟨behind, offset + (opening :: read).length⟩ tried
      final.deeper (farthest error error') := by
    rw [List.length_cons, Nat.add_comm read.length, ← Nat.add_assoc]
    exact stops.unclosed apart within unclosed reports
  refine .miss ?_ (inner.prepend rfl opened) deeper_ne_operator_zero
  exact ((lexeme_hits call opens _ offset).pair_misses (hits.pair_misses misses)).map _

end Parenthesized

theorem Settles.parenthesized {opening : Lexeme} (opens : opening.shape.kind = .leftParen)
    (settles : Settles semantics .expr total (call .expr) ⟨rest, offset + 1⟩)
    (spans : Spans total ⟨opening :: rest, offset⟩) :
    Settles semantics .factor total (parenthesized.interpret call) ⟨opening :: rest, offset⟩ := by
  cases settles with
  | miss misses stops unfinished =>
    have inner : Stops .factor total (.operand 1) ⟨rest, offset + 1⟩ _ _ _ :=
      stops.enclosed unfinished
    have opensHits := lexeme_hits call opens rest offset
    exact .miss ((opensHits.pair_misses (misses.bind _)).map _)
      (inner.prepend rfl (pass_opening opens)) deeper_ne_operator_zero
  | @hit read behind tried tree value final error tokens forms image hits stops apart =>
    obtain rfl : rest = read ++ behind := tokens
    by_cases unclosed : ∀ head, behind.head? = some head → head.shape.kind ≠ .rightParen
    · exact parenthesized_unclosed opens forms spans hits stops apart unclosed
    · push Not at unclosed
      obtain ⟨closing, standing, closes⟩ := unclosed
      obtain ⟨later, rfl⟩ := List.head?_eq_some_iff.mp standing
      exact parenthesized_closed opens closes forms image spans hits stops

/-- Where an expression stopped in front of an operator no closing parenthesis stands. -/
theorem Rejects.parenthesized {opening : Lexeme} (opens : opening.shape.kind = .leftParen)
    (rejects : Rejects semantics .expr total (call .expr) ⟨rest, offset + 1⟩)
    (spans : Spans total ⟨opening :: rest, offset⟩) :
    Rejects semantics .factor total (parenthesized.interpret call) ⟨opening :: rest, offset⟩ := by
  have opensHits := lexeme_hits call opens rest offset
  have accepts : semantics.Accepts [opening] :=
    .cons (by rw [opens]; decide) (List.forall_mem_nil _)
  cases rejects with
  | miss balks misses =>
    exact .miss (balks.enclosed.prepend rfl accepts (pass_opening opens))
      ((opensHits.pair_misses (misses.bind _)).map _)
  | @hit read reason value rest balks halts hits =>
    obtain ⟨sign, standing, joins⟩ := halts.joins
    have unclosed : ∀ head, rest.tokens.head? = some head → head.shape.kind ≠ .rightParen := by
      rintro head stands closes
      obtain rfl := Option.some.inj (standing.symm.trans stands)
      rw [closes] at joins
      exact absurd joins (by decide)
    obtain ⟨error, misses, reports⟩ := lexeme_misses call halts.spans unclosed
    have inner := hits.pair_misses misses
    rw [(balks.overtakes spans.tail halts.before reports.reach).2] at inner
    exact .miss (balks.enclosed.prepend rfl accepts (pass_opening opens))
      ((opensHits.pair_misses inner).map _)

theorem pass_signed {sign : Lexeme} {op : Op} (isSign : sign.shape.kind.additive? = some op) :
    pass .factor (.operand 0) [sign] = some (.operand 0) := by
  have comes : sign.shape.kind ∈ (Outlook.operand 0).wanted .factor := by
    revert isSign
    cases sign.shape.kind <;> simp [Kind.additive?, wanted]
  rw [pass_cons comes, (after_additive isSign 0).1, pass_nil]

theorem Settles.signed {sign : Lexeme} {op : Op} (isSign : sign.shape.kind.additive? = some op)
    (settles : Settles semantics .factor total (call .factor) ⟨rest, offset + 1⟩)
    (spans : Spans total ⟨sign :: rest, offset⟩) :
    Settles semantics .factor total ((signed semantics).interpret call) ⟨sign :: rest, offset⟩ := by
  obtain ⟨signError, signHits, silent⟩ := (additive_signs call).hits spans isSign
  cases settles with
  | miss misses stops unfinished =>
    have inner := stops.add_left (silent.later (by simp) (stops.length_le spans.tail))
    exact .miss ((signHits.pair_misses misses).map _) (inner.prepend rfl (pass_signed isSign))
      unfinished
  | @hit read behind tried tree value final error tokens forms image hits stops apart =>
    obtain rfl : rest = read ++ behind := tokens
    have within := spans.tail.advance rfl
    have inner := stops.add_left (silent.later (by simp only; omega) (stops.length_le within))
    have count : offset + 1 + read.length = offset + (sign :: read).length := by
      rw [List.length_cons]
      omega
    simp only [count] at hits inner
    have split : sign :: (read ++ behind) = (sign :: read) ++ behind := rfl
    have signedImage : (Tree.unary op tree).image? semantics = some (semantics.unary op value) := by
      rw [Tree.image?, image, Option.map_some]
    exact .hit split (.signed isSign forms) signedImage
      ((signHits.pair hits).map fun values => semantics.unary values.1 values.2) inner apart

theorem Rejects.signed {sign : Lexeme} {op : Op} (isSign : sign.shape.kind.additive? = some op)
    (rejects : Rejects semantics .factor total (call .factor) ⟨rest, offset + 1⟩)
    (spans : Spans total ⟨sign :: rest, offset⟩) :
    Rejects semantics .factor total ((signed semantics).interpret call) ⟨sign :: rest, offset⟩ := by
  obtain ⟨signError, signHits, silent⟩ := (additive_signs call).hits spans isSign
  cases rejects with
  | miss balks misses =>
    have accepts : semantics.Accepts [sign] :=
      .cons (Kind.ne_number_of_sign rfl isSign) (List.forall_mem_nil _)
    have all := (signHits.pair_misses misses).map fun values =>
      semantics.unary values.1 values.2
    rw [(balks.overtakes spans.tail (Nat.le_add_right _ _) silent.reach).1] at all
    exact .miss (balks.prepend rfl accepts (pass_signed isSign)) all
  | hit balks halts hits => exact absurd halts Halts.not_factor

/-- A branch that gets past the first lexeme overtakes the branches after it. -/
theorem Stops.firstOfFrom_misses {ps : List (Parser (Except Fault) Lexeme α)} {tried : List Lexeme}
    {level : Level} {outlook final : Outlook} {error : Option Diagnostic}
    (stops : Stops level total outlook input tried final error) (moved : tried ≠ [])
    (spans : Spans total input) (present : error.isSome)
    (others : ∀ q ∈ ps, ∃ error kinds, Misses q input error ∧
      Reports total error input.offset kinds) :
    ∃ error', Misses (fun input => firstOfFrom input ps error) input error' ∧
      Stops level total outlook input tried final error' := by
  induction ps generalizing error with
  | nil => exact ⟨error, ⟨present, firstOfFrom_nil present⟩, stops⟩
  | cons q ps ih =>
    obtain ⟨missed, kinds, misses, reports⟩ := others q List.mem_cons_self
    have further : input.offset < input.offset + tried.length :=
      Nat.lt_add_of_pos_right (List.length_pos_iff.mpr moved)
    have silent := reports.past further (stops.length_le spans)
    obtain ⟨error', misses', stops'⟩ := ih (stops.add_right silent)
      (farthest_isSome_right error misses.1)
      fun q member => others q (List.mem_cons_of_mem _ member)
    exact ⟨error', ⟨misses'.1, (misses.firstOfFrom ps error).trans misses'.2⟩, stops'⟩

/-- A branch that gets past the first lexeme settles the choice. -/
theorem Settles.firstOfFrom {p : Parser (Except Fault) Lexeme α}
    {ps : List (Parser (Except Fault) Lexeme α)} {head : Lexeme} {kinds : List Kind}
    {earlier : Option Diagnostic}
    (settles : Settles semantics .factor total p ⟨head :: rest, offset⟩)
    (comes : head.shape.kind ∈ (Outlook.operand 0).wanted .factor)
    (spans : Spans total ⟨head :: rest, offset⟩) (reports : Reports total earlier offset kinds)
    (others : ∀ q ∈ ps, ∃ error kinds, Misses q ⟨head :: rest, offset⟩ error ∧
      Reports total error offset kinds) :
    Settles semantics .factor total (fun input => firstOfFrom input (p :: ps) earlier)
      ⟨head :: rest, offset⟩ := by
  cases settles with
  | @hit read behind tried tree value final error tokens forms image hits stops apart =>
    have moved := List.length_pos_iff.mpr forms.ne_nil
    have further : offset < offset + read.length + tried.length := by omega
    have silent := reports.past further (stops.length_le (spans.advance tokens))
    exact .hit tokens forms image (hits.firstOfFrom ps earlier) (stops.add_left silent) apart
  | @miss tried final error misses stops unfinished =>
    have moved := stops.tried_ne_nil comes
    have further : offset < offset + tried.length :=
      Nat.lt_add_of_pos_right (List.length_pos_iff.mpr moved)
    have silent := reports.past further (stops.length_le spans)
    obtain ⟨error', misses', stops'⟩ := (stops.add_left silent).firstOfFrom_misses moved spans
      (farthest_isSome_right earlier misses.1) others
    exact .miss ⟨misses'.1, (misses.firstOfFrom ps earlier).trans misses'.2⟩ stops' unfinished

/-- Behind a complaint the other branches change nothing. -/
theorem Balks.firstOfFrom_misses {ps : List (Parser (Except Fault) Lexeme α)} {level : Level}
    {outlook : Outlook} {read : List Lexeme} {reason : Diagnostic}
    (balks : Balks semantics level total outlook input read reason) (spans : Spans total input)
    (others : ∀ q ∈ ps, ∃ error kinds, Misses q input error ∧
      Reports total error input.offset kinds) :
    Parser.firstOfFrom input ps (some reason) = .ok ⟨false, [], some reason⟩ := by
  induction ps with
  | nil => exact firstOfFrom_nil rfl
  | cons q ps ih =>
    obtain ⟨missed, kinds, misses, reports⟩ := others q List.mem_cons_self
    rw [misses.firstOfFrom ps, (balks.overtakes spans (Nat.le_add_right _ _) reports.reach).2]
    exact ih fun q member => others q (List.mem_cons_of_mem _ member)

/-- A branch that comes to a rejected number settles the choice as well. -/
theorem Rejects.firstOfFrom {p : Parser (Except Fault) Lexeme α}
    {ps : List (Parser (Except Fault) Lexeme α)} {kinds : List Kind} {earlier : Option Diagnostic}
    (rejects : Rejects semantics .factor total p input) (spans : Spans total input)
    (reports : Reports total earlier input.offset kinds)
    (others : ∀ q ∈ ps, ∃ error kinds, Misses q input error ∧
      Reports total error input.offset kinds) :
    Rejects semantics .factor total (fun input => firstOfFrom input (p :: ps) earlier) input := by
  cases rejects with
  | miss balks misses =>
    have overtaken := (balks.overtakes spans (Nat.le_add_right _ _) reports.reach).1
    refine .miss balks ⟨rfl, (misses.firstOfFrom ps earlier).trans ?_⟩
    rw [overtaken]
    exact balks.firstOfFrom_misses spans others
  | hit balks halts hits => exact absurd halts Halts.not_factor

/-- A branch that resolves where it applies resolves the choice. -/
theorem Resolves.firstOfFrom {p : Parser (Except Fault) Lexeme α}
    {ps : List (Parser (Except Fault) Lexeme α)} {head : Lexeme} {kinds : List Kind}
    {earlier : Option Diagnostic}
    (resolves : Resolves semantics .factor total p ⟨head :: rest, offset⟩)
    (comes : head.shape.kind ∈ (Outlook.operand 0).wanted .factor)
    (spans : Spans total ⟨head :: rest, offset⟩) (reports : Reports total earlier offset kinds)
    (others : ∀ q ∈ ps, ∃ error kinds, Misses q ⟨head :: rest, offset⟩ error ∧
      Reports total error offset kinds) :
    Resolves semantics .factor total (fun input => Parser.firstOfFrom input (p :: ps) earlier)
      ⟨head :: rest, offset⟩ :=
  resolves.imp (fun settles => settles.firstOfFrom comes spans reports others)
    fun rejects => rejects.firstOfFrom spans reports others

/-- Only what the parser does on the input matters. -/
theorem Settles.congr {level : Level} {p q : Parser (Except Fault) Lexeme α}
    (settles : Settles semantics level total p input) (same : q input = p input) :
    Settles semantics level total q input := by
  cases settles with
  | hit tokens forms image hits stops apart =>
    exact .hit tokens forms image (same.trans hits) stops apart
  | miss misses stops unfinished =>
    exact .miss ⟨misses.1, same.trans misses.2⟩ stops unfinished

theorem Rejects.congr {level : Level} {p q : Parser (Except Fault) Lexeme α}
    (rejects : Rejects semantics level total p input) (same : q input = p input) :
    Rejects semantics level total q input := by
  cases rejects with
  | miss balks misses => exact .miss balks ⟨misses.1, same.trans misses.2⟩
  | hit balks halts hits => exact .hit balks halts (same.trans hits)

/-- A branch that misses gives way to the branches after it. -/
theorem Resolves.skip {level : Level} {p : Parser (Except Fault) Lexeme α}
    {ps : List (Parser (Except Fault) Lexeme α)} {error earlier : Option Diagnostic}
    (resolves : Resolves semantics level total
      (fun input => Parser.firstOfFrom input ps (farthest earlier error)) input)
    (misses : Misses p input error) :
    Resolves semantics level total
      (fun input => Parser.firstOfFrom input (p :: ps) earlier) input := by
  have same := misses.firstOfFrom ps earlier
  exact resolves.imp (fun settles => settles.congr same) fun rejects => rejects.congr same

/-- Where no factor begins, everything that could begin one is wished for. -/
theorem factor_misses (call : Nonterminal → Parser (Except Fault) Lexeme α)
    (semantics : Semantics α) (spans : Spans total input)
    (other : ∀ head, input.tokens.head? = some head →
      head.shape.kind ∉ (Outlook.operand 0).wanted .factor) :
    Resolves semantics .factor total ((factor semantics).interpret call) input := by
  obtain ⟨error, misses, reports⟩ := number_misses call semantics spans fun head standing is =>
    other head standing (by rw [is]; decide)
  obtain ⟨error', misses', reports'⟩ := parenthesized_misses call spans fun head standing is =>
    other head standing (by rw [is]; decide)
  obtain ⟨error'', misses'', reports''⟩ := signed_misses call semantics spans
    fun head standing => by
      have excluded := other head standing
      revert excluded
      cases head.shape.kind <;> simp [Kind.additive?, wanted]
  have present := farthest_isSome_right (farthest error error') misses''.1
  have stops : Stops .factor total (.operand 0) input [] (.operand 0)
      (farthest (farthest error error') error'') :=
    ⟨⟨input.tokens, rfl, other⟩, rfl, (reports.merge reports').merge reports''⟩
  have none : Resolves semantics .factor total
      (fun input => Parser.firstOfFrom input [] (farthest (farthest error error') error'')) input :=
    .inl (.miss ⟨present, firstOfFrom_nil present⟩ stops (by decide))
  rw [factor, Grammar.interpret_firstOf]
  exact ((none.skip misses'').skip misses').skip misses

/-- Factors resolve if the rules resolve on shorter inputs. -/
theorem factor_resolves (expressions : ResolvesBelow semantics .expr total bound (call .expr))
    (factors : ResolvesBelow semantics .factor total bound (call .factor)) :
    ResolvesBelow semantics .factor total (bound + 1) ((factor semantics).interpret call) := by
  rintro ⟨tokens, offset⟩ spans bounded
  by_cases other : ∀ head, tokens.head? = some head →
      head.shape.kind ∉ (Outlook.operand 0).wanted .factor
  · exact factor_misses call semantics spans other
  · push Not at other
    obtain ⟨head, standing, comes⟩ := other
    obtain ⟨rest, rfl⟩ := List.head?_eq_some_iff.mp standing
    have shorter : rest.length < bound := by
      unfold Residual.remaining at bounded
      rw [List.length_cons] at bounded
      omega
    have alone : ∀ {P : Kind → Prop}, P head.shape.kind →
        ∀ found, (head :: rest).head? = some found → P found.shape.kind :=
      fun holds found same => Option.some.inj same ▸ holds
    have noNumber (is : head.shape.kind ≠ .number) :=
      number_misses call semantics spans (alone (P := fun kind => kind ≠ .number) is)
    have noParenthesis (is : head.shape.kind ≠ .leftParen) :=
      parenthesized_misses call spans (alone (P := fun kind => kind ≠ .leftParen) is)
    have noSign (is : head.shape.kind.additive? = none) :=
      signed_misses call semantics spans (alone (P := fun kind => kind.additive? = none) is)
    rw [factor, Grammar.interpret_firstOf]
    have begins : head.shape.kind = .number ∨ head.shape.kind = .leftParen ∨
        ∃ op, head.shape.kind.additive? = some op := by
      revert comes
      cases head.shape.kind <;> simp [wanted, Kind.additive?]
    rcases begins with isNumber | opens | ⟨op, isSign⟩
    · obtain ⟨error, misses, reports⟩ := noParenthesis (by rw [isNumber]; decide)
      obtain ⟨error', misses', reports'⟩ := noSign (by rw [isNumber]; rfl)
      exact (number_resolves isNumber spans).firstOfFrom comes spans (.missing ..)
        (List.forall_mem_cons.mpr ⟨⟨error, _, misses, reports⟩,
          List.forall_mem_singleton.mpr ⟨error', _, misses', reports'⟩⟩)
    · obtain ⟨error, misses, reports⟩ := noNumber (by rw [opens]; decide)
      obtain ⟨error', misses', reports'⟩ := noSign (by rw [opens]; rfl)
      have resolves : Resolves semantics .factor total (parenthesized.interpret call)
          ⟨head :: rest, offset⟩ :=
        (expressions ⟨rest, offset + 1⟩ spans.tail shorter).imp
          (fun settles => settles.parenthesized opens spans)
          fun rejects => rejects.parenthesized opens spans
      have chosen := resolves.firstOfFrom comes spans reports
        (List.forall_mem_singleton.mpr ⟨error', _, misses', reports'⟩)
      exact Resolves.skip chosen misses
    · obtain ⟨error, misses, reports⟩ := noNumber (by rintro is; rw [is] at isSign; cases isSign)
      obtain ⟨error', misses', reports'⟩ :=
        noParenthesis (by rintro is; rw [is] at isSign; cases isSign)
      have resolves : Resolves semantics .factor total ((signed semantics).interpret call)
          ⟨head :: rest, offset⟩ :=
        (factors ⟨rest, offset + 1⟩ spans.tail shorter).imp
          (fun settles => settles.signed isSign spans) fun rejects => rejects.signed isSign spans
      have chosen :=
        resolves.firstOfFrom comes spans (reports.merge reports') (List.forall_mem_nil _)
      exact (Resolves.skip chosen misses').skip misses

end Factors

/-- Terms resolve if factors do. -/
theorem term_resolves {call : Nonterminal → Parser (Except Fault) Lexeme α} {bound : Nat}
    (factors : ResolvesBelow semantics .factor total bound (call .factor)) :
    ResolvesBelow semantics .term total bound ((term semantics).interpret call) :=
  leftGrouped_resolves grouping_term (multiplicative_signs call) factors

/-- Expressions resolve if factors do. -/
theorem expr_resolves {call : Nonterminal → Parser (Except Fault) Lexeme α} {bound : Nat}
    (factors : ResolvesBelow semantics .factor total bound (call .factor)) :
    ResolvesBelow semantics .expr total bound ((expr semantics).interpret call) :=
  leftGrouped_resolves grouping_expr (additive_signs call) (term_resolves factors)

/-- **Both rules resolve** inputs of half as many lexemes as there may be calls in progress. -/
theorem call_resolves (semantics : Semantics α) (total limit : Nat) :
    (∀ bound, 2 * bound ≤ limit + 1 →
      ResolvesBelow semantics .factor total bound ((rules semantics).call limit .factor)) ∧
    ∀ bound, 2 * bound ≤ limit →
      ResolvesBelow semantics .expr total bound ((rules semantics).call limit .expr) := by
  induction limit with
  | zero =>
    refine ⟨fun bound within => ?_, fun bound within => ?_⟩ <;>
    · obtain rfl : bound = 0 := by omega
      exact fun input _ bounded => absurd bounded (Nat.not_lt_zero _)
  | succ limit ih =>
    obtain ⟨factors, expressions⟩ := ih
    refine ⟨fun bound within => ?_, fun bound within => ?_⟩
    · cases bound with
      | zero => exact fun input _ bounded => absurd bounded (Nat.not_lt_zero _)
      | succ bound =>
        -- A factor calls rules only behind its first lexeme, so `bound` shrinks with the limit.
        exact factor_resolves (expressions bound (by omega)) (factors bound (by omega))
    · exact expr_resolves (factors bound within)

/-- The usual limit is enough for all of the lexemes. -/
theorem two_mul_le_callLimit (lexemes : List Lexeme) :
    2 * (lexemes.length + 1) ≤ callLimit lexemes := by
  unfold callLimit
  omega

/-- **Both rules settle** where the semantics accepts all numbers. -/
theorem call_settles (semantics : Semantics α) (total limit : Nat) :
    (∀ bound, 2 * bound ≤ limit + 1 →
      SettlesBelow semantics .factor total bound ((rules semantics).call limit .factor)) ∧
    ∀ bound, 2 * bound ≤ limit →
      SettlesBelow semantics .expr total bound ((rules semantics).call limit .expr) := by
  obtain ⟨factors, expressions⟩ := call_resolves semantics total limit
  have settles : ∀ {level bound} {p : Parser (Except Fault) Lexeme α},
      ResolvesBelow semantics level total bound p → SettlesBelow semantics level total bound p :=
    fun resolves input spans bounded accepts =>
      (resolves input spans bounded).resolve_right fun rejects => rejects.not_accepts accepts
  exact ⟨fun bound within => settles (factors bound within),
    fun bound within => settles (expressions bound within)⟩

end Multiparse.Arith
