import Multiparse.Arith.Evaluation
import Multiparse.Proofs.Arith.Recognition
import Multiparse.Proofs.Consumption

/-!
# What a source evaluates to

A semantics may reject numbers. Whatever is read all the same is the value of a syntax tree of the
lexemes consumed for it, so a source evaluates to a value exactly if its lexemes have a tree to
which the semantics gives that value (`evaluate_eq_ok_iff`).
-/

namespace Multiparse.Arith

open Multiparse.Parser

/-- The lexemes are a phrase of the level, and the semantics gives the value to its tree. -/
def Means {α : Type} (semantics : Semantics α) (level : Level) (lexemes : List Lexeme)
    (value : α) : Prop :=
  ∃ tree, Forms level lexemes tree ∧ tree.image? semantics = some value

variable {α : Type} {semantics : Semantics α}

/-! ## Phrases -/

section Phrases

variable {call : Nonterminal → Parser (Except Fault) Lexeme α}

theorem lexeme_consumes (kind : Kind) :
    ((lexeme kind : Phrase α Lexeme).interpret call).Consumes fun read head =>
      read = [head] ∧ head.shape.kind = kind :=
  (satisfy_consumes _ _).mono fun _ _ spelled => ⟨spelled.1, of_decide_eq_true spelled.2⟩

/-- A choice between two signs consumes one of them. -/
theorem signs_consume {first second : Kind} {op op' : Op} {sign? : Kind → Option Op}
    (isFirst : sign? first = some op) (isSecond : sign? second = some op') :
    ((Grammar.firstOf [operator first op, operator second op'] : Phrase α Op).interpret
      call).Consumes fun read found =>
        ∃ sign, read = [sign] ∧ sign? sign.shape.kind = some found := by
  have one : ∀ {kind : Kind} {op : Op}, sign? kind = some op →
      ((operator kind op : Phrase α Op).interpret call).Consumes fun read found =>
        ∃ sign, read = [sign] ∧ sign? sign.shape.kind = some found := by
    intro kind op is
    refine map_consumes ((lexeme_consumes kind).mono fun read head spelled => ?_)
    obtain ⟨rfl, rfl⟩ := spelled
    exact ⟨head, rfl, is⟩
  rw [Grammar.interpret_firstOf]
  apply firstOf_consumes
  simpa using ⟨one isFirst, one isSecond⟩

theorem additive_consumes :
    (additive.interpret call).Consumes fun read found =>
      ∃ sign, read = [sign] ∧ sign.shape.kind.additive? = some found :=
  signs_consume rfl rfl

theorem multiplicative_consumes :
    (multiplicative.interpret call).Consumes fun read found =>
      ∃ sign, read = [sign] ∧ sign.shape.kind.multiplicative? = some found :=
  signs_consume rfl rfl

theorem number_consumes :
    ((number semantics).interpret call).Consumes (Means semantics .factor) := by
  refine bind_consumes (lexeme_consumes .number) fun read head spelled => ?_
  obtain ⟨rfl, isNumber⟩ := spelled
  obtain ⟨digits, written⟩ := Shape.exists_digits isNumber
  simp only [written, Shape.text]
  split
  · rename_i value image
    refine (succeed_consumes value).mono fun more result spelled => ?_
    obtain ⟨rfl, rfl⟩ := spelled
    exact ⟨.number digits, .number written, image⟩
  · exact fail_consumes _ _

theorem parenthesized_consumes (expressions : (call .expr).Consumes (Means semantics .expr)) :
    (parenthesized.interpret call).Consumes (Means semantics .factor) := by
  have inner := pair_consumes (p := use .expr) expressions (lexeme_consumes .rightParen)
  refine map_consumes ((pair_consumes (lexeme_consumes .leftParen) inner).mono ?_)
  intro read values spelled
  obtain ⟨front, back, rfl, ⟨rfl, opens⟩, lexemes, last, rfl, means, rfl, closes⟩ := spelled
  obtain ⟨tree, forms, image⟩ := means
  have opened : values.1.shape = .leftParen := Shape.eq_of_kind_eq opens (by decide)
  have closed : values.2.2.shape = .rightParen := Shape.eq_of_kind_eq closes (by decide)
  exact ⟨tree, .parenthesized opened closed forms, image⟩

theorem signed_consumes (factors : (call .factor).Consumes (Means semantics .factor)) :
    ((signed semantics).interpret call).Consumes (Means semantics .factor) := by
  refine map_consumes ((pair_consumes (q := use .factor) additive_consumes factors).mono ?_)
  intro read values spelled
  obtain ⟨front, back, rfl, ⟨sign, rfl, isSign⟩, tree, forms, image⟩ := spelled
  exact ⟨.unary values.1 tree, .signed isSign forms, by rw [Tree.image?, image]; rfl⟩

theorem factor_consumes (expressions : (call .expr).Consumes (Means semantics .expr))
    (factors : (call .factor).Consumes (Means semantics .factor)) :
    ((factor semantics).interpret call).Consumes (Means semantics .factor) := by
  rw [factor, Grammar.interpret_firstOf]
  apply firstOf_consumes
  simpa using ⟨number_consumes, parenthesized_consumes expressions, signed_consumes factors⟩

/-- What stands behind a phrase of the upper level can be joined to it. -/
theorem leftGrouped_consumes {lower upper : Level} {sign? : Kind → Option Op} {kinds : List Kind}
    {operand : Phrase α α} {operators : Phrase α Op} (grouping : Grouping lower upper sign? kinds)
    (operands : (operand.interpret call).Consumes (Means semantics lower))
    (signs : (operators.interpret call).Consumes fun read found =>
      ∃ sign, read = [sign] ∧ sign? sign.shape.kind = some found) :
    ((leftGrouped semantics operand operators).interpret call).Consumes
      (Means semantics upper) := by
  -- The loop does not know its first operand, so what it reads is said of whatever stands before.
  let joins (read : List Lexeme) (steps : List (Op × α)) : Prop :=
    ∀ first left, Means semantics upper first left →
      Means semantics upper (first ++ read) (steps.foldl (joinNext semantics) left)
  have loop : ((Grammar.repeated .greedy (.pair operators operand)).interpret call).Consumes
      joins := by
    refine greedy_consumes (pair_consumes signs operands) ?nil ?snoc
    case nil =>
      intro first left means
      rwa [List.append_nil]
    case snoc =>
      intro read steps more step earlier spelled first left means
      obtain ⟨front, back, rfl, ⟨sign, rfl, isSign⟩, right, forms, image⟩ := spelled
      obtain ⟨tree, joined, image'⟩ := earlier first left means
      rw [List.foldl_append, ← List.append_assoc]
      refine ⟨.binary step.1 tree right, grouping.joined joined isSign forms, ?_⟩
      rw [Tree.image?, image', image]
      rfl
  refine map_consumes ((pair_consumes operands loop).mono ?_)
  intro read values spelled
  obtain ⟨front, back, rfl, ⟨tree, forms, image⟩, joined⟩ := spelled
  exact joined front values.1 ⟨tree, grouping.single forms, image⟩

end Phrases

/-! ## Rules -/

/-- The level of the phrases that a rule reads. -/
def Nonterminal.level : Nonterminal → Level
  | expr => .expr
  | factor => .factor

/-- Whatever a rule reads is the value of a phrase, with any limit on rule calls. -/
theorem call_consumes (semantics : Semantics α) (limit : Nat) (rule : Nonterminal) :
    Consumes ((rules semantics).call limit rule) (Means semantics rule.level) := by
  -- A rule runs its pattern with one call less, so both rules are proved at once.
  induction limit generalizing rule with
  | zero =>
    intro input outcome returned
    cases returned
  | succ limit ih =>
    cases rule with
    | factor => exact factor_consumes (ih .expr) (ih .factor)
    | expr =>
      have factors : ((use .factor).interpret ((rules semantics).call limit)).Consumes
          (Means semantics .factor) := ih .factor
      have terms := leftGrouped_consumes grouping_term factors multiplicative_consumes
      exact leftGrouped_consumes grouping_expr terms additive_consumes

/-! ## Sources -/

/-- What is read as one expression is the value of its tree, even by a semantics that rejects some
of the numbers. -/
theorem parse_whole_iff {lexemes : List Lexeme} {result : α} :
    (∃ outcome, parse (rules semantics) .expr lexemes = .ok outcome ∧
      outcome.whole = .ok result) ↔ Means semantics .expr lexemes result := by
  constructor
  · intro given
    obtain ⟨outcome, returned, whole⟩ := given
    obtain ⟨-, reading, single, rfl⟩ := Outcome.whole_eq_ok_iff.mp whole
    have finished : reading ∈ outcome.finished := single ▸ List.mem_singleton_self reading
    obtain ⟨member, ended⟩ := List.mem_filter.mp finished
    obtain ⟨read, tokens, means⟩ :=
      call_consumes semantics (callLimit lexemes) .expr (.start lexemes) outcome returned reading
        member
    have nothing : reading.rest.tokens = [] := List.isEmpty_iff.mp ended
    have all : lexemes = read := by
      rw [nothing, List.append_nil] at tokens
      exact tokens
    rw [all]
    exact means
  · intro means
    obtain ⟨tree, forms, image⟩ := means
    exact reads_iff.mp ((reads_ok_iff (forms.accepts image) result).mpr ⟨tree, forms, image⟩)

theorem value_eq_ok_iff (source : String) {lexemes : List Lexeme} {result : α} :
    value semantics source lexemes = .ok result ↔ Means semantics .expr lexemes result := by
  rw [← parse_whole_iff]
  unfold value
  cases parse (rules semantics) .expr lexemes with
  | error fault => simp
  | ok outcome => cases given : outcome.whole <;> simp [Except.mapError, given]

/-- A source evaluates to a value exactly if its lexemes have a tree that the semantics gives the
value to. -/
theorem evaluate_eq_ok_iff {source : String} {result : α} :
    (evaluate semantics source).1 = .ok result ↔
      ∃ lexemes, lex source = .ok lexemes ∧ Means semantics .expr lexemes result := by
  simp only [← value_eq_ok_iff source]
  rw [evaluate]
  cases lex source with
  | error reason => simp
  | ok lexemes => cases given : value semantics source lexemes <;> simp [given]

theorem evaluate_eq_ok_iff_image {source : String} {lexemes : List Lexeme} {tree : Tree}
    (cut : lex source = .ok lexemes) (forms : Forms .expr lexemes tree) {result : α} :
    (evaluate semantics source).1 = .ok result ↔ tree.image? semantics = some result := by
  rw [evaluate_eq_ok_iff]
  constructor
  · intro given
    obtain ⟨lexemes', cut', tree', forms', image⟩ := given
    cases cut.symm.trans cut'
    rw [forms.tree_unique forms']
    exact image
  · intro image
    exact ⟨lexemes, cut, tree, forms, image⟩

end Multiparse.Arith
