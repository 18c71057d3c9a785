import Multiparse.Proofs.Arith.Numeral
import Multiparse.Proofs.Arith.Verdict

/-!
# Which lexemes are read as an expression

Reading lexemes as one expression gives a value exactly for the sentences of the grammar, and the
value is what the semantics makes of the only syntax tree (`reads_iff_sentence`). So the semantics
has no influence on what is accepted.
-/

namespace Multiparse.Arith

variable {α : Type} {semantics : Semantics α} {lexemes : List Lexeme}

/-- A verdict is a value exactly for a sentence, and then the value of its tree. -/
theorem Verdict.eq_ok_iff {result : Except Diagnostic α}
    (verdict : Verdict semantics lexemes result) (value : α) :
    result = .ok value ↔
      ∃ tree, Forms .expr lexemes tree ∧ tree.image? semantics = some value := by
  cases verdict with
  | @value tree found forms image =>
    constructor
    · intro same
      obtain rfl : found = value := Except.ok.inj same
      exact ⟨tree, forms, image⟩
    · rintro ⟨other, forms', image'⟩
      obtain rfl := forms.tree_unique forms'
      rw [image] at image'
      rw [Option.some.inj image']
  | error stops unfinished =>
    constructor
    · intro same
      cases same
    · rintro ⟨tree, forms, -⟩
      exact absurd (stops.finishes forms.pass_self) unfinished

theorem reads_ok_iff (accepts : semantics.Accepts lexemes) (value : α) :
    Reads semantics lexemes (.ok value) ↔
      ∃ tree, Forms .expr lexemes tree ∧ tree.image? semantics = some value := by
  obtain ⟨result, reads, verdict⟩ := exists_reads accepts
  rw [← verdict.eq_ok_iff value]
  constructor
  · exact fun reads' => reads.unique reads'
  · rintro rfl
    exact reads

theorem exists_reads_ok_iff (accepts : semantics.Accepts lexemes) :
    (∃ value, Reads semantics lexemes (.ok value)) ↔ Sentence lexemes := by
  constructor
  · rintro ⟨value, reads⟩
    obtain ⟨tree, forms, -⟩ := (reads_ok_iff accepts value).mp reads
    exact ⟨tree, forms⟩
  · rintro ⟨tree, forms⟩
    obtain ⟨value, image⟩ := Option.isSome_iff_exists.mp (forms.image?_isSome accepts)
    exact ⟨value, (reads_ok_iff accepts value).mpr ⟨tree, forms, image⟩⟩

/-- **Exactly the sentences are read, and with the value of their only tree.** Reading lexemes that
a semantics accepts always returns. Whatever other semantics accepts the lexemes reads the same
ones, and gives its value to the same tree. The printer is such a semantics for all lexemes, and
the evaluator for all that are cut from a source. -/
theorem reads_iff_sentence {α : Type} (semantics : Semantics α) (lexemes : List Lexeme)
    (accepts : semantics.Accepts lexemes) :
    (∃ result, Reads semantics lexemes result) ∧
    ((∃ value, Reads semantics lexemes (.ok value)) ↔ Sentence lexemes) ∧
    (∀ value, Reads semantics lexemes (.ok value) ↔
      ∃ tree, Forms .expr lexemes tree ∧ tree.image? semantics = some value) ∧
    (∀ tree tree', Forms .expr lexemes tree → Forms .expr lexemes tree' → tree = tree') ∧
    (∀ (β : Type) (other : Semantics β), other.Accepts lexemes →
      ((∃ value, Reads semantics lexemes (.ok value)) ↔ ∃ value, Reads other lexemes (.ok value)) ∧
      ∀ value value', Reads semantics lexemes (.ok value) → Reads other lexemes (.ok value') →
        ∃ tree, Forms .expr lexemes tree ∧ tree.image? semantics = some value ∧
          tree.image? other = some value') ∧
    printer.Accepts lexemes ∧ ∀ source, lex source = .ok lexemes → evaluator.Accepts lexemes := by
  refine ⟨?_, exists_reads_ok_iff accepts, reads_ok_iff accepts, ?_, ?_, printer_accepts lexemes,
    fun source cut => evaluator_accepts cut⟩
  · obtain ⟨result, reads, -⟩ := exists_reads accepts
    exact ⟨result, reads⟩
  · exact fun tree tree' forms forms' => forms.tree_unique forms'
  · intro β other accepts'
    refine ⟨(exists_reads_ok_iff accepts).trans (exists_reads_ok_iff accepts').symm, ?_⟩
    intro value value' reads reads'
    obtain ⟨tree, forms, image⟩ := (reads_ok_iff accepts value).mp reads
    obtain ⟨tree', forms', image'⟩ := (reads_ok_iff accepts' value').mp reads'
    obtain rfl := forms.tree_unique forms'
    exact ⟨tree, forms, image, image'⟩

/-- The lexemes of some shapes, all in one place. -/
def unplaced (shapes : List Shape) : List Lexeme := shapes.map fun shape => ⟨shape, ⟨0, 0, 0⟩⟩

/-- `-1 - 2 * (3 - 4) - 5` is read from the left, products first. -/
theorem printer_reads_differences :
    printer.Accepts (unplaced [.minus, .number "1", .minus, .number "2", .star, .leftParen,
      .number "3", .minus, .number "4", .rightParen, .minus, .number "5"]) ∧
    Reads printer (unplaced [.minus, .number "1", .minus, .number "2", .star, .leftParen,
      .number "3", .minus, .number "4", .rightParen, .minus, .number "5"])
      (.ok "(- (- (- 1) (* 2 (- 3 4))) 5)") := by
  refine ⟨printer_accepts _, ((reads_iff_sentence printer _ (printer_accepts _)).2.2.1 _).mpr ?_⟩
  have number : ∀ digits, Forms .factor (unplaced [.number digits]) (.number digits) :=
    fun digits => .number rfl
  have inner : Forms .expr (unplaced [.number "3", .minus, .number "4"]) _ :=
    .sum (.expr (.term (number "3"))) rfl (.term (number "4"))
  have product : Forms .term (unplaced [.number "2", .star, .leftParen, .number "3", .minus,
      .number "4", .rightParen]) _ :=
    .product (.term (number "2")) rfl (.parenthesized rfl rfl inner)
  have negative : Forms .expr (unplaced [.minus, .number "1"]) _ :=
    .expr (.term (.signed rfl (number "1")))
  have minus : (Lexeme.mk .minus ⟨0, 0, 0⟩).shape.kind.additive? = some .sub := rfl
  exact ⟨_, .sum (.sum negative minus product) minus (.term (number "5")), by decide⟩

end Multiparse.Arith
