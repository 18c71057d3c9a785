import Mathlib.Data.List.TakeWhile
import Multiparse.Arith.Lexer
import Multiparse.Proofs.Arith.Phrase

/-!
# Numerals of a source

The numbers that are cut from a source are digits, with a point and more digits perhaps. Each of
them spells a floating-point number, so the evaluator accepts every source that can be cut into
lexemes (`evaluator_accepts`). A number ends where neither a digit nor a point follows.
-/

namespace Multiparse

/-- Digits, or digits with a point and any number of digits behind it. -/
def Decimal.IsNumeral (text : List Char) : Prop :=
  ∃ whole fraction, (text = whole ∨ text = whole ++ '.' :: fraction) ∧ whole ≠ [] ∧
    (∀ c ∈ whole, c.isDigit) ∧ ∀ c ∈ fraction, c.isDigit

namespace Decimal

variable {text : List Char}

theorem IsNumeral.readFraction?_isSome (numeral : IsNumeral text) :
    (readFraction? text).isSome := by
  obtain ⟨whole, fraction, shape, nonempty, wholeDigits, fractionDigits⟩ := numeral
  rcases shape with rfl | rfl
  · have taken : text.takeWhile Char.isDigit = text := List.takeWhile_eq_self_iff.mpr wholeDigits
    have dropped : text.dropWhile Char.isDigit = [] := List.dropWhile_eq_nil_iff.mpr wholeDigits
    simp [readFraction?, taken, dropped, nonempty, readExponent?]
  · have point : '.'.isDigit = false := by decide
    have taken : (whole ++ '.' :: fraction).takeWhile Char.isDigit = whole := by
      rw [List.takeWhile_append_of_pos wholeDigits, List.takeWhile_cons_of_neg (by simp [point]),
        List.append_nil]
    have dropped : (whole ++ '.' :: fraction).dropWhile Char.isDigit = '.' :: fraction := by
      rw [List.dropWhile_append_of_pos wholeDigits, List.dropWhile_cons_of_neg (by simp [point])]
    have rest : fraction.dropWhile Char.isDigit = [] := List.dropWhile_eq_nil_iff.mpr fractionDigits
    simp [readFraction?, taken, dropped, rest, nonempty, readExponent?]

theorem IsNumeral.splitSign_eq (numeral : IsNumeral text) : splitSign text = (false, text) := by
  obtain ⟨whole, fraction, shape, nonempty, wholeDigits, -⟩ := numeral
  obtain ⟨c, others, rfl⟩ := List.exists_cons_of_ne_nil nonempty
  have digit := wholeDigits c List.mem_cons_self
  have positive : c ≠ '-' ∧ c ≠ '+' := by
    constructor <;> rintro rfl <;> exact absurd digit (by decide)
  rcases shape with rfl | rfl <;> simp [splitSign, positive]

/-- Every numeral spells a number. -/
theorem IsNumeral.readFloat?_isSome (numeral : IsNumeral text) :
    (readFloat? (String.ofList text)).isSome := by
  rw [readFloat?, String.toList_ofList, numeral.splitSign_eq]
  simp only [Option.isSome_map]
  rw [readSize?]
  split
  · rfl
  · split
    · rfl
    · exact numeral.readFraction?_isSome

end Decimal

namespace Arith

/-- At least one character, and only digits. -/
def Digits (text : List Char) : Prop := text ≠ [] ∧ ∀ c ∈ text, c.isDigit = true

/-- Digits, or digits with a point and at least one more digit behind it. -/
def IsNumber (text : List Char) : Prop :=
  Digits text ∨
    ∃ whole fraction, Digits whole ∧ Digits fraction ∧ text = whole ++ '.' :: fraction

theorem IsNumber.isNumeral {text : List Char} (number : IsNumber text) :
    Decimal.IsNumeral text := by
  rcases number with digits | ⟨whole, fraction, front, back, rfl⟩
  · exact ⟨text, [], .inl rfl, digits.1, digits.2, List.forall_mem_nil _⟩
  · exact ⟨whole, fraction, .inr rfl, front.1, front.2, back.2⟩

theorem splitNumber_isNumber {c : Char} (digit : c.isDigit = true) (rest : List Char) :
    IsNumber (splitNumber (c :: rest)).1 := by
  have taken : ∀ {text : List Char}, text.takeWhile Char.isDigit ≠ [] →
      Digits (text.takeWhile Char.isDigit) :=
    fun nonempty => ⟨nonempty, fun d member => List.mem_takeWhile_imp member⟩
  have whole : Digits ((c :: rest).takeWhile Char.isDigit) := by
    apply taken
    rw [List.takeWhile_cons_of_pos digit]
    exact List.cons_ne_nil _ _
  unfold splitNumber
  split
  · rename_i behind after
    dsimp only
    split
    · exact .inl whole
    · rename_i goesOn
      exact .inr ⟨_, _, whole, taken (by simpa using goesOn), rfl⟩
  · exact .inl whole

/-- A digit or a point. -/
def isNumeric (c : Char) : Bool := c.isDigit || c = '.'

theorem isNumeric_of_isNumeral {text : List Char} (numeral : Decimal.IsNumeral text) :
    ∀ c ∈ text, isNumeric c = true := by
  obtain ⟨whole, fraction, shape, -, wholeDigits, fractionDigits⟩ := numeral
  intro c member
  rcases shape with rfl | rfl
  · simp [isNumeric, wholeDigits c member]
  · rcases List.mem_append.mp member with inWhole | behind
    · simp [isNumeric, wholeDigits c inWhole]
    · rcases List.mem_cons.mp behind with rfl | inFraction
      · rfl
      · simp [isNumeric, fractionDigits c inFraction]

/-- A number does not go on in the text. -/
def Detached (text : List Char) : Prop := text.head?.all fun c => !isNumeric c

theorem detached_cons {c : Char} {text : List Char} (other : isNumeric c = false) :
    Detached (c :: text) := by
  simp [Detached, other]

theorem takeWhile_isNumeric {digits rest : List Char} (numeric : ∀ c ∈ digits, isNumeric c = true)
    (detached : Detached rest) : (digits ++ rest).takeWhile isNumeric = digits := by
  rw [List.takeWhile_append_of_pos numeric]
  cases rest with
  | nil => simp
  | cons c rest =>
    have other : isNumeric c = false := by simpa [Detached] using detached
    simp [other]

/-- Cutting one lexeme and then the others. -/
theorem eq_cons_of_map_eq_ok {run : Except Unreadable (List Lexeme)} {first : Lexeme}
    {lexemes : List Lexeme} (cut : (run.map fun others => first :: others) = .ok lexemes) :
    ∃ others, run = .ok others ∧ lexemes = first :: others := by
  cases run with
  | error reason => cases cut
  | ok others => exact ⟨others, rfl, (Except.ok.inj cut).symm⟩

theorem sign?_not_number {c : Char} {shape : Shape} (isSign : sign? c = some shape) :
    shape.kind ≠ .number := by
  unfold sign? at isSign
  split at isSign <;> cases isSign <;> decide

/-- Numbers are cut from a text as numerals. -/
theorem lexFrom_isNumeral {place : Place} {text : List Char} {lexemes : List Lexeme}
    (cut : lexFrom place text = .ok lexemes) {lexeme : Lexeme} (member : lexeme ∈ lexemes)
    (isNumber : lexeme.shape.kind = .number) :
    ∃ digits, lexeme.shape.text = String.ofList digits ∧ Decimal.IsNumeral digits := by
  fun_induction lexFrom place text generalizing lexemes with
  | case1 place =>
    cases cut
    cases member
  | case2 place c rest blank ih => exact ih cut member
  | case3 place c rest blank digit number shorter =>
    rename_i ih
    obtain ⟨others, cutOthers, rfl⟩ := eq_cons_of_map_eq_ok cut
    rcases List.mem_cons.mp member with rfl | later
    · exact ⟨number, rfl, (splitNumber_isNumber digit rest).isNumeral⟩
    · exact ih cutOthers later
  | case4 place c rest blank digit shape isSign ih =>
    obtain ⟨others, cutOthers, rfl⟩ := eq_cons_of_map_eq_ok cut
    rcases List.mem_cons.mp member with rfl | later
    · exact absurd isNumber (sign?_not_number isSign)
    · exact ih cutOthers later
  | case5 => cases cut

/-- The evaluator accepts what is cut from a source. -/
theorem evaluator_accepts {source : String} {lexemes : List Lexeme}
    (cut : lex source = .ok lexemes) :
    evaluator.Accepts lexemes := by
  intro lexeme member isNumber
  obtain ⟨digits, text, numeral⟩ := lexFrom_isNumeral cut member isNumber
  rw [text]
  dsimp only [evaluator]
  exact numeral.readFloat?_isSome

/-- The printer accepts anything. -/
theorem printer_accepts (lexemes : List Lexeme) : printer.Accepts lexemes :=
  fun _ _ _ => rfl

end Arith

end Multiparse
