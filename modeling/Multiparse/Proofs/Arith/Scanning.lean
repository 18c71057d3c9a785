import Multiparse.Proofs.Arith.Numeral

/-!
# Scanning by the longest match

What it means to cut a text into lexemes, without any mention of how: from left to right blanks are
skipped, and of the lexemes that the text begins with the longest one is taken; where there is none,
the work ends with an error. There is at most one way to do so (`Scanned.unique`), and cutting a
source does it (`lex_scans`).
-/

namespace Multiparse.Arith

/-- A number is written as one; there is only one way to write a sign. -/
def Shape.Proper : Shape → Prop
  | number digits => IsNumber digits.toList
  | _ => True

/-- The text begins with a lexeme of the shape. -/
structure Shape.Begins (shape : Shape) (text : List Char) : Prop where
  proper : shape.Proper
  isPrefix : shape.text.toList <+: text

/-- The text begins with no longer lexeme. -/
structure Shape.Leads (shape : Shape) (text : List Char) : Prop where
  begins : shape.Begins text
  longest : ∀ other : Shape, other.Begins text →
    other.text.toList.length ≤ shape.text.toList.length

/-- From left to right the text consists of blanks and of lexemes with these shapes, each as long as
can be; there are no shapes if at some place neither a blank nor a lexeme stands. -/
inductive Scanned (blank : Char → Bool) : List Char → Option (List Shape) → Prop where
  | nil : Scanned blank [] (some [])
  | blank {c : Char} {rest : List Char} {shapes : Option (List Shape)} (skips : blank c = true)
      (later : Scanned blank rest shapes) : Scanned blank (c :: rest) shapes
  | lexeme {text rest : List Char} {shape : Shape} {shapes : Option (List Shape)}
      (leads : shape.Leads text) (split : text = shape.text.toList ++ rest)
      (later : Scanned blank rest shapes) : Scanned blank text (shapes.map (shape :: ·))
  | stuck {c : Char} {rest : List Char} (solid : blank c = false)
      (strange : ∀ shape : Shape, ¬ shape.Begins (c :: rest)) : Scanned blank (c :: rest) none

/-- A space is a blank, and nothing that a lexeme begins with is. -/
structure Blanks (blank : Char → Bool) : Prop where
  space : blank ' ' = true
  apart : ∀ c, blank c = true → c.isDigit = false ∧ sign? c = none

/-- Whatever the source, the cutter scans it by the longest match. -/
def Scans {ε : Type} (blank : Char → Bool) (cut : String → Except ε (List Lexeme)) : Prop :=
  ∀ source, Scanned blank source.toList ((cut source).toOption.map (List.map Lexeme.shape))

/-! ## How lexemes begin -/

section Beginnings

variable {shape shape' : Shape} {c : Char} {rest text : List Char}

theorem toList_of_sign? (isSign : sign? c = some shape) : shape.text.toList = [c] := by
  unfold sign? at isSign
  split at isSign <;> cases isSign <;> rfl

theorem isNumeric_of_sign? (isSign : sign? c = some shape) : isNumeric c = false := by
  unfold sign? at isSign
  split at isSign <;> first | rfl | cases isSign

theorem isDigit_of_sign? (isSign : sign? c = some shape) : c.isDigit = false :=
  (Bool.or_eq_false_iff.mp (isNumeric_of_sign? isSign)).1

theorem proper_of_sign? (isSign : sign? c = some shape) : shape.Proper := by
  unfold sign? at isSign
  split at isSign <;> cases isSign <;> trivial

theorem IsNumber.head {text : List Char} (number : IsNumber text) :
    ∃ c others, text = c :: others ∧ c.isDigit = true := by
  have digits : ∀ {whole : List Char}, Digits whole →
      ∃ c others, whole = c :: others ∧ c.isDigit = true := by
    intro whole digits
    obtain ⟨c, others, rfl⟩ := List.exists_cons_of_ne_nil digits.1
    exact ⟨c, others, rfl, digits.2 c List.mem_cons_self⟩
  rcases number with whole | ⟨whole, fraction, front, -, rfl⟩
  · exact digits whole
  · obtain ⟨c, others, rfl, digit⟩ := digits front
    exact ⟨c, _, rfl, digit⟩

/-- A lexeme is a number and begins with a digit, or it is a single sign. -/
theorem Shape.Proper.head (proper : shape.Proper) :
    ∃ c others, shape.text.toList = c :: others ∧
      (c.isDigit = true ∧ shape.kind = .number ∨ sign? c = some shape ∧ others = []) := by
  cases shape with
  | number digits =>
    obtain ⟨c, others, text, digit⟩ := IsNumber.head proper
    exact ⟨c, others, text, .inl ⟨digit, rfl⟩⟩
  | _ => exact ⟨_, [], rfl, .inr ⟨rfl, rfl⟩⟩

theorem Shape.Begins.ne_nil (begins : shape.Begins text) : text ≠ [] := by
  rintro rfl
  obtain ⟨c, others, written, -⟩ := begins.proper.head
  rw [List.prefix_nil.mp begins.isPrefix] at written
  cases written

theorem Shape.Begins.head (begins : shape.Begins (c :: rest)) :
    c.isDigit = true ∧ shape.kind = .number ∨ sign? c = some shape := by
  obtain ⟨d, others, written, first⟩ := begins.proper.head
  have isPrefix := begins.isPrefix
  rw [written, List.cons_prefix_cons] at isPrefix
  obtain ⟨rfl, -⟩ := isPrefix
  exact first.imp_right And.left

theorem Shape.Begins.not_blank {blank : Char → Bool} (blanks : Blanks blank)
    (begins : shape.Begins (c :: rest)) : blank c = false := by
  by_contra skips
  obtain ⟨noDigit, noSign⟩ := blanks.apart c (by simpa using skips)
  rcases begins.head with ⟨digit, -⟩ | isSign
  · rw [noDigit] at digit
    cases digit
  · rw [noSign] at isSign
    cases isSign

/-- A lexeme is known by its text. -/
theorem Shape.Proper.eq_of_text (proper : shape.Proper) (proper' : shape'.Proper)
    (same : shape.text.toList = shape'.text.toList) : shape = shape' := by
  obtain ⟨c, others, written, first⟩ := proper.head
  have begins : shape'.Begins (c :: others) := by
    refine ⟨proper', [], ?_⟩
    rw [List.append_nil, ← same, written]
  rcases first, begins.head with ⟨⟨digit, isNumber⟩ | ⟨isSign, -⟩, ⟨digit', isNumber'⟩ | isSign'⟩
  · obtain ⟨digits, rfl⟩ := Shape.exists_digits isNumber
    obtain ⟨digits', rfl⟩ := Shape.exists_digits isNumber'
    exact congrArg number (String.toList_inj.mp same)
  · rw [isDigit_of_sign? isSign'] at digit
    cases digit
  · rw [isDigit_of_sign? isSign] at digit'
    cases digit'
  · exact Option.some.inj (isSign.symm.trans isSign')

theorem Shape.Leads.unique (leads : shape.Leads text) (leads' : shape'.Leads text) :
    shape = shape' := by
  have length := Nat.le_antisymm (leads'.longest shape leads.begins)
    (leads.longest shape' leads'.begins)
  have within := List.prefix_of_prefix_length_le leads.begins.isPrefix leads'.begins.isPrefix
    length.le
  exact leads.begins.proper.eq_of_text leads'.begins.proper (within.eq_of_length length)

end Beginnings

/-! ## Scanning has one result -/

section Scanned

variable {blank : Char → Bool} {text : List Char} {shapes shapes' : Option (List Shape)}

theorem Scanned.unique (blanks : Blanks blank) (scanned : Scanned blank text shapes)
    (scanned' : Scanned blank text shapes') : shapes = shapes' := by
  induction scanned generalizing shapes' with
  | nil =>
    cases scanned' with
    | nil => rfl
    | lexeme leads => exact absurd rfl leads.begins.ne_nil
  | blank skips later ih =>
    cases scanned' with
    | blank skips' later' => exact ih later'
    | lexeme leads =>
      rw [leads.begins.not_blank blanks] at skips
      cases skips
    | stuck solid =>
      rw [solid] at skips
      cases skips
  | lexeme leads split later ih =>
    cases scanned' with
    | nil => exact absurd rfl leads.begins.ne_nil
    | blank skips =>
      rw [leads.begins.not_blank blanks] at skips
      cases skips
    | lexeme leads' split' later' =>
      obtain rfl := leads.unique leads'
      obtain rfl := List.append_cancel_left (split.symm.trans split')
      rw [ih later']
    | stuck solid strange => exact absurd leads.begins (strange _)
  | stuck solid strange =>
    cases scanned' with
    | blank skips =>
      rw [solid] at skips
      cases skips
    | lexeme leads => exact absurd leads.begins (strange _)
    | stuck => rfl

/-- So many spaces change nothing. -/
theorem Scanned.spaces (blanks : Blanks blank) (count : Nat) (scanned : Scanned blank text shapes) :
    Scanned blank (List.replicate count ' ' ++ text) shapes := by
  induction count with
  | zero => exact scanned
  | succ count ih => exact .blank blanks.space ih

end Scanned

/-! ## The longest lexeme -/

section Longest

variable {c : Char} {rest : List Char} {shape : Shape}

theorem leads_of_sign? (isSign : sign? c = some shape) : shape.Leads (c :: rest) where
  begins := by
    refine ⟨proper_of_sign? isSign, ?_⟩
    rw [toList_of_sign? isSign]
    exact ⟨rest, rfl⟩
  longest := by
    intro other begins
    rcases begins.head with ⟨digit, -⟩ | isSign'
    · rw [isDigit_of_sign? isSign] at digit
      cases digit
    · rw [Option.some.inj (isSign.symm.trans isSign')]

/-- A text that begins with a digit begins with numbers only. -/
theorem Shape.Begins.isNumber (begins : shape.Begins (c :: rest)) (digit : c.isDigit = true) :
    IsNumber shape.text.toList := by
  rcases begins.head with ⟨-, isNumber⟩ | isSign
  · have proper := begins.proper
    obtain ⟨digits, rfl⟩ := Shape.exists_digits isNumber
    exact proper
  · rw [isDigit_of_sign? isSign] at digit
    cases digit

theorem length_le_takeWhile {p : Char → Bool} {front text : List Char}
    (all : ∀ c ∈ front, p c = true) (begins : front <+: text) :
    front.length ≤ (text.takeWhile p).length := by
  obtain ⟨back, rfl⟩ := begins
  rw [List.takeWhile_append_of_pos all, List.length_append]
  exact Nat.le_add_right _ _

/-- A number that does not go on behind its end is the longest one that the text begins with. -/
theorem leads_of_detached {digits : List Char} (number : IsNumber digits)
    (detached : Detached rest) :
    (Shape.number (String.ofList digits)).Leads (digits ++ rest) := by
  have written : (Shape.number (String.ofList digits)).text.toList = digits :=
    String.toList_ofList
  refine ⟨⟨by rwa [Shape.Proper, String.toList_ofList], by rw [written]; exact ⟨rest, rfl⟩⟩, ?_⟩
  intro other begins
  have numeric := isNumeric_of_isNumeral number.isNumeral
  have taken := takeWhile_isNumeric numeric detached
  obtain ⟨c, others, rfl, digit⟩ := number.head
  have otherNumeric := isNumeric_of_isNumeral (begins.isNumber digit).isNumeral
  have bounded := length_le_takeWhile otherNumeric begins.isPrefix
  rwa [taken, ← written] at bounded

theorem takeWhile_prefix_splitNumber (text : List Char) :
    text.takeWhile Char.isDigit <+: (splitNumber text).1 := by
  unfold splitNumber
  split
  · dsimp only
    split
    · exact List.prefix_rfl
    · exact List.prefix_append _ _
  · exact List.prefix_rfl

/-- Behind a point the digits go on. -/
theorem splitNumber_fractional {whole fraction : List Char} (front : Digits whole)
    (back : Digits fraction) (rest : List Char) :
    (splitNumber (whole ++ '.' :: (fraction ++ rest))).1 =
      whole ++ '.' :: (fraction ++ rest.takeWhile Char.isDigit) := by
  have point : '.'.isDigit = false := rfl
  have taken : (whole ++ '.' :: (fraction ++ rest)).takeWhile Char.isDigit = whole := by
    rw [List.takeWhile_append_of_pos front.2, List.takeWhile_cons_of_neg (by simp [point]),
      List.append_nil]
  have dropped : (whole ++ '.' :: (fraction ++ rest)).dropWhile Char.isDigit =
      '.' :: (fraction ++ rest) := by
    rw [List.dropWhile_append_of_pos front.2, List.dropWhile_cons_of_neg (by simp [point])]
  have more : (fraction ++ rest).takeWhile Char.isDigit =
      fraction ++ rest.takeWhile Char.isDigit := List.takeWhile_append_of_pos back.2
  unfold splitNumber
  simp [taken, dropped, more, back.1]

/-- A number that the text begins with is no longer than the one that is split off. -/
theorem splitNumber_longest {number text : List Char} (isNumber : IsNumber number)
    (begins : number <+: text) : number.length ≤ (splitNumber text).1.length := by
  rcases isNumber with digits | ⟨whole, fraction, front, back, rfl⟩
  · exact (length_le_takeWhile digits.2 begins).trans (takeWhile_prefix_splitNumber text).length_le
  · obtain ⟨rest, rfl⟩ := begins
    rw [List.append_assoc, List.cons_append, splitNumber_fractional front back]
    simp

theorem splitNumber_leads (digit : c.isDigit = true) (rest : List Char) :
    (Shape.number (String.ofList (splitNumber (c :: rest)).1)).Leads (c :: rest) := by
  have number := splitNumber_isNumber digit rest
  have written : (Shape.number (String.ofList (splitNumber (c :: rest)).1)).text.toList =
      (splitNumber (c :: rest)).1 := String.toList_ofList
  refine ⟨⟨by rwa [Shape.Proper, String.toList_ofList], ?_⟩, ?_⟩
  · rw [written]
    exact ⟨_, splitNumber_append _⟩
  · intro other begins
    rw [written]
    exact splitNumber_longest (begins.isNumber digit) begins.isPrefix

end Longest

/-! ## Cutting a source -/

theorem isBlank_blanks : Blanks isBlank where
  space := rfl
  apart := by
    intro c skips
    simp only [isBlank, Bool.or_eq_true, decide_eq_true_eq] at skips
    rcases skips with (((rfl | rfl) | rfl) | rfl) | rfl <;> exact ⟨rfl, rfl⟩

theorem lexFrom_scanned (place : Place) (text : List Char) :
    Scanned isBlank text ((lexFrom place text).toOption.map (List.map Lexeme.shape)) := by
  have cons : ∀ (first : Lexeme) (run : Except Unreadable (List Lexeme)),
      (run.map fun lexemes => first :: lexemes).toOption.map (List.map Lexeme.shape) =
        (run.toOption.map (List.map Lexeme.shape)).map (first.shape :: ·) := by
    intro first run
    cases run <;> rfl
  fun_induction lexFrom place text with
  | case1 place => exact .nil
  | case2 place c rest skips ih => exact .blank skips ih
  | case3 place c rest solid digit number shorter ih =>
    rw [cons]
    have split : c :: rest = (Shape.number (String.ofList number)).text.toList ++
        (splitNumber (c :: rest)).2 := by
      rw [Shape.text, String.toList_ofList]
      exact (splitNumber_append _).symm
    exact .lexeme (splitNumber_leads digit rest) split ih
  | case4 place c rest solid noDigit shape isSign ih =>
    rw [cons]
    exact .lexeme (leads_of_sign? isSign) (by rw [toList_of_sign? isSign]; rfl) ih
  | case5 place c rest solid noDigit noSign =>
    refine .stuck (by simpa using solid) fun shape begins => ?_
    rcases begins.head with ⟨digit, -⟩ | isSign
    · exact noDigit digit
    · rw [noSign] at isSign
      cases isSign

theorem lex_scans : Scans isBlank lex := fun source => lexFrom_scanned .start source.toList

end Multiparse.Arith
