import Multiparse.Proofs.Arith.Meaning

/-!
# Printed expressions can be read back

The printer puts every operator in front of its operands, in parentheses, and separates them by
single spaces. Signs that have one operand or two are the same, but no number goes on over a space
or a parenthesis, so a printed tree ends where it does whatever stands behind it. Hence it
determines the tree (`printed_determines_tree`).
-/

namespace Multiparse.Arith

/-- The numbers of a tree are written with digits and points, and none of them is empty. -/
def Tree.Written : Tree → Prop
  | number digits => digits.toList ≠ [] ∧ ∀ c ∈ digits.toList, isNumeric c = true
  | unary _ operand => operand.Written
  | binary _ left right => left.Written ∧ right.Written

/-! ## Texts of trees -/

/-- The only character of an operator's sign. -/
def Op.character : Op → Char
  | add => '+'
  | sub => '-'
  | mul => '*'
  | div => '/'

theorem Op.symbol_eq (op : Op) : op.symbol = String.ofList [op.character] := by
  cases op <;> rfl

theorem Op.character_injective : Function.Injective Op.character := by
  intro op op' same
  cases op <;> cases op' <;> first | rfl | exact absurd same (by decide)

/-- The characters that the printer makes of a tree. -/
def Tree.printed : Tree → List Char
  | number digits => digits.toList
  | unary op operand => '(' :: op.character :: ' ' :: (operand.printed ++ [')'])
  | binary op left right =>
    '(' :: op.character :: ' ' :: (left.printed ++ ' ' :: (right.printed ++ [')']))

theorem Tree.image?_printer (tree : Tree) :
    tree.image? printer = some (String.ofList tree.printed) := by
  induction tree with
  | number digits => exact congrArg some String.ofList_toList.symm
  | unary op operand ih =>
    rw [image?, ih, Option.map_some]
    apply congrArg some
    apply String.toList_inj.mp
    simp [printer, printed, op.symbol_eq]
  | binary op left right ihLeft ihRight =>
    rw [image?, ihLeft, ihRight, Option.bind_some, Option.map_some]
    apply congrArg some
    apply String.toList_inj.mp
    simp [printer, printed, op.symbol_eq]

/-! ## Where a printed tree ends -/

/-- A number does not begin like a tree with an operator. -/
theorem number_ne_opened {digits rest text : List Char} (nonempty : digits ≠ [])
    (numeric : ∀ c ∈ digits, isNumeric c = true) : digits ++ rest ≠ '(' :: text := by
  intro same
  obtain ⟨c, others, rfl⟩ := List.exists_cons_of_ne_nil nonempty
  obtain ⟨rfl, -⟩ := List.cons_eq_cons.mp same
  exact absurd (numeric '(' List.mem_cons_self) (by decide)

theorem Tree.unary_append (op : Op) (operand : Tree) (rest : List Char) :
    (unary op operand).printed ++ rest =
      '(' :: op.character :: ' ' :: (operand.printed ++ ')' :: rest) := by
  simp [printed]

theorem Tree.binary_append (op : Op) (left right : Tree) (rest : List Char) :
    (binary op left right).printed ++ rest =
      '(' :: op.character :: ' ' :: (left.printed ++ ' ' :: (right.printed ++ ')' :: rest)) := by
  simp [printed]

/-- A printed tree with something behind it determines the tree and what is behind it. -/
theorem Tree.printed_append_inj {tree tree' : Tree} {rest rest' : List Char}
    (written : tree.Written) (written' : tree'.Written) (detached : Detached rest)
    (detached' : Detached rest') (same : tree.printed ++ rest = tree'.printed ++ rest') :
    tree = tree' ∧ rest = rest' := by
  have space : ∀ text, Detached (' ' :: text) := fun _ => detached_cons (by decide)
  have closing : ∀ text, Detached (')' :: text) := fun _ => detached_cons (by decide)
  -- Each operand is followed by its own rest, a space or a parenthesis, so the rests vary.
  induction tree generalizing tree' rest rest' with
  | number digits =>
    cases tree' with
    | number digits' =>
      have taken := congrArg (List.takeWhile isNumeric) same
      rw [printed, printed, takeWhile_isNumeric written.2 detached,
        takeWhile_isNumeric written'.2 detached'] at taken
      rw [printed, printed, taken] at same
      exact ⟨congrArg number (String.toList_inj.mp taken), List.append_cancel_left same⟩
    | unary | binary => exact absurd same (number_ne_opened written.1 written.2)
  | unary op operand ih =>
    cases tree' with
    | number digits' => exact absurd same.symm (number_ne_opened written'.1 written'.2)
    | unary op' operand' =>
      rw [unary_append, unary_append] at same
      simp only [List.cons.injEq] at same
      obtain ⟨-, sameOp, -, inner⟩ := same
      have writtenOperand : operand'.Written := written'
      obtain ⟨rfl, behind⟩ := ih written writtenOperand (closing _) (closing _) inner
      rw [Op.character_injective sameOp]
      exact ⟨rfl, (List.cons_eq_cons.mp behind).2⟩
    | binary op' left right =>
      -- Behind the first operand stands a parenthesis in one text and a space in the other.
      rw [unary_append, binary_append] at same
      simp only [List.cons.injEq] at same
      obtain ⟨-, -, -, inner⟩ := same
      obtain ⟨-, behind⟩ := ih written written'.1 (closing _) (space _) inner
      exact absurd (List.cons_eq_cons.mp behind).1 (by decide)
  | binary op left right ihLeft ihRight =>
    cases tree' with
    | number digits' => exact absurd same.symm (number_ne_opened written'.1 written'.2)
    | unary op' operand =>
      rw [binary_append, unary_append] at same
      simp only [List.cons.injEq] at same
      obtain ⟨-, -, -, inner⟩ := same
      have writtenOperand : operand.Written := written'
      obtain ⟨-, behind⟩ := ihLeft written.1 writtenOperand (space _) (closing _) inner
      exact absurd (List.cons_eq_cons.mp behind).1 (by decide)
    | binary op' left' right' =>
      rw [binary_append, binary_append] at same
      simp only [List.cons.injEq] at same
      obtain ⟨-, sameOp, -, inner⟩ := same
      obtain ⟨rfl, second⟩ := ihLeft written.1 written'.1 (space _) (space _) inner
      have operands := (List.cons_eq_cons.mp second).2
      obtain ⟨rfl, behind⟩ := ihRight written.2 written'.2 (closing _) (closing _) operands
      rw [Op.character_injective sameOp]
      exact ⟨rfl, (List.cons_eq_cons.mp behind).2⟩

theorem Tree.eq_of_image?_printer {tree tree' : Tree} (written : tree.Written)
    (written' : tree'.Written) (same : tree.image? printer = tree'.image? printer) :
    tree = tree' := by
  rw [image?_printer, image?_printer, Option.some.injEq] at same
  have texts : tree.printed ++ [] = tree'.printed ++ [] := by
    rw [List.append_nil, List.append_nil]
    simpa using congrArg String.toList same
  have nothing : Detached [] := rfl
  exact (printed_append_inj written written' nothing nothing texts).1

/-! ## Trees of sources -/

theorem written_of_isNumeral {text : List Char} (numeral : Decimal.IsNumeral text) :
    (Tree.number (String.ofList text)).Written := by
  rw [Tree.Written, String.toList_ofList]
  refine ⟨?_, isNumeric_of_isNumeral numeral⟩
  obtain ⟨whole, fraction, shape, nonempty, -, -⟩ := numeral
  rcases shape with rfl | rfl
  · exact nonempty
  · simp

/-- The numbers of a tree stand among the lexemes of the phrase. -/
theorem Forms.written {level : Level} {lexemes : List Lexeme} {tree : Tree}
    (phrase : Forms level lexemes tree)
    (numbers : ∀ lexeme ∈ lexemes, lexeme.shape.kind = .number →
      (Tree.number lexeme.shape.text).Written) : tree.Written := by
  induction phrase with
  | @number lexeme digits written =>
    have own := numbers lexeme (List.mem_singleton_self lexeme) (by rw [written]; rfl)
    rwa [written] at own
  | parenthesized opens closes inner ih =>
    exact ih fun lexeme member => numbers lexeme (by simp [member])
  | signed signs operand ih => exact ih fun lexeme member => numbers lexeme (by simp [member])
  | term single ih | expr single ih => exact ih numbers
  | product earlier signs last ihLeft ihRight | sum earlier signs last ihLeft ihRight =>
    exact ⟨ihLeft fun lexeme member => numbers lexeme (by simp [member]),
      ihRight fun lexeme member => numbers lexeme (by simp [member])⟩

theorem written_of_lex {source : String} {lexemes : List Lexeme} {tree : Tree}
    (cut : lex source = .ok lexemes) (forms : Forms .expr lexemes tree) : tree.Written := by
  refine forms.written fun lexeme member isNumber => ?_
  obtain ⟨digits, text, numeral⟩ := lexFrom_isNumeral cut member isNumber
  rw [text]
  exact written_of_isNumeral numeral

/-- **A printed expression determines its syntax tree.** Of two trees whose numbers are written with
digits and points the printer makes the same text only if they are equal, whatever signs they have
in front of one operand or between two. A source that is shown as an expression has one syntax tree,
and two sources that are shown alike have the same one. So every semantics, even one that rejects
some of the numbers, gives both sources the value of that tree, or no value at all. -/
theorem printed_determines_tree :
    (∀ tree tree' : Tree, tree.Written → tree'.Written →
      tree.image? printer = tree'.image? printer → tree = tree') ∧
    ∀ (source source' shown : String), (evaluate printer source).1 = .ok shown →
      (evaluate printer source').1 = .ok shown →
      ∃ (lexemes lexemes' : List Lexeme) (tree : Tree),
        lex source = .ok lexemes ∧ lex source' = .ok lexemes' ∧
        tree.Written ∧ tree.image? printer = some shown ∧
        (∀ other, Forms .expr lexemes other ↔ other = tree) ∧
        (∀ other, Forms .expr lexemes' other ↔ other = tree) ∧
        ∀ (α : Type) (semantics : Semantics α) (value : α),
          ((evaluate semantics source).1 = .ok value ↔ tree.image? semantics = some value) ∧
          ((evaluate semantics source').1 = .ok value ↔ tree.image? semantics = some value) := by
  refine ⟨fun tree tree' written written' => Tree.eq_of_image?_printer written written', ?_⟩
  intro source source' shown accepted accepted'
  obtain ⟨lexemes, cut, tree, forms, image⟩ := evaluate_eq_ok_iff.mp accepted
  obtain ⟨lexemes', cut', tree', forms', image'⟩ := evaluate_eq_ok_iff.mp accepted'
  have written := written_of_lex cut forms
  obtain rfl : tree = tree' :=
    Tree.eq_of_image?_printer written (written_of_lex cut' forms') (image.trans image'.symm)
  refine ⟨lexemes, lexemes', tree, cut, cut', written, image, fun other => ?_, fun other => ?_, ?_⟩
  · exact ⟨fun forms' => forms'.tree_unique forms, fun same => same ▸ forms⟩
  · exact ⟨fun forms => forms.tree_unique forms', fun same => same ▸ forms'⟩
  · intro α semantics value
    exact ⟨evaluate_eq_ok_iff_image cut forms, evaluate_eq_ok_iff_image cut' forms'⟩

/-- The tree of `1 - 2 - 3`. -/
def differences : Tree :=
  .binary .sub (.binary .sub (.number "1") (.number "2")) (.number "3")

/-- Parentheses that change nothing are not shown. -/
theorem printed_determines_tree_differences :
    differences.Written ∧ differences.image? printer = some "(- (- 1 2) 3)" ∧
      (evaluate printer "1 - 2 - 3").1 = .ok "(- (- 1 2) 3)" ∧
      (evaluate printer "(1 - 2) - 3").1 = .ok "(- (- 1 2) 3)" ∧
      ∀ (α : Type) (semantics : Semantics α) (value : α),
        ((evaluate semantics "1 - 2 - 3").1 = .ok value ↔
          differences.image? semantics = some value) ∧
        ((evaluate semantics "(1 - 2) - 3").1 = .ok value ↔
          differences.image? semantics = some value) := by
  have number : ∀ {digits : String} {span : Span}, Forms .term [⟨.number digits, span⟩]
      (.number digits) := .term (.number rfl)
  obtain ⟨lexemes, cut, forms⟩ :
      ∃ lexemes, lex "1 - 2 - 3" = .ok lexemes ∧ Forms .expr lexemes differences := by
    refine ⟨[⟨.number "1", ⟨0, 0, 1⟩⟩, ⟨.minus, ⟨0, 2, 3⟩⟩, ⟨.number "2", ⟨0, 4, 5⟩⟩,
      ⟨.minus, ⟨0, 6, 7⟩⟩, ⟨.number "3", ⟨0, 8, 9⟩⟩], ?_, ?_⟩
    · simp [lex, lexFrom, isBlank, sign?, splitNumber, Place.start, Place.along, Place.pastBlank,
        Place.span, Except.map]
    have inner : Forms .expr [⟨.number "1", ⟨0, 0, 1⟩⟩, ⟨.minus, ⟨0, 2, 3⟩⟩,
        ⟨.number "2", ⟨0, 4, 5⟩⟩] _ := .sum (.expr number) rfl number
    exact .sum inner rfl number
  obtain ⟨lexemes', cut', forms'⟩ :
      ∃ lexemes, lex "(1 - 2) - 3" = .ok lexemes ∧ Forms .expr lexemes differences := by
    refine ⟨[⟨.leftParen, ⟨0, 0, 1⟩⟩, ⟨.number "1", ⟨0, 1, 2⟩⟩, ⟨.minus, ⟨0, 3, 4⟩⟩,
      ⟨.number "2", ⟨0, 5, 6⟩⟩, ⟨.rightParen, ⟨0, 6, 7⟩⟩, ⟨.minus, ⟨0, 8, 9⟩⟩,
      ⟨.number "3", ⟨0, 10, 11⟩⟩], ?_, ?_⟩
    · simp [lex, lexFrom, isBlank, sign?, splitNumber, Place.start, Place.along, Place.pastBlank,
        Place.span, Except.map]
    have inner : Forms .expr [⟨.number "1", ⟨0, 1, 2⟩⟩, ⟨.minus, ⟨0, 3, 4⟩⟩,
        ⟨.number "2", ⟨0, 5, 6⟩⟩] _ := .sum (.expr number) rfl number
    have enclosed : Forms .expr (⟨.leftParen, ⟨0, 0, 1⟩⟩ :: ([⟨.number "1", ⟨0, 1, 2⟩⟩,
        ⟨.minus, ⟨0, 3, 4⟩⟩, ⟨.number "2", ⟨0, 5, 6⟩⟩] ++ [⟨.rightParen, ⟨0, 6, 7⟩⟩])) _ :=
      .expr (.term (.parenthesized rfl rfl inner))
    exact .sum enclosed rfl number
  have image : differences.image? printer = some "(- (- 1 2) 3)" := rfl
  have accepted := (evaluate_eq_ok_iff_image cut forms).mpr image
  have accepted' := (evaluate_eq_ok_iff_image cut' forms').mpr image
  have written := written_of_lex cut forms
  obtain ⟨_, _, tree, -, -, written', image', -, -, values⟩ :=
    printed_determines_tree.2 _ _ _ accepted accepted'
  obtain rfl : tree = differences :=
    printed_determines_tree.1 _ _ written' written (image'.trans image.symm)
  exact ⟨written, image, accepted, accepted', values⟩

end Multiparse.Arith
