import Multiparse.Arith.Lexeme
import Multiparse.Arith.Semantics

/-!
# Arithmetic phrases

The grammar of arithmetic as an inductive definition of which lexemes are a phrase and what the
syntax tree of the phrase is:

    expr   := term (('+' | '-') term)*
    term   := factor (('*' | '/') factor)*
    factor := NUM | '(' expr ')' | ('+' | '-') factor

A repetition grows at its end, so that operators group to the left.
-/

namespace Multiparse.Arith

/-- The syntax tree of an expression. -/
inductive Tree where
  | number (digits : String)
  | unary (op : Op) (operand : Tree)
  | binary (op : Op) (left right : Tree)
  deriving DecidableEq

/-- What a semantics makes of a tree, part by part; nothing if it does not accept a number. -/
def Tree.image? {α : Type} (semantics : Semantics α) : Tree → Option α
  | number digits => semantics.number digits
  | unary op operand => (operand.image? semantics).map (semantics.unary op)
  | binary op left right =>
    (left.image? semantics).bind fun x => (right.image? semantics).map (semantics.binary op x)

/-- A semantics accepts every number among the lexemes. -/
def Semantics.Accepts {α : Type} (semantics : Semantics α) (lexemes : List Lexeme) : Prop :=
  ∀ lexeme ∈ lexemes, lexeme.shape.kind = .number → (semantics.number lexeme.shape.text).isSome

/-- The lexeme is a number that a semantics does not accept. -/
def Semantics.Rejects {α : Type} (semantics : Semantics α) (lexeme : Lexeme) : Prop :=
  lexeme.shape.kind = .number ∧ semantics.number lexeme.shape.text = none

theorem Shape.exists_digits {shape : Shape} (isNumber : shape.kind = .number) :
    ∃ digits, shape = .number digits := by
  revert isNumber
  cases shape <;> simp [kind]

/-- Only numbers say more than their kind. -/
theorem Shape.eq_of_kind_eq {shape other : Shape} (same : shape.kind = other.kind)
    (noNumber : other.kind ≠ .number) : shape = other := by
  revert same noNumber
  cases shape <;> cases other <;> simp [kind]

/-- The operator of a sign that adds or subtracts. -/
def Kind.additive? : Kind → Option Op
  | plus => some .add
  | minus => some .sub
  | _ => none

/-- The operator of a sign that multiplies or divides. -/
def Kind.multiplicative? : Kind → Option Op
  | star => some .mul
  | slash => some .div
  | _ => none

/-- How tightly the parts of a phrase hold together. -/
inductive Level where
  | factor
  | term
  | expr
  deriving DecidableEq

/-- The lexemes are a phrase of the level, with this syntax tree. -/
inductive Forms : Level → List Lexeme → Tree → Prop where
  | number {lexeme : Lexeme} {digits : String} (written : lexeme.shape = .number digits) :
      Forms .factor [lexeme] (.number digits)
  | parenthesized {opening closing : Lexeme} {lexemes : List Lexeme} {tree : Tree}
      (opens : opening.shape = .leftParen) (closes : closing.shape = .rightParen)
      (inner : Forms .expr lexemes tree) :
      Forms .factor (opening :: (lexemes ++ [closing])) tree
  | signed {sign : Lexeme} {op : Op} {lexemes : List Lexeme} {tree : Tree}
      (signs : sign.shape.kind.additive? = some op) (operand : Forms .factor lexemes tree) :
      Forms .factor (sign :: lexemes) (.unary op tree)
  | term {lexemes : List Lexeme} {tree : Tree} (single : Forms .factor lexemes tree) :
      Forms .term lexemes tree
  | product {sign : Lexeme} {op : Op} {first second : List Lexeme} {left right : Tree}
      (earlier : Forms .term first left) (signs : sign.shape.kind.multiplicative? = some op)
      (last : Forms .factor second right) :
      Forms .term (first ++ sign :: second) (.binary op left right)
  | expr {lexemes : List Lexeme} {tree : Tree} (single : Forms .term lexemes tree) :
      Forms .expr lexemes tree
  | sum {sign : Lexeme} {op : Op} {first second : List Lexeme} {left right : Tree}
      (earlier : Forms .expr first left) (signs : sign.shape.kind.additive? = some op)
      (last : Forms .term second right) :
      Forms .expr (first ++ sign :: second) (.binary op left right)

/-- The lexemes are a sentence of the grammar. -/
def Sentence (lexemes : List Lexeme) : Prop := ∃ tree, Forms .expr lexemes tree

/-- The lexemes can be extended to a sentence. -/
def Viable (lexemes : List Lexeme) : Prop := ∃ rest, Sentence (lexemes ++ rest)

/-- Some lexeme of the kind can follow the lexemes in a sentence. -/
def CanFollow (lexemes : List Lexeme) (kind : Kind) : Prop :=
  ∃ lexeme : Lexeme, lexeme.shape.kind = kind ∧ Viable (lexemes ++ [lexeme])

variable {α : Type} {semantics : Semantics α} {lexemes : List Lexeme}

theorem Semantics.Accepts.subset {others : List Lexeme} (accepts : semantics.Accepts lexemes)
    (within : others ⊆ lexemes) : semantics.Accepts others :=
  fun lexeme member => accepts lexeme (within member)

theorem Semantics.Accepts.append {first second : List Lexeme} (front : semantics.Accepts first)
    (back : semantics.Accepts second) : semantics.Accepts (first ++ second) :=
  List.forall_mem_append.mpr ⟨front, back⟩

theorem Semantics.Accepts.cons {head : Lexeme} {lexemes : List Lexeme}
    (other : head.shape.kind ≠ .number) (back : semantics.Accepts lexemes) :
    semantics.Accepts (head :: lexemes) :=
  List.forall_mem_cons.mpr ⟨fun isNumber => absurd isNumber other, back⟩

theorem Semantics.Rejects.not_accepts {lexeme : Lexeme} (rejects : semantics.Rejects lexeme)
    (member : lexeme ∈ lexemes) : ¬ semantics.Accepts lexemes := by
  intro accepts
  have accepted := accepts lexeme member rejects.1
  rw [rejects.2] at accepted
  cases accepted

/-- A semantics that accepts the numbers of a phrase makes something of its tree. -/
theorem Forms.image?_isSome {level : Level} {tree : Tree} (phrase : Forms level lexemes tree)
    (accepts : semantics.Accepts lexemes) : (tree.image? semantics).isSome := by
  induction phrase with
  | @number lexeme digits written =>
    have accepted := accepts lexeme (List.mem_singleton_self lexeme) (by rw [written]; rfl)
    rwa [written] at accepted
  | parenthesized opens closes inner ih => exact ih (accepts.subset (by simp))
  | signed signs operand ih =>
    rw [Tree.image?, Option.isSome_map]
    exact ih (accepts.subset (by simp))
  | term single ih | expr single ih => exact ih accepts
  | product earlier signs last ihLeft ihRight | sum earlier signs last ihLeft ihRight =>
    obtain ⟨x, left⟩ := Option.isSome_iff_exists.mp (ihLeft (accepts.subset (by simp)))
    obtain ⟨y, right⟩ := Option.isSome_iff_exists.mp (ihRight (accepts.subset (by simp)))
    simp [Tree.image?, left, right]

theorem Kind.ne_number_of_sign {sign? : Kind → Option Op} {kind : Kind} {op : Op}
    (apart : sign? .number = none) (signs : sign? kind = some op) : kind ≠ .number := by
  rintro rfl
  rw [apart] at signs
  cases signs

theorem exists_of_image?_binary {op : Op} {left right : Tree} {value : α}
    (image : (Tree.binary op left right).image? semantics = some value) :
    ∃ x y, left.image? semantics = some x ∧ right.image? semantics = some y ∧
      semantics.binary op x y = value := by
  obtain ⟨x, front, image⟩ := Option.bind_eq_some_iff.mp image
  obtain ⟨y, back, same⟩ := Option.map_eq_some_iff.mp image
  exact ⟨x, y, front, back, same⟩

/-- A semantics that makes something of the tree of a phrase accepts its numbers. -/
theorem Forms.accepts {level : Level} {lexemes : List Lexeme} {tree : Tree} {value : α}
    (phrase : Forms level lexemes tree) (image : tree.image? semantics = some value) :
    semantics.Accepts lexemes := by
  induction phrase generalizing value with
  | number written =>
    intro lexeme member isNumber
    obtain rfl := List.mem_singleton.mp member
    rw [written]
    exact Option.isSome_iff_exists.mpr ⟨value, image⟩
  | @parenthesized opening closing lexemes tree opens closes inner ih =>
    have last : semantics.Accepts [closing] :=
      .cons (by rw [closes]; decide) (List.forall_mem_nil _)
    exact .cons (by rw [opens]; decide) ((ih image).append last)
  | signed signs operand ih =>
    obtain ⟨x, inner, -⟩ := Option.map_eq_some_iff.mp image
    exact .cons (Kind.ne_number_of_sign rfl signs) (ih inner)
  | term single ih | expr single ih => exact ih image
  | product earlier signs last ihLeft ihRight | sum earlier signs last ihLeft ihRight =>
    obtain ⟨x, y, front, back, -⟩ := exists_of_image?_binary image
    exact (ihLeft front).append (.cons (Kind.ne_number_of_sign rfl signs) (ihRight back))

end Multiparse.Arith
