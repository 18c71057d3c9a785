import Mathlib.Data.List.Chain
import Multiparse.Proofs.Arith.Scanning

/-!
# Cutting undoes rendering

Lexemes are rendered in order, with spaces in front of each and behind the last one. Between two
numbers there has to be a space; then no number goes on over its end, so each lexeme is the longest
one at its place, and whoever scans by the longest match finds just these lexemes
(`cut_rendered`).
-/

namespace Multiparse.Arith

/-- A lexeme of the shape with so many spaces in front of it. -/
structure Spaced where
  gap : Nat
  shape : Shape

/-- The spaces and the text behind them. -/
def Spaced.characters (item : Spaced) : List Char :=
  List.replicate item.gap ' ' ++ item.shape.text.toList

/-- The lexemes in order, and some spaces behind them. -/
def rendered (items : List Spaced) (trailing : Nat) : List Char :=
  items.flatMap Spaced.characters ++ List.replicate trailing ' '

/-- Two numbers have a space between them. -/
def Parted (first second : Spaced) : Prop :=
  first.shape.kind = .number → second.shape.kind = .number → 0 < second.gap

variable {items : List Spaced} {trailing : Nat}

theorem rendered_cons (item : Spaced) (items : List Spaced) (trailing : Nat) :
    rendered (item :: items) trailing =
      List.replicate item.gap ' ' ++ (item.shape.text.toList ++ rendered items trailing) := by
  simp [rendered, Spaced.characters]

theorem detached_spaces {count : Nat} {text : List Char} (positive : 0 < count) :
    Detached (List.replicate count ' ' ++ text) := by
  obtain ⟨fewer, rfl⟩ := Nat.exists_eq_add_one.mpr positive
  exact detached_cons rfl

/-- Behind a number another lexeme is a sign or has a space in front. -/
theorem detached_rendered {item : Spaced} (isNumber : item.shape.kind = .number)
    (proper : ∀ next ∈ items, next.shape.Proper) (parted : (item :: items).IsChain Parted) :
    Detached (rendered items trailing) := by
  cases items with
  | nil =>
    cases trailing with
    | zero => rfl
    | succ trailing => exact detached_cons rfl
  | cons next items =>
    rw [rendered_cons]
    rcases Nat.eq_zero_or_pos next.gap with touching | positive
    · obtain ⟨c, others, written, first⟩ := (proper next List.mem_cons_self).head
      rw [touching, written]
      rcases first with ⟨-, isNumber'⟩ | ⟨isSign, -⟩
      · have apart := (List.isChain_cons_cons.mp parted).1 isNumber isNumber'
        rw [touching] at apart
        exact absurd apart (Nat.lt_irrefl 0)
      · exact detached_cons (isNumeric_of_sign? isSign)
    · exact detached_spaces positive

/-- A lexeme is the longest one at its place if it is a sign, or a number that does not go on. -/
theorem Shape.Proper.leads {shape : Shape} {rest : List Char} (proper : shape.Proper)
    (detached : shape.kind = .number → Detached rest) :
    shape.Leads (shape.text.toList ++ rest) := by
  obtain ⟨c, others, written, ⟨-, isNumber⟩ | ⟨isSign, rfl⟩⟩ := proper.head
  · obtain ⟨digits, rfl⟩ := Shape.exists_digits isNumber
    have leads := leads_of_detached proper (detached rfl)
    rwa [String.ofList_toList] at leads
  · rw [written]
    exact leads_of_sign? isSign

theorem rendered_scanned {blank : Char → Bool} (blanks : Blanks blank)
    (proper : ∀ item ∈ items, item.shape.Proper) (parted : items.IsChain Parted) :
    Scanned blank (rendered items trailing) (some (items.map Spaced.shape)) := by
  induction items with
  | nil =>
    have spaces := Scanned.spaces blanks trailing .nil
    rwa [List.append_nil] at spaces
  | cons item items ih =>
    obtain ⟨own, others⟩ := List.forall_mem_cons.mp proper
    rw [rendered_cons]
    apply Scanned.spaces blanks
    have leads : item.shape.Leads (item.shape.text.toList ++ rendered items trailing) :=
      own.leads fun isNumber => detached_rendered isNumber others parted
    exact .lexeme leads rfl (ih others parted.tail)

theorem Scans.undoes {ε : Type} {blank : Char → Bool} {cut : String → Except ε (List Lexeme)}
    (scans : Scans blank cut) (blanks : Blanks blank) (proper : ∀ item ∈ items, item.shape.Proper)
    (parted : items.IsChain Parted) :
    ∃ lexemes, cut (String.ofList (rendered items trailing)) = .ok lexemes ∧
      lexemes.map Lexeme.shape = items.map Spaced.shape := by
  have scanned := scans (String.ofList (rendered items trailing))
  rw [String.toList_ofList] at scanned
  have found := scanned.unique blanks (rendered_scanned blanks proper parted)
  cases ran : cut (String.ofList (rendered items trailing)) with
  | error reason =>
    rw [ran] at found
    cases found
  | ok lexemes =>
    rw [ran] at found
    exact ⟨lexemes, rfl, Option.some.inj found⟩

/-- **Cutting undoes rendering.** Take lexemes whose numbers are digits, or digits with a point and
more digits behind it, and write them in order with any number of spaces in front of each and behind
the last one, with a space at least between two numbers. Whoever scans the text from left to right,
skipping blanks, taking the longest lexeme at each place and ending with an error where there is
none, returns lexemes of the same shapes, and so of the same kinds and with the same texts, in the
same order. Cutting a source is such a scan. -/
theorem cut_rendered :
    (∀ (ε : Type) (blank : Char → Bool) (cut : String → Except ε (List Lexeme)), Blanks blank →
      Scans blank cut → ∀ (items : List Spaced) (trailing : Nat),
        (∀ item ∈ items, item.shape.Proper) → items.IsChain Parted →
        ∃ lexemes, cut (String.ofList (rendered items trailing)) = .ok lexemes ∧
          lexemes.map Lexeme.shape = items.map Spaced.shape) ∧
    Blanks isBlank ∧ Scans isBlank lex ∧
    ∀ (items : List Spaced) (trailing : Nat),
      (∀ item ∈ items, item.shape.Proper) → items.IsChain Parted →
      ∃ lexemes, lex (String.ofList (rendered items trailing)) = .ok lexemes ∧
        lexemes.map Lexeme.shape = items.map Spaced.shape := by
  refine ⟨?_, isBlank_blanks, lex_scans, ?_⟩
  · intro ε blank cut blanks scans items trailing proper parted
    exact scans.undoes blanks proper parted
  · intro items trailing proper parted
    exact lex_scans.undoes isBlank_blanks proper parted

/-- The lexemes of `12 + (3.5* 4) `, with their spaces. -/
def spacedProduct : List Spaced :=
  [⟨0, .number "12"⟩, ⟨1, .plus⟩, ⟨1, .leftParen⟩, ⟨0, .number "3.5"⟩, ⟨0, .star⟩,
    ⟨1, .number "4"⟩, ⟨0, .rightParen⟩]

theorem cut_rendered_product :
    (∀ item ∈ spacedProduct, item.shape.Proper) ∧ spacedProduct.IsChain Parted ∧
    Blanks isBlank ∧ Scans isBlank lex ∧
    String.ofList (rendered spacedProduct 1) = "12 + (3.5* 4) " ∧
    ∃ lexemes, lex "12 + (3.5* 4) " = .ok lexemes ∧
      lexemes.map Lexeme.shape = [.number "12", .plus, .leftParen, .number "3.5", .star,
        .number "4", .rightParen] := by
  have proper : ∀ item ∈ spacedProduct, item.shape.Proper := by
    have digits : ∀ {text : List Char}, text ≠ [] → text.all Char.isDigit = true → Digits text :=
      fun nonempty all => ⟨nonempty, List.all_eq_true.mp all⟩
    have fractional : IsNumber "3.5".toList :=
      .inr ⟨['3'], ['5'], digits (by decide) (by decide), digits (by decide) (by decide), rfl⟩
    simp only [spacedProduct, List.forall_mem_cons]
    exact ⟨.inl (digits (by decide) (by decide)), trivial, trivial, fractional, trivial,
      .inl (digits (by decide) (by decide)), trivial, List.forall_mem_nil _⟩
  have parted : spacedProduct.IsChain Parted := by
    simp [spacedProduct, Parted, Shape.kind]
  have written : String.ofList (rendered spacedProduct 1) = "12 + (3.5* 4) " := by decide
  have undone := cut_rendered.1 Unreadable isBlank lex isBlank_blanks lex_scans spacedProduct 1
    proper parted
  rw [written] at undone
  exact ⟨proper, parted, isBlank_blanks, lex_scans, written, undone⟩

end Multiparse.Arith
