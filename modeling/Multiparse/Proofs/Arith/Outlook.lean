import Multiparse.Proofs.Arith.Phrase

/-!
# What can come next in a phrase

A reader of a phrase waits for an operand or for an operator, inside some number of parentheses;
that alone decides which kinds of lexeme can come next. Reading a phrase from its beginning ends in
front of an operator, in as many parentheses as before (`Forms.pass_eq`). Since an operator of an
inner level never continues a finished phrase of that level, a phrase has only one syntax tree
(`Forms.tree_unique`).
-/

namespace Multiparse.Arith

/-- What a reader waits for, inside so many parentheses. -/
inductive Outlook where
  | operand (depth : Nat)
  | operator (depth : Nat)
  deriving DecidableEq

/-- The signs that join the parts of a phrase of the level. -/
def Level.operators : Level → List Kind
  | factor => []
  | term => [.star, .slash]
  | expr => [.star, .slash, .plus, .minus]

namespace Outlook

/-- The kinds that can come next in a phrase of the level. -/
def wanted (level : Level) : Outlook → List Kind
  | operand _ => [.number, .leftParen, .plus, .minus]
  | operator 0 => level.operators
  | operator (_ + 1) => Level.expr.operators ++ [.rightParen]

/-- What is waited for after a lexeme that can come next. -/
def after : Outlook → Kind → Outlook
  | operand depth, .number => operator depth
  | operand depth, .leftParen => operand (depth + 1)
  | operand depth, _ => operand depth
  | operator depth, .rightParen => operator (depth - 1)
  | operator depth, _ => operand depth

/-- What is waited for after the lexemes, unless one of them could not come next. -/
def pass (level : Level) : Outlook → List Lexeme → Option Outlook
  | outlook, [] => some outlook
  | outlook, lexeme :: rest =>
    if lexeme.shape.kind ∈ outlook.wanted level then
      pass level (outlook.after lexeme.shape.kind) rest
    else none

/-- The same wait inside one more pair of parentheses. -/
def deeper : Outlook → Outlook
  | operand depth => operand (depth + 1)
  | operator depth => operator (depth + 1)

variable {level outer : Level} {outlook : Outlook}

@[simp] theorem pass_nil : pass level outlook [] = some outlook := rfl

theorem pass_cons {lexeme : Lexeme} (comes : lexeme.shape.kind ∈ outlook.wanted level)
    (rest : List Lexeme) :
    pass level outlook (lexeme :: rest) =
      pass level (outlook.after lexeme.shape.kind) rest := by
  rw [pass, if_pos comes]

theorem pass_cons_eq_none {lexeme : Lexeme} (refused : lexeme.shape.kind ∉ outlook.wanted level)
    (rest : List Lexeme) : pass level outlook (lexeme :: rest) = none := by
  rw [pass, if_neg refused]

theorem comes_of_pass_cons {lexeme : Lexeme} {rest : List Lexeme} {next : Outlook}
    (passes : pass level outlook (lexeme :: rest) = some next) :
    lexeme.shape.kind ∈ outlook.wanted level ∧
      pass level (outlook.after lexeme.shape.kind) rest = some next := by
  by_cases comes : lexeme.shape.kind ∈ outlook.wanted level
  · rw [pass_cons comes] at passes
    exact ⟨comes, passes⟩
  · rw [pass_cons_eq_none comes] at passes
    cases passes

theorem pass_append (first second : List Lexeme) :
    pass level outlook (first ++ second) =
      (pass level outlook first).bind fun next => pass level next second := by
  induction first generalizing outlook with
  | nil => rfl
  | cons lexeme first ih =>
    rw [List.cons_append, pass, pass]
    split
    · exact ih
    · rfl

/-- The level decides how far a reader gets, but not what it waits for on the way. -/
theorem pass_agrees {lexemes : List Lexeme} {next next' : Outlook}
    (passes : pass level outlook lexemes = some next)
    (passes' : pass outer outlook lexemes = some next') : next = next' := by
  induction lexemes generalizing outlook with
  | nil => exact Option.some.inj (passes.symm.trans passes')
  | cons lexeme rest ih =>
    exact ih (comes_of_pass_cons passes).2 (comes_of_pass_cons passes').2

theorem wanted_subset (operators : level.operators ⊆ outer.operators) :
    outlook.wanted level ⊆ outlook.wanted outer := by
  cases outlook with
  | operand depth => exact List.Subset.refl _
  | operator depth =>
    cases depth with
    | zero => exact operators
    | succ depth => exact List.Subset.refl _

/-- A reader gets at least as far where more operators join. -/
theorem pass_of_subset (operators : level.operators ⊆ outer.operators) {lexemes : List Lexeme}
    {next : Outlook} (passes : pass level outlook lexemes = some next) :
    pass outer outlook lexemes = some next := by
  induction lexemes generalizing outlook with
  | nil => exact passes
  | cons lexeme rest ih =>
    obtain ⟨comes, later⟩ := comes_of_pass_cons passes
    rw [pass_cons (wanted_subset operators comes), ih later]

/-- Only in front of an operator outside all parentheses does the level matter. -/
theorem wanted_eq_of_ne (inside : outlook ≠ .operator 0) :
    outlook.wanted level = outlook.wanted outer := by
  cases outlook with
  | operand depth => rfl
  | operator depth =>
    cases depth with
    | zero => exact absurd rfl inside
    | succ depth => rfl

theorem wanted_deeper : outlook.wanted .expr ⊆ outlook.deeper.wanted outer := by
  cases outlook with
  | operand depth => exact List.Subset.refl _
  | operator depth =>
    cases depth with
    | zero => exact List.subset_append_left _ _
    | succ depth => exact List.Subset.refl _

theorem wanted_deeper_eq (inside : outlook ≠ .operator 0) :
    outlook.deeper.wanted outer = outlook.wanted .expr := by
  cases outlook with
  | operand depth => rfl
  | operator depth =>
    cases depth with
    | zero => exact absurd rfl inside
    | succ depth => rfl

theorem deeper_ne_operator_zero : outlook.deeper ≠ .operator 0 := by
  cases outlook <;> simp [deeper]

theorem after_deeper {kind : Kind} (comes : kind ∈ outlook.wanted .expr) :
    outlook.deeper.after kind = (outlook.after kind).deeper := by
  cases outlook with
  | operand depth => cases kind <;> rfl
  | operator depth =>
    cases depth with
    | zero =>
      cases kind with
      | rightParen => exact absurd comes (by decide)
      | _ => rfl
    | succ depth => cases kind <;> rfl

/-- An expression is read inside parentheses as it is outside. -/
theorem pass_deeper {lexemes : List Lexeme} {next : Outlook}
    (passes : pass .expr outlook lexemes = some next) :
    pass outer outlook.deeper lexemes = some next.deeper := by
  induction lexemes generalizing outlook with
  | nil =>
    cases passes
    rfl
  | cons lexeme rest ih =>
    obtain ⟨comes, later⟩ := comes_of_pass_cons passes
    rw [pass_cons (wanted_deeper comes), after_deeper comes, ih later]

end Outlook

open Outlook

/-! ## Reading a phrase -/

theorem after_additive {kind : Kind} {op : Op} (signs : kind.additive? = some op) (depth : Nat) :
    (Outlook.operand depth).after kind = .operand depth ∧
      (Outlook.operator depth).after kind = .operand depth := by
  cases kind <;> cases signs <;> exact ⟨rfl, rfl⟩

theorem additive_mem {kind : Kind} {op : Op} (signs : kind.additive? = some op) :
    kind ∈ Level.expr.operators ∧ kind ∉ Level.term.operators := by
  cases kind <;> cases signs <;> decide

theorem multiplicative_mem {kind : Kind} {op : Op} (signs : kind.multiplicative? = some op) :
    kind ∈ Level.term.operators ∧ kind ∉ Level.factor.operators := by
  cases kind <;> cases signs <;> decide

theorem after_operator {kind : Kind} (joins : kind ∈ Level.expr.operators) (depth : Nat) :
    (Outlook.operator depth).after kind = .operand depth := by
  cases kind with
  | rightParen => exact absurd joins (by decide)
  | _ => rfl

theorem operators_subset_expr (level : Level) : level.operators ⊆ Level.expr.operators := by
  cases level <;> simp [Level.operators]

/-- An operator of the level can come next wherever an operator is waited for. -/
theorem mem_wanted_operator {level : Level} {kind : Kind} {depth : Nat}
    (joins : kind ∈ Level.expr.operators) (outside : depth = 0 → kind ∈ level.operators) :
    kind ∈ (Outlook.operator depth).wanted level := by
  cases depth with
  | zero => exact outside rfl
  | succ depth => exact List.mem_append_left _ joins

namespace Forms

variable {level lower outer : Level} {lexemes : List Lexeme} {tree tree' : Tree}

/-- A phrase leads from an operand to the operator after it, inside the same parentheses. -/
theorem pass_eq (phrase : Forms level lexemes tree) (depth : Nat)
    (within : depth = 0 → level.operators ⊆ outer.operators) :
    pass outer (.operand depth) lexemes = some (.operator depth) := by
  induction phrase generalizing outer depth with
  | @number lexeme digits written =>
    have kind : lexeme.shape.kind = .number := by rw [written]; rfl
    rw [pass_cons (by rw [kind]; exact List.mem_cons_self), kind]
    rfl
  | @parenthesized opening closing lexemes tree opens closes inner ih =>
    have opened : opening.shape.kind = .leftParen := by rw [opens]; rfl
    have closed : closing.shape.kind = .rightParen := by rw [closes]; rfl
    rw [pass_cons (by rw [opened]; simp [wanted]), opened]
    rw [pass_append, after, ih (depth + 1) (by simp), Option.bind_some]
    rw [pass_cons (by rw [closed]; simp [wanted]), closed]
    rfl
  | @signed sign op lexemes tree signs operand ih =>
    have comes : sign.shape.kind ∈ (Outlook.operand depth).wanted outer := by
      revert signs
      cases sign.shape.kind <;> simp [Kind.additive?, wanted]
    rw [pass_cons comes, (after_additive signs depth).1, ih depth (by simp [Level.operators])]
  | term single ih => exact ih depth (by simp [Level.operators])
  | expr single ih =>
    refine ih depth fun outside => List.Subset.trans ?_ (within outside)
    exact operators_subset_expr .term
  | @product sign op first second left right earlier signs last ihLeft ihRight =>
    have joins := multiplicative_mem signs
    have joined := operators_subset_expr .term joins.1
    rw [pass_append, ihLeft depth within, Option.bind_some,
      pass_cons (mem_wanted_operator joined fun outside => within outside joins.1),
      after_operator joined, ihRight depth (by simp [Level.operators])]
  | @sum sign op first second left right earlier signs last ihLeft ihRight =>
    have joins := (additive_mem signs).1
    rw [pass_append, ihLeft depth within, Option.bind_some,
      pass_cons (mem_wanted_operator joins fun outside => within outside joins),
      after_operator joins]
    exact ihRight depth fun outside =>
      List.Subset.trans (operators_subset_expr .term) (within outside)

/-- A phrase is read to its end at its own level. -/
theorem pass_self (phrase : Forms level lexemes tree) :
    pass level (.operand 0) lexemes = some (.operator 0) :=
  phrase.pass_eq 0 fun _ => List.Subset.refl _

theorem ne_nil (phrase : Forms level lexemes tree) : lexemes ≠ [] := by
  rintro rfl
  cases phrase.pass_self

/-- What continues a finished part of a phrase is one of the level's operators. -/
theorem mem_operators {first rest : List Lexeme} {sign : Lexeme}
    (phrase : Forms level (first ++ sign :: rest) tree)
    (finished : pass outer (.operand 0) first = some (.operator 0)) :
    sign.shape.kind ∈ level.operators := by
  have passes := phrase.pass_self
  rw [pass_append] at passes
  obtain ⟨next, reached, continues⟩ := Option.bind_eq_some_iff.mp passes
  obtain rfl := pass_agrees reached finished
  exact (comes_of_pass_cons continues).1

/-- Behind a part that was finished already, the last operand is finished too. -/
theorem pass_last {first second : List Lexeme} {sign : Lexeme} {left : Tree}
    (earlier : Forms level first left) (joins : sign.shape.kind ∈ Level.expr.operators)
    (phrase : Forms level (first ++ sign :: second) tree) :
    pass level (.operand 0) second = some (.operator 0) := by
  have passes := phrase.pass_self
  rw [pass_append, earlier.pass_self, Option.bind_some] at passes
  have later := (comes_of_pass_cons passes).2
  rwa [after_operator joins] at later

/-- The last operator outside all parentheses is where it is: no split lies further right. -/
theorem split_extra {first first' second second' extra : List Lexeme} {sign sign' : Lexeme}
    {left left' right : Tree} (earlier : Forms level first left)
    (earlier' : Forms level first' left') (last : Forms lower second right)
    (joins : sign.shape.kind ∈ Level.expr.operators)
    (outside : sign'.shape.kind ∉ lower.operators) (further : first' = first ++ extra)
    (same : sign :: second = extra ++ sign' :: second') : extra = [] := by
  cases extra with
  | nil => rfl
  | cons head extra =>
    obtain ⟨rfl, rfl⟩ := List.cons_eq_cons.mp same
    -- Were it further right, the last operand would go on behind an operator outside its level.
    have finished := earlier.pass_last joins (further ▸ earlier')
    exact absurd (last.mem_operators finished) outside

/-- Two splits of one phrase at its last operator are the same. -/
theorem split_unique {first first' second second' : List Lexeme} {sign sign' : Lexeme}
    {left left' right right' : Tree} (earlier : Forms level first left)
    (earlier' : Forms level first' left') (last : Forms lower second right)
    (last' : Forms lower second' right') (joins : sign.shape.kind ∈ Level.expr.operators)
    (joins' : sign'.shape.kind ∈ Level.expr.operators)
    (outside : sign.shape.kind ∉ lower.operators) (outside' : sign'.shape.kind ∉ lower.operators)
    (same : first ++ sign :: second = first' ++ sign' :: second') :
    first = first' ∧ sign = sign' ∧ second = second' := by
  rcases List.append_eq_append_iff.mp same with ⟨extra, further, rest⟩ | ⟨extra, further, rest⟩
  · obtain rfl := split_extra earlier earlier' last joins outside' further rest
    obtain ⟨rfl, rfl⟩ := List.cons_eq_cons.mp rest
    exact ⟨by simpa using further.symm, rfl, rfl⟩
  · obtain rfl := split_extra earlier' earlier last' joins' outside further rest
    obtain ⟨rfl, rfl⟩ := List.cons_eq_cons.mp rest
    exact ⟨by simpa using further, rfl, rfl⟩

/-- **A phrase has one syntax tree.** -/
theorem tree_unique (phrase : Forms level lexemes tree) (other : Forms level lexemes tree') :
    tree = tree' := by
  induction phrase generalizing tree' with
  | @number lexeme digits written =>
    generalize whole : [lexeme] = all at other
    cases other with
    | number written' =>
      obtain ⟨rfl, -⟩ := List.cons_eq_cons.mp whole
      rw [written] at written'
      cases written'
      rfl
    | parenthesized opens closes inner =>
      obtain ⟨rfl, -⟩ := List.cons_eq_cons.mp whole
      cases written.symm.trans opens
    | signed signs operand =>
      obtain ⟨rfl, -⟩ := List.cons_eq_cons.mp whole
      rw [written] at signs
      cases signs
  | @parenthesized opening closing lexemes tree opens closes inner ih =>
    generalize whole : opening :: (lexemes ++ [closing]) = all at other
    cases other with
    | number written =>
      obtain ⟨rfl, -⟩ := List.cons_eq_cons.mp whole
      cases opens.symm.trans written
    | parenthesized opens' closes' inner' =>
      obtain ⟨-, body⟩ := List.cons_eq_cons.mp whole
      obtain ⟨rfl, -⟩ := List.append_inj' body rfl
      exact ih inner'
    | signed signs operand =>
      obtain ⟨rfl, -⟩ := List.cons_eq_cons.mp whole
      rw [opens] at signs
      cases signs
  | @signed sign op lexemes tree signs operand ih =>
    generalize whole : sign :: lexemes = all at other
    cases other with
    | number written =>
      obtain ⟨rfl, -⟩ := List.cons_eq_cons.mp whole
      rw [written] at signs
      cases signs
    | parenthesized opens' closes' inner' =>
      obtain ⟨rfl, -⟩ := List.cons_eq_cons.mp whole
      rw [opens'] at signs
      cases signs
    | signed signs' operand' =>
      obtain ⟨rfl, rfl⟩ := List.cons_eq_cons.mp whole
      rw [signs] at signs'
      cases signs'
      rw [ih operand']
  | term single ih =>
    cases other with
    | term single' => exact ih single'
    | product earlier signs last =>
      exact absurd (single.mem_operators earlier.pass_self) (multiplicative_mem signs).2
  | @product sign op first second left right earlier signs last ihLeft ihRight =>
    generalize whole : first ++ sign :: second = all at other
    have joins := multiplicative_mem signs
    cases other with
    | term single =>
      exact absurd ((whole ▸ single).mem_operators earlier.pass_self) joins.2
    | product earlier' signs' last' =>
      have joins' := multiplicative_mem signs'
      obtain ⟨rfl, rfl, rfl⟩ := split_unique earlier earlier' last last'
        (operators_subset_expr .term joins.1) (operators_subset_expr .term joins'.1)
        joins.2 joins'.2 whole
      rw [signs] at signs'
      cases signs'
      rw [ihLeft earlier', ihRight last']
  | expr single ih =>
    cases other with
    | expr single' => exact ih single'
    | sum earlier signs last =>
      exact absurd (single.mem_operators earlier.pass_self) (additive_mem signs).2
  | @sum sign op first second left right earlier signs last ihLeft ihRight =>
    generalize whole : first ++ sign :: second = all at other
    have joins := additive_mem signs
    cases other with
    | expr single =>
      exact absurd ((whole ▸ single).mem_operators earlier.pass_self) joins.2
    | sum earlier' signs' last' =>
      have joins' := additive_mem signs'
      obtain ⟨rfl, rfl, rfl⟩ := split_unique earlier earlier' last last'
        joins.1 joins'.1 joins.2 joins'.2 whole
      rw [signs] at signs'
      cases signs'
      rw [ihLeft earlier', ihRight last']

end Forms

end Multiparse.Arith
