import Multiparse.Grammar.Basic

/-!
# Derived grammars

Everything here is built from the constructors of `Grammar`. A name that ends in `Greedy` stands
for the form that keeps a single choice where the plain one keeps all of them, and one that ends in
`Shortest` for the form that lists few items before many.
-/

namespace Multiparse.Grammar

variable {N : Names} {τ α β γ δ ε σ : Type}

/-! ## Tokens -/

/-- One token of a kind. -/
def token [Token τ] (kind : Token.Kind τ) : Grammar N τ τ :=
  satisfy (fun token => decide (Token.kind token = kind)) (Token.kindName kind)

/-- One token with this lexeme. -/
def literal [Token τ] (lexeme : String) : Grammar N τ τ :=
  satisfy (fun token => Token.lexeme token == lexeme) ("'" ++ lexeme ++ "'")

/-- Any one token. -/
def anyToken : Grammar N τ τ := satisfy (fun _ => true) "any token"

/-- One token whose lexeme is listed. -/
def lexemeIn [Token τ] (lexemes : List String) (expected : String) : Grammar N τ τ :=
  satisfy (fun token => lexemes.contains (Token.lexeme token)) expected

/-- Nothing at all. -/
def nothing : Grammar N τ (Option α) := succeed none

/-! ## Sequences -/

/-- Grammars one after another. -/
def sequenceOf (ps : List (Grammar N τ α)) : Grammar N τ (List α) := sequence fun i => ps.get i

/-- A grammar and then a fixed other one. A form such as `oneAnd` puts its item on both sides, so
each rule is listed once only: otherwise the list would double with every level of nesting. -/
def pair (p : Grammar N τ α) (q : Grammar N τ β) : Grammar N τ (α × β) :=
  bind p q.references.eraseDups fun left => map (fun right => (left, right)) q

/-- Three grammars in sequence. -/
def triple (p : Grammar N τ α) (q : Grammar N τ β) (r : Grammar N τ γ) : Grammar N τ (α × β × γ) :=
  pair p (pair q r)

/-- Four grammars in sequence. -/
def quadruple (p : Grammar N τ α) (q : Grammar N τ β) (r : Grammar N τ γ) (s : Grammar N τ δ) :
    Grammar N τ (α × β × γ × δ) :=
  pair p (triple q r s)

/-- Five grammars in sequence. -/
def quintuple (p : Grammar N τ α) (q : Grammar N τ β) (r : Grammar N τ γ) (s : Grammar N τ δ)
    (t : Grammar N τ ε) : Grammar N τ (α × β × γ × δ × ε) :=
  pair p (quadruple q r s t)

/-- Two in sequence, of which the first value counts. -/
def keepLeft (p : Grammar N τ α) (q : Grammar N τ β) : Grammar N τ α := map Prod.fst (pair p q)

/-- Two in sequence, of which the second value counts. -/
def keepRight (p : Grammar N τ α) (q : Grammar N τ β) : Grammar N τ β := map Prod.snd (pair p q)

/-- Three in sequence, of which the middle value counts. -/
def between (opening : Grammar N τ α) (p : Grammar N τ β) (closing : Grammar N τ γ) :
    Grammar N τ β :=
  map (fun values => values.2.1) (triple opening p closing)

/-- A grammar and then continuations one after another. -/
def bindEach (p : Grammar N τ α) (held : List N.Rule) (nexts : List (α → Grammar N τ α)) :
    Grammar N τ α :=
  bindAll p held fun i => nexts.get i

/-! ## Choices -/

/-- One of the listed grammars under a policy. -/
def choiceOf (policy : Policy) (ps : List (Grammar N τ α)) : Grammar N τ α :=
  choice policy fun i => ps.get i

/-- The readings of every branch that succeeds. -/
def anyOf (ps : List (Grammar N τ α)) : Grammar N τ α := choiceOf .exhaustive ps

/-- The readings of the first branch that succeeds. -/
def firstOf (ps : List (Grammar N τ α)) : Grammar N τ α := choiceOf .ordered ps

/-- One of two grammars with values of different types. -/
def either (policy : Policy) (p : Grammar N τ α) (q : Grammar N τ β) : Grammar N τ (α ⊕ β) :=
  choiceOf policy [map Sum.inl p, map Sum.inr q]

/-- One of three grammars with values of different types. -/
def either3 (policy : Policy) (p : Grammar N τ α) (q : Grammar N τ β) (r : Grammar N τ γ) :
    Grammar N τ (α ⊕ β ⊕ γ) :=
  either policy p (either policy q r)

/-- One of four grammars with values of different types. -/
def either4 (policy : Policy) (p : Grammar N τ α) (q : Grammar N τ β) (r : Grammar N τ γ)
    (s : Grammar N τ δ) : Grammar N τ (α ⊕ β ⊕ γ ⊕ δ) :=
  either policy p (either3 policy q r s)

/-- One of five grammars with values of different types. -/
def either5 (policy : Policy) (p : Grammar N τ α) (q : Grammar N τ β) (r : Grammar N τ γ)
    (s : Grammar N τ δ) (t : Grammar N τ ε) : Grammar N τ (α ⊕ β ⊕ γ ⊕ δ ⊕ ε) :=
  either policy p (either4 policy q r s t)

/-- A grammar or nothing. An exhaustive choice has both readings where the grammar succeeds, an
ordered one has nothing only where it fails. -/
def optional (policy : Policy) (p : Grammar N τ α) : Grammar N τ (Option α) :=
  choiceOf policy [map some p, nothing]

/-! ## Repetitions -/

/-- Any number of items, most of them first. -/
def many (p : Grammar N τ α) : Grammar N τ (List α) := repeated .longestFirst p

/-- Any number of items, fewest of them first. -/
def manyShortest (p : Grammar N τ α) : Grammar N τ (List α) := repeated .shortestFirst p

/-- As many items as can be. -/
def manyGreedy (p : Grammar N τ α) : Grammar N τ (List α) := repeated .greedy p

/-- Exactly so many items. -/
def exactly (count : Nat) (p : Grammar N τ α) : Grammar N τ (List α) := repeated (.exactly count) p

/-- One item and then more of them. -/
def oneAnd (extent : Extent) (p : Grammar N τ α) : Grammar N τ (List α) :=
  map (fun values => values.1 :: values.2) (pair p (repeated extent p))

/-- The repetition that goes with a policy: all lengths, or only the greatest. -/
def manyUnder : Policy → Grammar N τ α → Grammar N τ (List α)
  | .exhaustive => many
  | .ordered => manyGreedy

/-! ## Separated lists -/

/-- One item or more with separators between them. -/
def listOf (policy : Policy) (p : Grammar N τ α) (separator : Grammar N τ σ) :
    Grammar N τ (List α) :=
  map (fun values => values.1 :: values.2) (pair p (manyUnder policy (keepRight separator p)))

/-- Exactly so many items with separators between them. -/
def listOfExactly (count : Nat) (p : Grammar N τ α) (separator : Grammar N τ σ) :
    Grammar N τ (List α) :=
  match count with
  | 0 => succeed []
  | 1 => map (fun value => [value]) p
  | more + 2 =>
    map (fun values => values.1 :: values.2) (pair p (exactly (more + 1) (keepRight separator p)))

/-- Any number of items with separators between them. -/
def separatedBy (policy : Policy) (p : Grammar N τ α) (separator : Grammar N τ σ) :
    Grammar N τ (List α) :=
  map (fun values => values.getD []) (optional policy (listOf policy p separator))

/-! ## Operators -/

/-- A first value into which the following ones are folded from the left. -/
def foldLeft (policy : Policy) (f : α → β → α) (p : Grammar N τ α) (q : Grammar N τ β) :
    Grammar N τ α :=
  map (fun values => values.2.foldl f values.1) (pair p (manyUnder policy q))

/-- Operands with operators between them, grouped to the left. -/
def chainLeft (policy : Policy) (p : Grammar N τ α) (op : Grammar N τ (α → α → α)) :
    Grammar N τ α :=
  foldLeft policy (fun left step => step.1 left step.2) p (pair op p)

/-- A chain grouped to the left, or a default value. -/
def chainLeftOr (policy : Policy) (default : α) (p : Grammar N τ α)
    (op : Grammar N τ (α → α → α)) : Grammar N τ α :=
  choiceOf policy [chainLeft policy p op, succeed default]

/-- A chain grouped to the right, or a default value. -/
def chainRightOr (policy : Policy) (default : α) (p : Grammar N τ α)
    (op : Grammar N τ (α → α → α)) : Grammar N τ α :=
  choiceOf policy [chainRight policy p op, succeed default]

/-! ## Skipping -/

/-- A grammar or nothing, without its value. -/
def skip (policy : Policy) (p : Grammar N τ α) : Grammar N τ Unit :=
  map (fun _ => ()) (optional policy p)

/-- Any number of items without their values, most of them first. Since nothing at all is one of
the readings of `skip`, the items are asked to be at least one. -/
def skipMany (p : Grammar N τ α) : Grammar N τ Unit := skip .exhaustive (oneAnd .longestFirst p)

/-- Any number of items without their values, fewest of them first. -/
def skipManyShortest (p : Grammar N τ α) : Grammar N τ Unit :=
  anyOf [succeed (), map (fun _ => ()) (oneAnd .shortestFirst p)]

/-- As many items as can be, without their values. -/
def skipManyGreedy (p : Grammar N τ α) : Grammar N τ Unit := skip .ordered (manyGreedy p)

/-- At least one item without its value, most of them first. -/
def skipSome (p : Grammar N τ α) : Grammar N τ Unit := keepRight p (skipMany p)

/-- At least one item without its value, fewest of them first. -/
def skipSomeShortest (p : Grammar N τ α) : Grammar N τ Unit := keepRight p (skipManyShortest p)

/-- At least one item and as many as can be, without their values. -/
def skipSomeGreedy (p : Grammar N τ α) : Grammar N τ Unit := keepRight p (skipManyGreedy p)

/-- A grammar with any number of cuttings around it. -/
def trim (policy : Policy) (p : Grammar N τ α) (cutting : Grammar N τ σ) : Grammar N τ α :=
  between (manyUnder policy cutting) p (manyUnder policy cutting)

end Multiparse.Grammar
