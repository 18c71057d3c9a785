import Multiparse.Grammar.Derived

/-!
# What grammars stand for

A form is interpreted by the parser it is named after. Interpreting a grammar built from a list
interprets its parts one by one, and the derived forms stand for the parsers one expects.
-/

namespace Multiparse.Grammar

variable {N : Names} {τ α β : Type} {m : Type → Type} [Monad m] [Aborts m] [Defers m]
  [Observes N.Tracer m] [Token τ] (call : (rule : N.Rule) → Parser m τ (N.Result rule))

/-! ## Forms -/

@[simp] theorem interpret_satisfy (accepts : τ → Bool) (expected : String) :
    (satisfy accepts expected : Grammar N τ τ).interpret call
      = Parser.satisfy accepts expected := rfl

@[simp] theorem interpret_succeed (value : α) :
    (succeed value : Grammar N τ α).interpret call = Parser.succeed value := rfl

@[simp] theorem interpret_map (f : α → β) (p : Grammar N τ α) :
    (map f p).interpret call = Parser.map f (p.interpret call) := rfl

@[simp] theorem interpret_sequence {count : Nat} (ps : Fin count → Grammar N τ α) :
    (sequence ps).interpret call
      = Parser.sequence (List.ofFn fun i => (ps i).interpret call) := rfl

@[simp] theorem interpret_bind (p : Grammar N τ α) (held : List N.Rule)
    (next : α → Grammar N τ β) :
    (bind p held next).interpret call
      = Parser.bind (p.interpret call) fun value => (next value).interpret call := rfl

@[simp] theorem interpret_bindAll (p : Grammar N τ α) (held : List N.Rule) {count : Nat}
    (nexts : Fin count → α → Grammar N τ α) :
    (bindAll p held nexts).interpret call
      = Parser.bindAll (p.interpret call)
          (List.ofFn fun i value => (nexts i value).interpret call) := rfl

@[simp] theorem interpret_choice (policy : Policy) {count : Nat}
    (ps : Fin count → Grammar N τ α) :
    (choice policy ps).interpret call
      = Parser.choice policy (List.ofFn fun i => (ps i).interpret call) := rfl

@[simp] theorem interpret_first (p : Grammar N τ α) :
    (first p).interpret call = Parser.first (p.interpret call) := rfl

@[simp] theorem interpret_repeated (extent : Extent) (p : Grammar N τ α) :
    (repeated extent p).interpret call = Parser.repeated extent (p.interpret call) := rfl

@[simp] theorem interpret_chainRight (policy : Policy) (p : Grammar N τ α)
    (op : Grammar N τ (α → α → α)) :
    (chainRight policy p op).interpret call
      = Parser.chainRight policy (p.interpret call) (op.interpret call) := rfl

/-! ## Derived forms -/

/-- Going through the positions of a list visits its members in order. -/
theorem ofFn_get {A B : Type _} (items : List A) (f : A → B) :
    (List.ofFn fun i => f (items.get i)) = items.map f := by
  apply List.ext_getElem
  · simp
  · intro i inLeft inRight
    simp

@[simp] theorem interpret_sequenceOf (ps : List (Grammar N τ α)) :
    (sequenceOf ps).interpret call = Parser.sequence (ps.map fun p => p.interpret call) := by
  rw [← ofFn_get]
  rfl

@[simp] theorem interpret_choiceOf (policy : Policy) (ps : List (Grammar N τ α)) :
    (choiceOf policy ps).interpret call
      = Parser.choice policy (ps.map fun p => p.interpret call) := by
  rw [← ofFn_get]
  rfl

@[simp] theorem interpret_bindEach (p : Grammar N τ α) (held : List N.Rule)
    (nexts : List (α → Grammar N τ α)) :
    (bindEach p held nexts).interpret call
      = Parser.bindAll (p.interpret call)
          (nexts.map fun next value => (next value).interpret call) := by
  rw [← ofFn_get]
  rfl

@[simp] theorem interpret_pair (p : Grammar N τ α) (q : Grammar N τ β) :
    (pair p q).interpret call
      = Parser.bind (p.interpret call)
          fun left => Parser.map (fun right => (left, right)) (q.interpret call) := rfl

@[simp] theorem interpret_anyOf (ps : List (Grammar N τ α)) :
    (anyOf ps).interpret call = Parser.anyOf (ps.map fun p => p.interpret call) :=
  interpret_choiceOf call .exhaustive ps

@[simp] theorem interpret_firstOf (ps : List (Grammar N τ α)) :
    (firstOf ps).interpret call = Parser.firstOf (ps.map fun p => p.interpret call) :=
  interpret_choiceOf call .ordered ps

end Multiparse.Grammar
