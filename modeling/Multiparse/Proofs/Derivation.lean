import Multiparse.Proofs.Fragment

/-!
# What a grammar derives

The meaning of the grammars that explore every choice, without any mention of how they are run: a
grammar derives a value and a rest from an input. A sequence derives its parts one after another, a
choice derives what one of its branches derives, a repetition derives any number of items that each
consume something, and a rule derives what its pattern does. Lists, options and chains are put
together from these forms, so they derive what their definitions say.
-/

namespace Multiparse

/-- The repetition may end before another item. -/
def Extent.MayEnd : Extent → Prop
  | shortestFirst | longestFirst => True
  | greedy => False
  | exactly count => count = 0

/-- What is still to be repeated after an item. -/
def Extent.afterItem : Extent → Option Extent
  | shortestFirst => some shortestFirst
  | longestFirst => some longestFirst
  | greedy => none
  | exactly 0 => none
  | exactly (count + 1) => some (exactly count)

/-- The form keeps every choice. -/
def Form.Explores : Form → Prop
  | satisfy | succeed | fail | endOfInput | map | sequence | bind | bindAll => True
  | deferred | rule => True
  | choice policy | chainRight policy => policy = .exhaustive
  | repeated extent => extent ≠ .greedy
  | _ => False

variable {N : Names} {τ α : Type}

/-- From the input the grammar derives a value, and the rest is left. -/
inductive Derives (rules : Rules N τ) :
    {α : Type} → Grammar N τ α → Residual τ → α → Residual τ → Prop where
  | satisfy {accepts : τ → Bool} {expected : String} {token : τ} {tokens : List τ} {offset : Nat}
      (accepted : accepts token = true) :
      Derives rules (.satisfy accepts expected) ⟨token :: tokens, offset⟩ token ⟨tokens, offset + 1⟩
  | succeed {α : Type} {value : α} {input : Residual τ} :
      Derives rules (.succeed value) input value input
  | endOfInput {offset : Nat} : Derives rules .endOfInput ⟨[], offset⟩ () ⟨[], offset⟩
  | map {α β : Type} {f : α → β} {p : Grammar N τ α} {input rest : Residual τ} {value : α}
      (part : Derives rules p input value rest) : Derives rules (.map f p) input (f value) rest
  | sequenceNil {α : Type} {ps : Fin 0 → Grammar N τ α} {input : Residual τ} :
      Derives rules (.sequence ps) input [] input
  | sequenceCons {α : Type} {count : Nat} {ps : Fin (count + 1) → Grammar N τ α}
      {input middle rest : Residual τ} {value : α} {values : List α}
      (first : Derives rules (ps 0) input value middle)
      (others : Derives rules (.sequence fun i => ps i.succ) middle values rest) :
      Derives rules (.sequence ps) input (value :: values) rest
  | bind {α β : Type} {p : Grammar N τ α} {held : List N.Rule} {next : α → Grammar N τ β}
      {input middle rest : Residual τ} {value : α} {result : β}
      (first : Derives rules p input value middle)
      (second : Derives rules (next value) middle result rest) :
      Derives rules (.bind p held next) input result rest
  | bindNone {α : Type} {p : Grammar N τ α} {held : List N.Rule} {nexts : Fin 0 → α → Grammar N τ α}
      {input rest : Residual τ} {value : α} (first : Derives rules p input value rest) :
      Derives rules (.bindAll p held nexts) input value rest
  | bindMore {α : Type} {p : Grammar N τ α} {held : List N.Rule} {count : Nat}
      {nexts : Fin (count + 1) → α → Grammar N τ α} {input rest : Residual τ} {value : α}
      (all : Derives rules (.bindAll (.bind p held (nexts 0)) held fun i => nexts i.succ) input
        value rest) :
      Derives rules (.bindAll p held nexts) input value rest
  | choice {α : Type} {count : Nat} {ps : Fin count → Grammar N τ α} {input rest : Residual τ}
      {value : α} (i : Fin count) (branch : Derives rules (ps i) input value rest) :
      Derives rules (.choice .exhaustive ps) input value rest
  | repeatedNil {α : Type} {extent : Extent} {p : Grammar N τ α} {input : Residual τ}
      (ends : extent.MayEnd) : Derives rules (.repeated extent p) input [] input
  | repeatedCons {α : Type} {extent extent' : Extent} {p : Grammar N τ α}
      {input middle rest : Residual τ} {value : α} {values : List α}
      (goesOn : extent.afterItem = some extent') (item : Derives rules p input value middle)
      (consumes : input.offset < middle.offset)
      (items : Derives rules (.repeated extent' p) middle values rest) :
      Derives rules (.repeated extent p) input (value :: values) rest
  | chainOne {α : Type} {p : Grammar N τ α} {op : Grammar N τ (α → α → α)} {input rest : Residual τ}
      {value : α} (operand : Derives rules p input value rest) :
      Derives rules (.chainRight .exhaustive p op) input value rest
  | chainMore {α : Type} {p : Grammar N τ α} {op : Grammar N τ (α → α → α)}
      {input middle further rest : Residual τ} {left right : α} {apply : α → α → α}
      (operand : Derives rules p input left middle)
      (operator : Derives rules op middle apply further)
      (others : Derives rules (.chainRight .exhaustive p op) further right rest) :
      Derives rules (.chainRight .exhaustive p op) input (apply left right) rest
  | deferred {α : Type} {cell : Nat} {p : Grammar N τ α} {input rest : Residual τ} {value : α}
      (part : Derives rules p input value rest) : Derives rules (.deferred cell p) input value rest
  | rule {r : N.Rule} {pattern : Grammar N τ (N.Result r)} {input rest : Residual τ}
      {value : N.Result r} (stands : rules r = .ok pattern)
      (body : Derives rules pattern input value rest) : Derives rules (.rule r) input value rest

variable {rules : Rules N τ}

/-- A derivation leaves a rest of the same tokens. -/
theorem Derives.total_eq {g : Grammar N τ α} {input rest : Residual τ} {value : α}
    (derives : Derives rules g input value rest) :
    rest.offset + rest.remaining = input.offset + input.remaining := by
  induction derives with
  | satisfy accepted =>
    simp only [Residual.remaining, List.length_cons]
    omega
  | succeed | endOfInput | sequenceNil | repeatedNil => rfl
  | map part ih | bindNone first ih | bindMore all ih | choice i branch ih | chainOne operand ih
  | deferred part ih | rule stands body ih => exact ih
  | sequenceCons first others ihFirst ihOthers | bind first others ihFirst ihOthers
  | repeatedCons goesOn first consumes others ihFirst ihOthers => exact ihOthers.trans ihFirst
  | chainMore operand operator others ihOperand ihOperator ihOthers =>
    exact ihOthers.trans (ihOperator.trans ihOperand)

end Multiparse
