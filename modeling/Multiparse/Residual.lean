import Multiparse.Position

/-!
# Residual input

The tokens that a parse has not consumed yet, together with the number of tokens before them.
Advancing only ever moves toward the end.
-/

namespace Multiparse

/-- The unconsumed rest of a token sequence. -/
structure Residual (τ : Type) where
  /-- The tokens that are left. -/
  tokens : List τ
  /-- How many tokens precede them. -/
  offset : Nat

namespace Residual

variable {τ : Type}

/-- All of a token sequence. -/
def start (tokens : List τ) : Residual τ := ⟨tokens, 0⟩

/-- The next token. -/
def peek? (residual : Residual τ) : Option τ := residual.tokens.head?

/-- Whether nothing is left. -/
def isEmpty (residual : Residual τ) : Bool := residual.tokens.isEmpty

/-- How many tokens are left. -/
def remaining (residual : Residual τ) : Nat := residual.tokens.length

/-- Consumes one token; at the end nothing changes. -/
def advance (residual : Residual τ) : Residual τ :=
  match residual.tokens with
  | [] => residual
  | _ :: tokens => ⟨tokens, residual.offset + 1⟩

/-- Consumes as many of `count` tokens as there are. -/
def advanceBy (residual : Residual τ) (count : Nat) : Residual τ :=
  ⟨residual.tokens.drop count, residual.offset + min count residual.tokens.length⟩

/-- The position of the next token, or the end of the input. -/
def position (residual : Residual τ) : Position :=
  if residual.isEmpty then .eof else .token residual.offset

/-- Whether two residuals begin at the same token or are both used up. -/
def sameAs (left right : Residual τ) : Bool :=
  left.offset == right.offset || (left.isEmpty && right.isEmpty)

@[simp] theorem advanceBy_zero (residual : Residual τ) : residual.advanceBy 0 = residual := by
  simp [advanceBy]

/-- Consuming several tokens is consuming one at a time. -/
theorem advanceBy_succ (residual : Residual τ) (count : Nat) :
    residual.advanceBy (count + 1) = (residual.advanceBy count).advance := by
  obtain ⟨tokens, offset⟩ := residual
  induction tokens generalizing offset count with
  | nil => simp [advanceBy, advance]
  | cons token tokens ih =>
    cases count with
    | zero => simp [advanceBy, advance]
    | succ count =>
      have shifted := ih count (offset + 1)
      simp only [advanceBy, List.drop_succ_cons, List.length_cons] at shifted ⊢
      rw [show offset + min (count + 1 + 1) (tokens.length + 1)
          = offset + 1 + min (count + 1) tokens.length by omega,
        show offset + min (count + 1) (tokens.length + 1)
          = offset + 1 + min count tokens.length by omega]
      exact shifted

end Residual

end Multiparse
