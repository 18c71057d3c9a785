import Multiparse.Fault
import Multiparse.Parser.Choice
import Multiparse.Parser.Layer

/-!
# Right-associative chains

A chain reads operands with operators between them. On the right an operator takes a whole chain,
so the parser recurses once an operator has been read. When an operand and an operator consumed
nothing between them, the recursion would come back to the same input for ever: that is a fault.
-/

namespace Multiparse.Parser

variable {m : Type → Type} [Monad m] [Aborts m] {τ α : Type}

/-- Reads `p (op p)*`, grouping to the right. -/
def chainRight (policy : Policy) (p : Parser m τ α) (op : Parser m τ (α → α → α)) :
    Parser m τ α := fun input =>
  bind p
    (fun left => choice policy
      [bind op fun apply rest =>
          if rest.remaining < input.remaining then do
            let outcome ← chainRight policy p op rest
            pure (outcome.map (apply left))
          else Aborts.abort .runaway,
        succeed left])
    input
termination_by input => input.remaining

end Multiparse.Parser
