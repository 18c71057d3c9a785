import Multiparse.Decimal.Integer
import Multiparse.Decimal.Read

/-!
# What arithmetic means

The grammar of arithmetic does not fix what an expression stands for. A semantics says what to make
of numbers, signs and operators: a floating-point number, a text, or a whole number.
-/

namespace Multiparse.Arith

/-- The operators of arithmetic. -/
inductive Op where
  | add
  | sub
  | mul
  | div
  deriving DecidableEq

/-- The sign of an operator. -/
def Op.symbol : Op → String
  | add => "+"
  | sub => "-"
  | mul => "*"
  | div => "/"

/-- What to make of the parts of an expression. -/
structure Semantics (α : Type) where
  /-- A number as it is written, unless it is not accepted. -/
  number : String → Option α
  unary : Op → α → α
  binary : Op → α → α → α

/-- Arithmetic with floating-point numbers. -/
def evaluator : Semantics Float where
  number := Decimal.readFloat?
  unary op x :=
    match op with
    | .sub => -x
    | _ => x
  binary op x y :=
    match op with
    | .add => x + y
    | .sub => x - y
    | .mul => x * y
    | .div => x / y

/-- Every operator in front of its operands, in parentheses. -/
def printer : Semantics String where
  number digits := some digits
  unary op x := "(" ++ op.symbol ++ " " ++ x ++ ")"
  binary op x y := "(" ++ op.symbol ++ " " ++ x ++ " " ++ y ++ ")"

/-- Arithmetic with whole numbers of 64 bits that wrap around; division goes toward zero, and
division by zero gives zero. -/
def whole : Semantics Int64 where
  number := Decimal.readInt64?
  unary op x :=
    match op with
    | .sub => -x
    | _ => x
  binary op x y :=
    match op with
    | .add => x + y
    | .sub => x - y
    | .mul => x * y
    | .div => x / y

end Multiparse.Arith
