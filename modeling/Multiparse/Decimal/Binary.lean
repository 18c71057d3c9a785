/-!
# Binary floating-point numbers

A finite number of double precision is a whole number of binary units: `mantissa * 2 ^ exponent`
with at most 53 binary digits in the mantissa. This module takes a number apart and finds the
number nearest to a fraction.
-/

namespace Multiparse.Decimal

/-- The exponent of the smallest unit. -/
def leastExponent : Int := -1074

/-- The bits of positive infinity. -/
def infinityBits : Nat := 0x7ff0000000000000

/-- A positive finite number, taken apart. -/
structure Binary where
  mantissa : Nat
  exponent : Int
  deriving DecidableEq

/-- The size of a finite number from its bits without the sign. -/
def Binary.ofBits (bits : Nat) : Binary :=
  let field : Nat := bits / Nat.pow 2 52
  let fraction : Nat := bits % Nat.pow 2 52
  if field = 0 then ⟨fraction, leastExponent⟩
  else ⟨fraction + Nat.pow 2 52, leastExponent + (field : Int) - 1⟩

/-- The whole number nearest to a fraction; a tie goes to the even one. -/
def nearestEven (numerator denominator : Nat) : Nat :=
  let quotient := numerator / denominator
  let twice := 2 * (numerator % denominator)
  if twice < denominator then quotient
  else if denominator < twice then quotient + 1
  else quotient + quotient % 2

/-- The bits of the number nearest to a positive fraction; a tie goes to the even mantissa, and
what is too large becomes infinite. -/
def nearestBits (numerator denominator : Nat) : Nat :=
  let magnitude : Int := (numerator.log2 : Int) - (denominator.log2 : Int)
  let inUnits (exponent : Int) : Nat × Nat :=
    (numerator * Nat.pow 2 (-exponent).toNat, denominator * Nat.pow 2 exponent.toNat)
  let guess := max (magnitude - 53) leastExponent
  let (top, bottom) := inUnits guess
  let exponent := if top / bottom < Nat.pow 2 53 then guess else guess + 1
  let (top, bottom) := inUnits exponent
  min ((exponent - leastExponent).toNat * Nat.pow 2 52 + nearestEven top bottom) infinityBits

end Multiparse.Decimal
