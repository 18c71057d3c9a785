import Multiparse.Decimal.Binary
import Multiparse.Decimal.Integer

/-!
# Reading decimal text

A number is an optional sign and then either a word for an infinity or for no number, or digits
with an optional point and an optional exponent. At least one digit stands around the point, and
nothing else stands around the number. The result is the number nearest to what is written.
-/

namespace Multiparse.Decimal

/-- An exponent part: nothing, or a mark, an optional sign and digits. -/
def readExponent? : List Char → Option Int
  | [] => some 0
  | mark :: rest => if mark = 'e' || mark = 'E' then readInt? rest else none

/-- The bits of the number nearest to `digits * 10 ^ exponent`. Outside the range of exponents
given here the answer does not depend on the digits. -/
def scaledBits (digits : List Char) (exponent : Int) : Nat :=
  let significant := digits.dropWhile (· == '0')
  let magnitude := (significant.length : Int) + exponent
  if significant.isEmpty || magnitude < -330 then 0
  else if 310 < magnitude then infinityBits
  else nearestBits (digitsValue significant * Nat.pow 10 exponent.toNat)
      (Nat.pow 10 (-exponent).toNat)

/-- The bits of an unsigned number in digits with an optional point and exponent. -/
def readFraction? (text : List Char) : Option Nat :=
  let whole := text.takeWhile Char.isDigit
  let rest := text.dropWhile Char.isDigit
  let (fraction, rest) :=
    match rest with
    | '.' :: rest => (rest.takeWhile Char.isDigit, rest.dropWhile Char.isDigit)
    | rest => ([], rest)
  if whole.isEmpty && fraction.isEmpty then none
  else
    (readExponent? rest).map fun exponent =>
      scaledBits (whole ++ fraction) (exponent - fraction.length)

/-- The bits of an unsigned number or word. -/
def readSize? (text : List Char) : Option Nat :=
  let word := String.ofList (text.map Char.toLower)
  if word = "inf" || word = "infinity" then some infinityBits
  else if word = "nan" then some (infinityBits + Nat.pow 2 51)
  else readFraction? text

/-- The number that a text spells. -/
def readFloat? (text : String) : Option Float :=
  let (negative, size) := splitSign text.toList
  (readSize? size).map fun bits =>
    let x := Float.ofBits bits.toUInt64
    if negative then -x else x

end Multiparse.Decimal
