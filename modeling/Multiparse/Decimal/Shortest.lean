import Multiparse.Decimal.Binary

/-!
# Shortest decimal text

A number is written with the fewest digits that read back as the same number. Of two such texts the
nearer one is taken, and of two equally near ones the greater. Digits always stand around the
decimal point; there is no exponent and no empty fraction.
-/

namespace Multiparse.Decimal

/-- A decimal number: `digits * 10 ^ exponent`. -/
structure Numeral where
  digits : Nat
  exponent : Int
  deriving DecidableEq

/-- The decimals that read back as a number, as bounds around it in quarter units. -/
structure Interval where
  low : Nat
  middle : Nat
  high : Nat
  /-- The exponent of a quarter unit. -/
  exponent : Int
  /-- Whether the bounds themselves read back as the number. -/
  closed : Bool

/-- The interval of a number. Below a power of two the neighbours stand closer. -/
def Interval.of (number : Binary) : Interval where
  low :=
    if number.mantissa = Nat.pow 2 52 ∧ leastExponent < number.exponent then 4 * number.mantissa - 1
    else 4 * number.mantissa - 2
  middle := 4 * number.mantissa
  high := 4 * number.mantissa + 2
  exponent := number.exponent - 2
  closed := number.mantissa % 2 = 0

/-- A decimal with the given exponent inside an interval, if there is one. -/
def Interval.onGrid (interval : Interval) (exponent : Int) : Option Numeral :=
  let scale := Nat.pow 2 interval.exponent.toNat * Nat.pow 10 (-exponent).toNat
  let unit := Nat.pow 10 exponent.toNat * Nat.pow 2 (-interval.exponent).toNat
  let low := interval.low * scale
  let middle := interval.middle * scale
  let high := interval.high * scale
  let inside (digits : Nat) : Bool :=
    let value := digits * unit
    if interval.closed then low ≤ value && value ≤ high else low < value && value < high
  let below := middle / unit
  let above := below + 1
  if inside below && inside above then
    some ⟨if 2 * (middle - below * unit) < unit then below else above, exponent⟩
  else if inside below then some ⟨below, exponent⟩
  else if inside above then some ⟨above, exponent⟩
  else none

/-- How many digits stand before the decimal point of a fraction, counting down from zero for each
zero that follows the point; `fuel` bounds how many zeros are looked for. -/
def wholeDigits (numerator denominator : Nat) : Nat → Int
  | 0 => 0
  | fuel + 1 =>
    if denominator ≤ numerator then ((Nat.toDigits 10 (numerator / denominator)).length : Int)
    else wholeDigits (10 * numerator) denominator fuel - 1

/-- The shortest decimal that reads back as a number, searched with ever more digits. -/
def shortestFrom (interval : Interval) (whole : Int) : Nat → Nat → Numeral
  | _, 0 => ⟨0, 0⟩
  | count, fuel + 1 =>
    match interval.onGrid (whole - count) with
    | some numeral => numeral
    | none => shortestFrom interval whole (count + 1) fuel

/-- The shortest decimal that reads back as a positive number; seventeen digits always do. -/
def shortest (number : Binary) : Numeral :=
  let numerator := number.mantissa * Nat.pow 2 number.exponent.toNat
  let denominator := Nat.pow 2 (-number.exponent).toNat
  shortestFrom (.of number) (wholeDigits numerator denominator 400) 1 17

/-- A decimal written out around its point. -/
def Numeral.text (numeral : Numeral) : String :=
  let digits := Nat.toDigits 10 numeral.digits
  let places := (-numeral.exponent).toNat
  let padded := List.replicate (places + 1 - digits.length) '0' ++ digits
  let whole := padded.take (padded.length - places) ++ List.replicate numeral.exponent.toNat '0'
  let fraction := (padded.drop (padded.length - places)).reverse.dropWhile (· == '0') |>.reverse
  String.ofList (if fraction.isEmpty then whole else whole ++ '.' :: fraction)

/-- A number written out. -/
def floatText (x : Float) : String :=
  let bits := x.toBits.toNat
  let size := bits % Nat.pow 2 63
  let sign := if bits < Nat.pow 2 63 then "" else "-"
  if infinityBits < size then "NaN"
  else if size = infinityBits then sign ++ "inf"
  else if size = 0 then sign ++ "0"
  else sign ++ (shortest (.ofBits size)).text

end Multiparse.Decimal
