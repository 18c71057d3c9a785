import Multiparse.Arith.Lexeme

/-!
# Cutting a source into lexemes

White space separates lexemes and is skipped. A number is as long as it can be: digits, and a
fraction if a point and a digit follow. Any other character that is no sign or parenthesis ends the
work. All characters that can be part of a lexeme or of white space are ASCII, so places are counted
in bytes.
-/

namespace Multiparse.Arith

/-- A place in the source. -/
structure Place where
  /-- Bytes before it. -/
  offset : Nat
  line : Nat
  column : Nat

namespace Place

/-- The beginning of the source. -/
def start : Place := ⟨0, 0, 0⟩

/-- The place some bytes further on the same line. -/
def along (place : Place) (bytes : Nat) : Place :=
  { place with offset := place.offset + bytes, column := place.column + bytes }

/-- The place after a white-space character. -/
def pastBlank (place : Place) (c : Char) : Place :=
  if c = '\n' then ⟨place.offset + 1, place.line + 1, 0⟩ else place.along 1

/-- The span of a lexeme that begins here. -/
def span (place : Place) (bytes : Nat) : Span := ⟨place.line, place.column, place.column + bytes⟩

end Place

/-- White space between lexemes. -/
def isBlank (c : Char) : Bool := c = ' ' || c = '\t' || c = '\n' || c = '\r' || c = '\x0c'

/-- The shape of a lexeme of one character. -/
def sign? (c : Char) : Option Shape :=
  match c with
  | '+' => some .plus
  | '-' => some .minus
  | '*' => some .star
  | '/' => some .slash
  | '(' => some .leftParen
  | ')' => some .rightParen
  | _ => none

/-- The longest number at the beginning, and what follows it. -/
def splitNumber (text : List Char) : List Char × List Char :=
  let whole := text.takeWhile Char.isDigit
  match text.dropWhile Char.isDigit with
  | '.' :: rest =>
    let fraction := rest.takeWhile Char.isDigit
    if fraction.isEmpty then (whole, '.' :: rest)
    else (whole ++ '.' :: fraction, rest.dropWhile Char.isDigit)
  | rest => (whole, rest)

/-- Nothing is lost when a number is split off. -/
theorem splitNumber_append (text : List Char) :
    (splitNumber text).1 ++ (splitNumber text).2 = text := by
  have joined := List.takeWhile_append_dropWhile (p := Char.isDigit) (l := text)
  unfold splitNumber
  split
  · rename_i rest after
    rw [after] at joined
    dsimp only
    split
    · exact joined
    · rw [List.append_assoc, List.cons_append, List.takeWhile_append_dropWhile]
      exact joined
  · exact joined

/-- A number that begins with a digit takes something from the text. -/
theorem splitNumber_length {c : Char} (digit : c.isDigit = true) (rest : List Char) :
    (splitNumber (c :: rest)).2.length ≤ rest.length := by
  have joined := congrArg List.length (splitNumber_append (c :: rest))
  have taken : 0 < (splitNumber (c :: rest)).1.length := by
    unfold splitNumber
    split
    · dsimp only
      split <;> simp [digit]
    · simp [digit]
  rw [List.length_append, List.length_cons] at joined
  omega

/-- Why a source cannot be cut: what stands at a place begins no lexeme. -/
structure Unreadable where
  offset : Nat
  remaining : List Char

/-- Cuts a text that begins at a place. -/
def lexFrom (place : Place) : List Char → Except Unreadable (List Lexeme)
  | [] => .ok []
  | c :: rest =>
    if isBlank c then lexFrom (place.pastBlank c) rest
    else if digit : c.isDigit = true then
      let number := (splitNumber (c :: rest)).1
      have : (splitNumber (c :: rest)).2.length < rest.length + 1 :=
        Nat.lt_succ_of_le (splitNumber_length digit rest)
      (lexFrom (place.along number.length) (splitNumber (c :: rest)).2).map fun lexemes =>
        ⟨.number (String.ofList number), place.span number.length⟩ :: lexemes
    else
      match sign? c with
      | some shape =>
        (lexFrom (place.along 1) rest).map fun lexemes => ⟨shape, place.span 1⟩ :: lexemes
      | none => .error ⟨place.offset, c :: rest⟩
termination_by text => text.length

/-- Cuts a source into lexemes. -/
def lex (source : String) : Except Unreadable (List Lexeme) := lexFrom .start source.toList

end Multiparse.Arith
