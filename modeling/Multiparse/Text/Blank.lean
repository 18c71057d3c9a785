/-!
# Blank text

The characters with the Unicode property White_Space.
-/

namespace Multiparse.Text

/-- First and last code points of the ranges of white space. -/
def whiteSpaceRanges : List (Nat × Nat) := [
  (0x9, 0xd), (0x20, 0x20), (0x85, 0x85), (0xa0, 0xa0), (0x1680, 0x1680), (0x2000, 0x200a),
  (0x2028, 0x2029), (0x202f, 0x202f), (0x205f, 0x205f), (0x3000, 0x3000)]

/-- Whether a character is white space. -/
def isWhiteSpace (c : Char) : Bool :=
  whiteSpaceRanges.any fun range => range.1 ≤ c.toNat && c.toNat ≤ range.2

/-- Whether a text has nothing but white space. -/
def isBlank (text : String) : Bool := text.toList.all isWhiteSpace

end Multiparse.Text
