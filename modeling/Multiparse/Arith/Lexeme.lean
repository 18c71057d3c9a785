import Multiparse.Token

/-!
# Lexemes of arithmetic

A lexeme is a number, an operator sign or a parenthesis, with its place in the source.
-/

namespace Multiparse.Arith

/-- What kind of lexeme it is. -/
inductive Kind where
  | number
  | plus
  | minus
  | star
  | slash
  | leftParen
  | rightParen
  deriving DecidableEq

/-- How a kind is called in a diagnostic. -/
def Kind.display : Kind → String
  | number => "NUM"
  | plus => "'+'"
  | minus => "'-'"
  | star => "'*'"
  | slash => "'/'"
  | leftParen => "'('"
  | rightParen => "')'"

/-- What a lexeme says. -/
inductive Shape where
  /-- A number as it is written. -/
  | number (digits : String)
  | plus
  | minus
  | star
  | slash
  | leftParen
  | rightParen
  deriving DecidableEq

namespace Shape

/-- The kind of a lexeme. -/
def kind : Shape → Kind
  | number _ => .number
  | plus => .plus
  | minus => .minus
  | star => .star
  | slash => .slash
  | leftParen => .leftParen
  | rightParen => .rightParen

/-- The source text of a lexeme. -/
def text : Shape → String
  | number digits => digits
  | plus => "+"
  | minus => "-"
  | star => "*"
  | slash => "/"
  | leftParen => "("
  | rightParen => ")"

/-- How a lexeme is called in a diagnostic. -/
def describe : Shape → String
  | number digits => "number '" ++ digits ++ "'"
  | shape => "'" ++ shape.text ++ "'"

end Shape

/-- The place of a lexeme: its line, its column and where it ends, counted from zero in bytes. -/
structure Span where
  line : Nat
  column : Nat
  endColumn : Nat
  deriving DecidableEq

/-- A lexeme in its place. -/
structure Lexeme where
  shape : Shape
  span : Span
  deriving DecidableEq

instance : Token Lexeme where
  Kind := Kind
  kindEq := inferInstance
  kindName := Kind.display
  kind lexeme := lexeme.shape.kind
  lexeme lexeme := lexeme.shape.text
  describe lexeme := lexeme.shape.describe

end Multiparse.Arith
