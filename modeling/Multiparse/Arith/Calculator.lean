import Multiparse.Arith.Lexer
import Multiparse.Arith.Semantics
import Multiparse.Grammar.Derived
import Multiparse.Grammar.Run

/-!
# The grammar of arithmetic

    expr   := term (('+' | '-') term)*
    term   := factor (('*' | '/') factor)*
    factor := NUM | '(' expr ')' | ('+' | '-') factor

Operators group to the left, and every choice is settled by the next lexeme.
-/

namespace Multiparse.Arith

/-- The rules of the grammar. -/
inductive Nonterminal where
  | expr
  | factor
  deriving DecidableEq

/-- The name of a rule. -/
def Nonterminal.name : Nonterminal → String
  | expr => "expr"
  | factor => "factor"

/-- Both rules read values of the semantics, and nothing is traced. -/
abbrev names (α : Type) : Names := ⟨Nonterminal, fun _ => α, Empty⟩

/-- Grammars over lexemes that use the rules. -/
abbrev Phrase (α β : Type) : Type 1 := Grammar (names α) Lexeme β

variable {α : Type}

/-- A use of a rule. -/
def use (nonterminal : Nonterminal) : Phrase α α := Grammar.rule (N := names α) nonterminal

/-- A lexeme of a kind. -/
def lexeme (kind : Kind) : Phrase α Lexeme := Grammar.token (τ := Lexeme) kind

/-- An operator written as a lexeme of a kind. -/
def operator (kind : Kind) (op : Op) : Phrase α Op := .map (fun _ => op) (lexeme kind)

/-- One of the signs that add and subtract. -/
def additive : Phrase α Op := .firstOf [operator .plus .add, operator .minus .sub]

/-- One of the signs that multiply and divide. -/
def multiplicative : Phrase α Op := .firstOf [operator .star .mul, operator .slash .div]

/-- A number that the semantics accepts. -/
def number (semantics : Semantics α) : Phrase α α :=
  .bind (lexeme .number) [] fun written =>
    match semantics.number written.shape.text with
    | some value => .succeed value
    | none => .fail ("invalid number " ++ written.shape.describe)

/-- An expression in parentheses. -/
def parenthesized : Phrase α α := .between (lexeme .leftParen) (use .expr) (lexeme .rightParen)

/-- A factor with a sign in front. -/
def signed (semantics : Semantics α) : Phrase α α :=
  .map (fun values => semantics.unary values.1 values.2) (.pair additive (use .factor))

/-- The pattern of `factor`. -/
def factor (semantics : Semantics α) : Phrase α α :=
  .firstOf [number semantics, parenthesized, signed semantics]

/-- Operands with operators between them, grouped to the left. -/
def leftGrouped (semantics : Semantics α) (operand : Phrase α α) (operators : Phrase α Op) :
    Phrase α α :=
  .foldLeft .ordered (fun left step => semantics.binary step.1 left step.2) operand
    (.pair operators operand)

/-- Factors with multiplicative operators between them. -/
def term (semantics : Semantics α) : Phrase α α :=
  leftGrouped semantics (use .factor) multiplicative

/-- The pattern of `expr`. -/
def expr (semantics : Semantics α) : Phrase α α := leftGrouped semantics (term semantics) additive

/-- The rules with their patterns. -/
def rules (semantics : Semantics α) : Rules (names α) Lexeme
  | .expr => .ok (expr semantics)
  | .factor => .ok (factor semantics)

/-- The rules after they are gone: every use is a fault. -/
def droppedRules : Rules (names α) Lexeme := fun nonterminal => .error (.dropped nonterminal.name)

/-- An expression uses two rules for each parenthesis it is in and one for each sign, so this many
rule calls are never exceeded. -/
def callLimit (lexemes : List Lexeme) : Nat := 2 * lexemes.length + 2

/-- Runs a rule on lexemes. -/
def parse (rules : Rules (names α) Lexeme) (nonterminal : Nonterminal) (lexemes : List Lexeme) :
    Except Fault (Outcome Lexeme α) :=
  (use nonterminal).parse rules (callLimit lexemes) lexemes

end Multiparse.Arith
