import Multiparse.Token

/-!
# Words

A token type for text that is cut at spaces: numbers, words and everything else. A word may bring
its own description for diagnostics.
-/

namespace Multiparse

/-- A token that carries the name of its kind. -/
structure Word where
  kind : String
  lexeme : String
  description : Option String
  deriving DecidableEq

namespace Word

instance : Token Word where
  Kind := String
  kindEq := inferInstance
  kindName kind := kind
  kind word := word.kind
  lexeme word := word.lexeme
  describe word := word.description.getD ("'" ++ word.lexeme ++ "'")

/-- Digits make a number, a leading letter makes a word, and everything else is punctuation. -/
def ofLexeme (lexeme : String) : Word :=
  let characters := lexeme.toList
  let kind :=
    if characters.all Char.isDigit then "NUM"
    else if (characters.head?.map Char.isAlpha).getD false then "WORD"
    else "PUNCT"
  { kind, lexeme, description := none }

/-- Cuts a text at spaces. -/
def scan (text : String) : List Word :=
  ((text.splitOn " ").filter fun piece => !piece.isEmpty).map ofLexeme

end Word

end Multiparse
