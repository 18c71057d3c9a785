/-!
# Tokens

A grammar looks at a token only through its kind, its lexeme and the words that describe it.
-/

namespace Multiparse

/-- What a grammar may ask of a token. -/
class Token (τ : Type) where
  /-- The kinds that tokens fall into. -/
  Kind : Type
  kindEq : DecidableEq Kind
  /-- How a kind is called in a diagnostic. -/
  kindName : Kind → String
  kind : τ → Kind
  /-- The source text of the token. -/
  lexeme : τ → String
  /-- How the token is called in a diagnostic; its quoted lexeme unless said otherwise. -/
  describe : τ → String := fun token => "'" ++ lexeme token ++ "'"

instance {τ : Type} [Token τ] : DecidableEq (Token.Kind τ) := Token.kindEq

end Multiparse
