import Multiparse.Decimal.Integer
import Multiparse.Text.Quoted
import Multiparse.Word

/-!
# Dynamic values

One type for whatever a grammar may read, for grammars that are only known when they run. Integers
have 64 bits and wrap around. Every function here is total: a value of the wrong kind counts as
zero, as an unknown text or as itself.
-/

namespace Multiparse

/-- A value whose shape is known only when it is read. -/
inductive Value where
  | unit
  | int (n : Int64)
  | bool (b : Bool)
  | text (s : String)
  | list (items : List Value)
  | absent
  | present (v : Value)
  | tuple (items : List Value)
  | left (v : Value)
  | right (v : Value)
  | token (kind lexeme : String)

namespace Value

instance : Inhabited Value := ⟨unit⟩

/-! ## Equality -/

mutual

/-- Whether two values are the same. -/
def same : Value → Value → Bool
  | unit, unit => true
  | int m, int n => m == n
  | bool b, bool c => b == c
  | text s, text t => s == t
  | list xs, list ys => sameAll xs ys
  | absent, absent => true
  | present v, present w => same v w
  | tuple xs, tuple ys => sameAll xs ys
  | left v, left w => same v w
  | right v, right w => same v w
  | token k s, token l t => k == l && s == t
  | _, _ => false

/-- Whether two lists of values are the same. -/
def sameAll : List Value → List Value → Bool
  | [], [] => true
  | v :: vs, w :: ws => same v w && sameAll vs ws
  | _, _ => false

end

/-! ## Reading values -/

/-- The number of an integer; anything else counts as zero. -/
def number : Value → Int64
  | int n => n
  | _ => 0

/-- The text of a string, a token or an integer; anything else is unknown. -/
def label : Value → String
  | text s => s
  | token _ lexeme => lexeme
  | int n => toString n.toInt
  | _ => "?"

/-- The members of a list or a tuple. -/
def members? : Value → Option (List Value)
  | list items => some items
  | tuple items => some items
  | _ => none

/-! ## Functions of one value -/

/-- The number that a value's text spells, or zero. -/
def toNumber (v : Value) : Value := int ((Decimal.readInt64? v.label).getD 0)

/-- How many members a value has; minus one if it cannot have any. -/
def count (v : Value) : Value :=
  match v.members? with
  | some items => int (Int64.ofNat items.length)
  | none => int (-1)

/-- The sum of the members' numbers. -/
def sum (v : Value) : Value :=
  match v.members? with
  | some items => int (items.foldl (fun total item => total + item.number) 0)
  | none => int v.number

/-- The members' texts in a row. -/
def concat (v : Value) : Value :=
  match v.members? with
  | some items => text (String.join (items.map label))
  | none => text v.label

/-- The value of a left branch. -/
def leftPart : Value → Value
  | left v => present v
  | _ => absent

/-- The value of a right branch; a value of no branch counts as a right one. -/
def rightPart : Value → Value
  | left _ => absent
  | right v => present v
  | v => present v

/-- Whether a value comes from a left branch. -/
def isLeft : Value → Value
  | left _ => bool true
  | _ => bool false

/-! ## Functions of two values -/

/-- Arithmetic on the numbers of two values. -/
def arithmetic (f : Int64 → Int64 → Int64) (v w : Value) : Value := int (f v.number w.number)

/-- Appends to a list, or makes a list of two. -/
def snoc : Value → Value → Value
  | list items, w => list (items ++ [w])
  | v, w => list [v, w]

/-- An operator in front of two texts, in parentheses. -/
def sexpr (operator : String) (v w : Value) : Value :=
  text ("(" ++ operator ++ " " ++ v.label ++ " " ++ w.label ++ ")")

/-! ## Conversions -/

/-- A token as a value. -/
def ofWord (word : Word) : Value := token word.kind word.lexeme

/-- An optional value. -/
def ofOption : Option Value → Value
  | none => absent
  | some v => present v

/-- One of two values. -/
def ofSum : Value ⊕ Value → Value
  | .inl v => left v
  | .inr v => right v

/-! ## Written form -/

mutual

/-- The value written as JSON without blanks. -/
def written : Value → String
  | unit => "null"
  | int n => toString n.toInt
  | bool b => if b then "true" else "false"
  | text s => Text.jsonQuoted s
  | list items => "[" ++ writtenAll items ++ "]"
  | absent => "\x7b\"opt\":[]\x7d"
  | present v => "\x7b\"opt\":[" ++ written v ++ "]\x7d"
  | tuple items => "\x7b\"tup\":[" ++ writtenAll items ++ "]\x7d"
  | left v => "\x7b\"L\":" ++ written v ++ "\x7d"
  | right v => "\x7b\"R\":" ++ written v ++ "\x7d"
  | token kind lexeme =>
    "\x7b\"tok\":[" ++ Text.jsonQuoted kind ++ "," ++ Text.jsonQuoted lexeme ++ "]\x7d"

/-- Several values written with commas between them. -/
def writtenAll : List Value → String
  | [] => ""
  | [v] => written v
  | v :: w :: rest => written v ++ "," ++ writtenAll (w :: rest)

end

end Value

end Multiparse
