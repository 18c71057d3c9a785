/-!
# Slots

A slot is a name under which one thing is kept. Storing into a slot lets go of what it held.
-/

namespace Multiparse

universe u

/-- Things kept under names. -/
abbrev Slots (A : Type u) : Type u := List (String × A)

namespace Slots

variable {A : Type u}

/-- What a slot holds. -/
def get? (slots : Slots A) (slot : String) : Option A :=
  match slots with
  | [] => none
  | (name, item) :: others => if name = slot then some item else get? others slot

/-- Empties a slot. -/
def erase (slots : Slots A) (slot : String) : Slots A := slots.filter fun held => held.1 ≠ slot

/-- Puts something into a slot in place of what it held. -/
def put (slots : Slots A) (slot : String) (item : A) : Slots A := (slot, item) :: slots.erase slot

/-- Everything held. -/
def items (slots : Slots A) : List A := slots.map Prod.snd

end Slots

end Multiparse
