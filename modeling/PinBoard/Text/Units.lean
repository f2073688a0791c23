/-!
# Length in UTF-16 code units

A text field counts its text in UTF-16 code units, so a character outside the basic plane counts
twice.
-/

namespace PinBoard.Text

/-- The number of UTF-16 code units of a character. -/
def charUnits (c : Char) : Nat :=
  if c.toNat < 0x10000 then 1 else 2

/-- The number of UTF-16 code units of a sequence of characters. -/
def unitsOf : List Char → Nat
  | [] => 0
  | c :: rest => charUnits c + unitsOf rest

/-- The number of UTF-16 code units of a string. -/
def units (s : String) : Nat :=
  unitsOf s.toList

end PinBoard.Text
