/-!
# Numerals

A numeral is a plus sign, if any, and one or more decimal digits; leading zeros are allowed. It is
read as a number only if it does not exceed the limit of what it is meant for.
-/

namespace PinBoard.Text

/-- A decimal digit. -/
def isDigitChar (c : Char) : Bool :=
  '0' ≤ c && c ≤ '9'

/-- The number that digits spell. -/
def digitsValue (ds : List Char) : Nat :=
  Nat.ofDigitChars 10 ds 0

/-- The number that a numeral spells, if it is one. -/
def numeral? (cs : List Char) : Option Nat :=
  let digits := match cs with
    | '+' :: rest => rest
    | _ => cs
  if !digits.isEmpty && digits.all isDigitChar then some (digitsValue digits) else none

/-- The number that a numeral spells, if it does not exceed the limit. -/
def numeralUpTo? (limit : Nat) (s : String) : Option Nat :=
  (numeral? s.toList).filter (· ≤ limit)

end PinBoard.Text
