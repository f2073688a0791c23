import PinBoard.Decimal.Shortest
import PinBoard.Json.Error

/-!
# Numbers

A numeral is a number as it is spelled. An integral spelling that fits 64 bits is an integer;
every other one, and `-0`, is a floating point number, which is out of range when it is
too large for a double.
-/

namespace PinBoard.Json

/-! ## Spelling -/

/-- A number as it is spelled: sign, digits before the point, digits after it, and the exponent
with its sign. -/
structure Numeral where
  negative : Bool
  whole : List Char
  fraction : Option (List Char)
  exponent : Option (Bool × List Char)
  deriving DecidableEq, Repr

/-- The spelling of an integer. -/
def Numeral.ofInt (n : Int) : Numeral :=
  ⟨n < 0, Nat.toDigits 10 n.natAbs, none, none⟩

/-- The value of a digit. -/
def digitValue (c : Char) : Nat :=
  c.toNat - '0'.toNat

/-! ## Value -/

/-- What a number is read as. -/
inductive Number where
  | integer (value : Int)
  | floating (value : Float)

/-- The number as an error message shows it. -/
def Number.found : Number → Found
  | .integer n => .integer n
  | .floating x => .floating (Decimal.shortText x)

/-- Takes digits into a number as long as it does not exceed `limit`; returns the number and the
digits left over. -/
def absorb (limit : Nat) (n : Nat) : List Char → Nat × List Char
  | [] => (n, [])
  | d :: rest =>
    let next := n * 10 + digitValue d
    if next > limit then (n, d :: rest) else absorb limit next rest

/-- The greatest significand of a number. -/
def maxUnsigned : Nat := 0xFFFFFFFFFFFFFFFF

/-- The greatest integer of 64 bits with a sign. -/
def maxSigned : Nat := 0x7FFFFFFFFFFFFFFF

/-- The power of ten as a double. -/
def powerOfTen (n : Nat) : Float :=
  Float.ofScientific 1 false n

/-- The double `significand · 10 ^ exponent`. The power is applied in steps of at most `10 ^ 308`,
and two such divisions leave nothing of a 64-bit number. -/
def scale (significand : Nat) (exponent : Int) : Except Error Float :=
  let f := (UInt64.ofNat significand).toFloat
  if 0 ≤ exponent then
    if exponent ≤ 308 then
      let scaled := f * powerOfTen exponent.toNat
      if scaled.isInf then .error .numberOutOfRange else .ok scaled
    else if significand = 0 then .ok 0 else .error .numberOutOfRange
  else
    let n := (-exponent).toNat
    if n ≤ 308 then .ok (f / powerOfTen n)
    else if n ≤ 616 then .ok (f / powerOfTen 308 / powerOfTen (n - 308))
    else .ok 0

/-- The exponent of ten that a spelled exponent adds; an exponent beyond 32 bits is reported as
`none` with its sign. -/
def spelledExponent : Option (Bool × List Char) → Except Bool Int
  | none => .ok 0
  | some (negative, digits) =>
    match absorb 0x7FFFFFFF 0 digits with
    | (n, []) => .ok (if negative then -(n : Int) else n)
    | _ => .error negative

/-- The magnitude of a numeral as a double: digits that no longer fit 64 bits only shift the
point, those after the point are dropped. -/
def Numeral.magnitude (n : Numeral) : Except Error Float :=
  let (significand, dropped) := absorb maxUnsigned 0 n.whole
  let fraction := n.fraction.getD []
  let (significand, rest) := absorb maxUnsigned significand fraction
  let shift : Int := (dropped.length : Int) - ((fraction.length : Int) - rest.length)
  match spelledExponent n.exponent with
  | .ok exponent => scale significand (shift + exponent)
  | .error negative =>
    if negative || significand = 0 then .ok 0 else .error .numberOutOfRange

/-- The number that a numeral spells. -/
def Numeral.value (n : Numeral) : Except Error Number :=
  let floating : Except Error Number :=
    n.magnitude.map fun x => .floating (if n.negative then -x else x)
  match n.fraction, n.exponent, absorb maxUnsigned 0 n.whole with
  | none, none, (value, []) =>
    if !n.negative then .ok (.integer value)
    else if 0 < value && value ≤ maxSigned + 1 then .ok (.integer (-(value : Int)))
    else floating
  | _, _, _ => floating

end PinBoard.Json
