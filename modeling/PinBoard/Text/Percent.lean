import PinBoard.Text.Utf8

/-!
# Percent encoding

A byte is written as a percent sign and two hexadecimal digits. Which characters need it depends on
where in an address they stand; those beyond ASCII and the controls always do.
-/

namespace PinBoard.Text

/-! ## Writing -/

/-- The hexadecimal digit of a number below sixteen, in upper case. -/
def hexDigit (n : Nat) : Char :=
  if n < 10 then Char.ofNat (0x30 + n) else Char.ofNat (0x41 + (n - 10))

/-- The written form of a byte. -/
def percentByte (b : UInt8) : List Char :=
  ['%', hexDigit (b.toNat / 16), hexDigit (b.toNat % 16)]

/-- Whether a character is written byte by byte wherever it stands. -/
def isAlwaysEncoded (c : Char) : Bool :=
  c.toNat < 0x20 || 0x7E < c.toNat

/-- Writes one character; `special` tells which ones need encoding beside those that always do. -/
def percentChar (special : Char → Bool) (c : Char) : List Char :=
  if isAlwaysEncoded c || special c then (Utf8.encodeChar c).flatMap percentByte else [c]

/-- Writes a text. -/
def percentEncode (special : Char → Bool) (cs : List Char) : List Char :=
  cs.flatMap (percentChar special)

/-! ## Reading -/

/-- The value of a hexadecimal digit. -/
def hexDigit? (b : UInt8) : Option Nat :=
  let n := b.toNat
  if 0x30 ≤ n && n ≤ 0x39 then some (n - 0x30)
  else if 0x41 ≤ n && n ≤ 0x46 then some (n - 0x41 + 10)
  else if 0x61 ≤ n && n ≤ 0x66 then some (n - 0x61 + 10)
  else none

/-- Reads bytes; a percent sign without two digits behind it stands for itself. -/
def percentDecode : List UInt8 → List UInt8
  | [] => []
  | [a] => [a]
  | [a, b] => [a, b]
  | a :: b :: c :: rest =>
    if a = 0x25 then
      match hexDigit? b, hexDigit? c with
      | some high, some low => UInt8.ofNat (high * 16 + low) :: percentDecode rest
      | _, _ => a :: percentDecode (b :: c :: rest)
    else a :: percentDecode (b :: c :: rest)

/-- Reads a text, if what it stands for is UTF-8. -/
def percentDecode? (s : String) : Option String :=
  Utf8.decode? (percentDecode (Utf8.encode s))

end PinBoard.Text
