/-!
# Base64 for URLs, without padding

Three bytes are written as four symbols of six bits each. The reader accepts exactly what the
writer produces: no padding, no stray bits in the last symbol, no foreign symbol, and it says
what it met first.
-/

namespace PinBoard.Base64Url

/-! ## Symbols -/

/-- The symbol of six bits. -/
def symbol (n : Nat) : Char :=
  if n < 26 then Char.ofNat (0x41 + n)
  else if n < 52 then Char.ofNat (0x61 + (n - 26))
  else if n < 62 then Char.ofNat (0x30 + (n - 52))
  else if n = 62 then '-'
  else '_'

/-- The six bits of a byte that is a symbol. -/
def sextet? (b : UInt8) : Option Nat :=
  let n := b.toNat
  if 0x41 ≤ n && n ≤ 0x5A then some (n - 0x41)
  else if 0x61 ≤ n && n ≤ 0x7A then some (n - 0x61 + 26)
  else if 0x30 ≤ n && n ≤ 0x39 then some (n - 0x30 + 52)
  else if n = 0x2D then some 62
  else if n = 0x5F then some 63
  else none

/-- The byte of the padding symbol. -/
def pad : UInt8 := 0x3D

/-! ## Writing -/

/-- Writes bytes as symbols. -/
def encode : List UInt8 → List Char
  | [] => []
  | [a] => [symbol (a.toNat / 4), symbol (a.toNat % 4 * 16)]
  | [a, b] =>
    [symbol (a.toNat / 4), symbol (a.toNat % 4 * 16 + b.toNat / 16), symbol (b.toNat % 16 * 4)]
  | a :: b :: c :: rest =>
    symbol (a.toNat / 4) :: symbol (a.toNat % 4 * 16 + b.toNat / 16) ::
      symbol (b.toNat % 16 * 4 + c.toNat / 64) :: symbol (c.toNat % 64) :: encode rest

/-! ## Reading -/

/-- Why bytes are not a written form. -/
inductive Error where
  | symbol (byte : UInt8) (offset : Nat)
  | length (count : Nat)
  | lastSymbol (byte : UInt8) (offset : Nat)
  | padding
  deriving DecidableEq, Repr

/-- The wording of an error. -/
def Error.message : Error → String
  | .symbol byte offset =>
    "Invalid symbol " ++ toString byte.toNat ++ ", offset " ++ toString offset ++ "."
  | .length count => "Invalid input length: " ++ toString count
  | .lastSymbol byte offset =>
    "Invalid last symbol " ++ toString byte.toNat ++ ", offset " ++ toString offset ++ "."
  | .padding => "Invalid padding"

/-- The six bits of the symbol at an offset. -/
def sextetAt (offset : Nat) (b : UInt8) : Except Error Nat :=
  match sextet? b with
  | some n => .ok n
  | none => .error (.symbol b offset)

/-- Reads the symbols of the last, possibly incomplete, group of four. Padding may only stand
behind two symbols and in front of nothing else; `padded` is the offset of the first one. -/
def lastSextets (offset index : Nat) (padded : Option Nat) :
    List UInt8 → Except Error (List Nat × Option Nat)
  | [] => .ok ([], padded)
  | b :: rest =>
    if b = pad then
      if index < 2 then .error (.symbol b (offset + index))
      else lastSextets offset (index + 1) (padded.or (some (offset + index))) rest
    else
      match padded with
      | some first => .error (.symbol pad first)
      | none => do
        let n ← sextetAt (offset + index) b
        let (more, padded) ← lastSextets offset (index + 1) none rest
        .ok (n :: more, padded)

/-- The bytes of the last group of symbols; bits that belong to no byte have to be zero. -/
def lastBytes (offset : Nat) (group : List UInt8) : List Nat → Except Error (List UInt8)
  | [a, b, c, d] =>
    .ok [UInt8.ofNat (a * 4 + b / 16), UInt8.ofNat (b % 16 * 16 + c / 4),
      UInt8.ofNat (c % 4 * 64 + d)]
  | [a, b, c] =>
    if c % 4 = 0 then .ok [UInt8.ofNat (a * 4 + b / 16), UInt8.ofNat (b % 16 * 16 + c / 4)]
    else .error (.lastSymbol (group.getD 2 0) (offset + 2))
  | [a, b] =>
    if b % 16 = 0 then .ok [UInt8.ofNat (a * 4 + b / 16)]
    else .error (.lastSymbol (group.getD 1 0) (offset + 1))
  | few => .error (.length (offset + few.length))

/-- Reads the last group of symbols. -/
def decodeLast (offset : Nat) (group : List UInt8) : Except Error (List UInt8) := do
  let (sextets, padded) ← lastSextets offset 0 none group
  if sextets.length < 2 then .error (.length (offset + sextets.length))
  else if padded.isSome then .error .padding
  else lastBytes offset group sextets

/-- Reads symbols from an offset on. -/
def decodeFrom (offset : Nat) : List UInt8 → Except Error (List UInt8)
  | [] => .ok []
  | a :: b :: c :: d :: e :: rest => do
    let a ← sextetAt offset a
    let b ← sextetAt (offset + 1) b
    let c ← sextetAt (offset + 2) c
    let d ← sextetAt (offset + 3) d
    let more ← decodeFrom (offset + 4) (e :: rest)
    .ok (UInt8.ofNat (a * 4 + b / 16) :: UInt8.ofNat (b % 16 * 16 + c / 4) ::
      UInt8.ofNat (c % 4 * 64 + d) :: more)
  | group => decodeLast offset group

/-- Whether a text has one byte more than its groups of four and that byte is neither a symbol nor
padding. -/
def strayEnd? (bytes : List UInt8) : Option UInt8 :=
  if bytes.length % 4 = 1 then
    bytes.getLast?.filter fun b => b ≠ pad && (sextet? b).isNone
  else none

/-- Reads symbols; a stray byte at the end is noticed before everything else. -/
def decode (bytes : List UInt8) : Except Error (List UInt8) :=
  match strayEnd? bytes with
  | some b => .error (.symbol b (bytes.length - 1))
  | none => decodeFrom 0 bytes

end PinBoard.Base64Url
