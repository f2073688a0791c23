/-!
# UTF-8

`encode` writes characters as bytes. `decode` reads any bytes: each maximal stretch that starts
a character but does not finish it, and each byte that starts none, becomes `none`.
-/

namespace PinBoard.Text.Utf8

/-! ## Writing -/

/-- The bytes of one character. -/
def encodeChar (c : Char) : List UInt8 :=
  let n := c.toNat
  if n < 0x80 then [UInt8.ofNat n]
  else if n < 0x800 then
    [UInt8.ofNat (0xC0 + n / 0x40), UInt8.ofNat (0x80 + n % 0x40)]
  else if n < 0x10000 then
    [UInt8.ofNat (0xE0 + n / 0x1000), UInt8.ofNat (0x80 + n / 0x40 % 0x40),
      UInt8.ofNat (0x80 + n % 0x40)]
  else
    [UInt8.ofNat (0xF0 + n / 0x40000), UInt8.ofNat (0x80 + n / 0x1000 % 0x40),
      UInt8.ofNat (0x80 + n / 0x40 % 0x40), UInt8.ofNat (0x80 + n % 0x40)]

/-- The bytes of a sequence of characters. -/
def encodeChars (cs : List Char) : List UInt8 :=
  cs.flatMap encodeChar

/-- The bytes of a string. -/
def encode (s : String) : List UInt8 :=
  encodeChars s.toList

/-! ## Reading -/

/-- What the bytes of a character have said so far: how many more must follow, the bounds of
the next one, and the number collected. -/
structure Partial where
  missing : Nat
  low : Nat
  high : Nat
  value : Nat

/-- A first byte: a whole character, the start of a longer one, or neither. -/
def start (b : Nat) : Option (Char ⊕ Partial) :=
  if b < 0x80 then some (.inl (Char.ofNat b))
  else if b < 0xC2 then none
  else if b < 0xE0 then some (.inr ⟨1, 0x80, 0xBF, b - 0xC0⟩)
  else if b = 0xE0 then some (.inr ⟨2, 0xA0, 0xBF, 0⟩)
  else if b = 0xED then some (.inr ⟨2, 0x80, 0x9F, 0xD⟩)
  else if b < 0xF0 then some (.inr ⟨2, 0x80, 0xBF, b - 0xE0⟩)
  else if b = 0xF0 then some (.inr ⟨3, 0x90, 0xBF, 0⟩)
  else if b < 0xF4 then some (.inr ⟨3, 0x80, 0xBF, b - 0xF0⟩)
  else if b = 0xF4 then some (.inr ⟨3, 0x80, 0x8F, 4⟩)
  else none

/-- Starts a character at byte `b`: what is read at once and what stays open. -/
def startAt (b : Nat) : List (Option Char) × Option Partial :=
  match start b with
  | none => ([none], none)
  | some (.inl c) => ([some c], none)
  | some (.inr p) => ([], some p)

/-- Reads bytes; the first argument is the character under way. -/
def decodeFrom : Option Partial → List UInt8 → List (Option Char)
  | none, [] => []
  | some _, [] => [none]
  | none, b :: rest =>
    let (out, next) := startAt b.toNat
    out ++ decodeFrom next rest
  | some p, b :: rest =>
    if p.low ≤ b.toNat && b.toNat ≤ p.high then
      let value := p.value * 0x40 + (b.toNat - 0x80)
      if p.missing ≤ 1 then some (Char.ofNat value) :: decodeFrom none rest
      else decodeFrom (some ⟨p.missing - 1, 0x80, 0xBF, value⟩) rest
    else
      let (out, next) := startAt b.toNat
      none :: out ++ decodeFrom next rest

/-- The characters of a sequence of bytes, `none` for what is not UTF-8. -/
def decode (bytes : List UInt8) : List (Option Char) :=
  decodeFrom none bytes

/-- The string that the bytes spell, if all of them are UTF-8. -/
def decode? (bytes : List UInt8) : Option String :=
  ((decode bytes).mapM id).map String.ofList

/-- The string that the bytes spell, with U+FFFD for what is not UTF-8. -/
def decodeLossy (bytes : List UInt8) : String :=
  String.ofList ((decode bytes).map (·.getD '\uFFFD'))

end PinBoard.Text.Utf8
