import PinBoard.Text.Utf8

/-!
# Response bodies

A body arrives complete or breaks off. Its text is UTF-8, unless a byte order mark at the beginning
says otherwise; what cannot be decoded becomes U+FFFD.
-/

namespace PinBoard.Http

/-! ## UTF-16 -/

/-- The character of two surrogates. -/
def joinSurrogates (high low : Nat) : Char :=
  Char.ofNat (0x10000 + (high - 0xD800) * 0x400 + (low - 0xDC00))

/-- The characters of a sequence of UTF-16 code units. -/
def charsOfUnits : List Nat → List Char
  | [] => []
  | [u] => [if 0xD800 ≤ u && u ≤ 0xDFFF then '\uFFFD' else Char.ofNat u]
  | u :: v :: rest =>
    if 0xD800 ≤ u && u ≤ 0xDBFF && 0xDC00 ≤ v && v ≤ 0xDFFF then
      joinSurrogates u v :: charsOfUnits rest
    else if 0xD800 ≤ u && u ≤ 0xDFFF then '\uFFFD' :: charsOfUnits (v :: rest)
    else Char.ofNat u :: charsOfUnits (v :: rest)

/-- The characters of bytes in pairs, of which `unit` makes code units; a byte without a partner
cannot be decoded. -/
def charsOfPairs (unit : UInt8 → UInt8 → Nat) (bytes : List UInt8) : List Char :=
  let rec pairs : List UInt8 → List Nat × Bool
    | a :: b :: rest =>
      let (units, odd) := pairs rest
      (unit a b :: units, odd)
    | [_] => ([], true)
    | [] => ([], false)
  let (units, odd) := pairs bytes
  charsOfUnits units ++ if odd then ['\uFFFD'] else []

/-! ## Bodies -/

/-- The text of bytes. -/
def textOfBytes : List UInt8 → String
  | 0xEF :: 0xBB :: 0xBF :: rest => Text.Utf8.decodeLossy rest
  | 0xFF :: 0xFE :: rest =>
    String.ofList (charsOfPairs (fun a b => b.toNat * 0x100 + a.toNat) rest)
  | 0xFE :: 0xFF :: rest =>
    String.ofList (charsOfPairs (fun a b => a.toNat * 0x100 + b.toNat) rest)
  | bytes => Text.Utf8.decodeLossy bytes

/-- The body of a response. -/
inductive Body where
  | complete (bytes : List UInt8)
  | truncated
  deriving DecidableEq, Repr

/-- The text of a body that arrived complete. -/
def Body.text? : Body → Option String
  | .complete bytes => some (textOfBytes bytes)
  | .truncated => none

end PinBoard.Http
