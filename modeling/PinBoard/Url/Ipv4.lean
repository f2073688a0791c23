import PinBoard.Url.Error

/-!
# IPv4 addresses

A host whose last part is a number is an address. Its parts may be decimal, octal or hexadecimal,
and fewer than four of them leave the last one to fill the remaining bytes.
-/

namespace PinBoard.Url

/-! ## Parts -/

/-- The parts of a host between its dots. -/
def dotted (cs : List Char) : List (List Char) :=
  cs.splitOn '.'

/-- The value of a digit in a given base. -/
def baseDigit? (base : Nat) (c : Char) : Option Nat :=
  let n := c.toNat
  let value? :=
    if 0x30 ≤ n && n ≤ 0x39 then some (n - 0x30)
    else if 0x41 ≤ n && n ≤ 0x46 then some (n - 0x41 + 10)
    else if 0x61 ≤ n && n ≤ 0x66 then some (n - 0x61 + 10)
    else none
  value?.filter (· < base)

/-- The number that digits spell in a given base; no digits spell zero. -/
def baseNumber? (base : Nat) (cs : List Char) : Option Nat :=
  (cs.mapM (baseDigit? base)).map fun ds => ds.foldl (fun n d => n * base + d) 0

/-- The number that a part of an address spells. -/
def partNumber? : List Char → Option Nat
  | [] => none
  | '0' :: 'x' :: cs => baseNumber? 16 cs
  | '0' :: 'X' :: cs => baseNumber? 16 cs
  | '0' :: c :: cs => baseNumber? 8 (c :: cs)
  | cs => baseNumber? 10 cs

/-- The last part of a host; an empty one behind the last dot does not count. -/
def lastPart? (cs : List Char) : Option (List Char) :=
  match (dotted cs).reverse with
  | [] :: part :: _ => some part
  | [[]] => none
  | part :: _ => some part
  | [] => none

/-- Whether a host ends in a number and so has to be an address. -/
def endsInNumber (cs : List Char) : Bool :=
  match lastPart? cs with
  | none => false
  | some part =>
    (!part.isEmpty && part.all fun c => '0' ≤ c && c ≤ '9') || (partNumber? part).isSome

/-! ## Addresses -/

/-- How many addresses begin with a given number of given bytes. -/
def roomBehind (bytes : Nat) : Nat := Nat.pow 256 (4 - bytes)

/-- The part of an address that its leading bytes make up, from the byte of a given place on. -/
def leadingPart (place : Nat) : List Nat → Nat
  | [] => 0
  | n :: rest => n * roomBehind (place + 1) + leadingPart (place + 1) rest

/-- Reads an address of four bytes. -/
def ipv4 (cs : List Char) : Except Error Nat :=
  let parts := dotted cs
  let parts := if parts.getLast? = some [] then parts.dropLast else parts
  if 4 < parts.length then .error .ipv4
  else
    match parts.mapM partNumber? with
    | none => .error .ipv4
    | some numbers =>
      match numbers.getLast? with
      | none => .error .ipv4
      | some last =>
        let leading := numbers.dropLast
        if roomBehind leading.length ≤ last || leading.any (255 < ·) then .error .ipv4
        else .ok (leadingPart 0 leading + last)

/-- Writes an address of four bytes. -/
def ipv4Text (n : Nat) : String :=
  ".".intercalate ([1, 2, 3, 4].map fun place => toString (n / roomBehind place % 256))

end PinBoard.Url
