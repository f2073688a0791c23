import PinBoard.Text.Percent
import PinBoard.Url.Fold
import PinBoard.Url.Punycode

/-!
# Domain names

A domain name is brought to ASCII: its characters are folded, and a label that still holds others
than ASCII is written in punycode behind `xn--`. Some characters may not occur in the result.
-/

namespace PinBoard.Url

/-- A character that may not occur in a domain name. -/
def isForbiddenInDomain (c : Char) : Bool :=
  c.toNat ≤ 0x20 || (0x7F ≤ c.toNat && c.toNat < 0xA0) ||
    ['#', '%', '/', ':', '<', '>', '?', '@', '[', '\\', ']', '^', '|'].contains c

/-- What stands in front of a label in punycode. -/
def punycodeMark : List Char := ['x', 'n', '-', '-']

/-- A label that is written in punycode has to stand for something that needs it and is folded. -/
def isSoundLabel (label : List Char) : Bool :=
  if label.take 4 = punycodeMark then
    match Punycode.decode? (label.drop 4) with
    | some cs =>
      cs.any (0x80 ≤ ·.toNat) &&
        cs.all (fun c => fold c = c && !isDropped c && !isForbiddenInDomain c) &&
        Punycode.encode cs = label.drop 4
    | none => false
  else true

/-- A label in ASCII. -/
def asciiLabel (label : List Char) : List Char :=
  if label.all (·.toNat < 0x80) then label else punycodeMark ++ Punycode.encode label

/-- A domain name in ASCII, if it is one. -/
def domainToAscii? (cs : List Char) : Option (List Char) :=
  let labels := ((cs.filter fun c => !isDropped c).map fold).splitOn '.'
  if labels.all isSoundLabel && labels.all (fun l => !l.any isForbiddenInDomain) then
    some (List.intercalate ['.'] (labels.map asciiLabel))
  else none

end PinBoard.Url
