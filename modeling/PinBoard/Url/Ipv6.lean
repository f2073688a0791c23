import PinBoard.Url.Ipv4

/-!
# IPv6 addresses

Eight groups of up to four hexadecimal digits between colons. One run of zero groups may be left
out, and the last two groups may be written as an IPv4 address. The written form leaves out the
longest run of at least two zero groups.
-/

namespace PinBoard.Url

/-! ## Reading -/

/-- The number of a group of one to four hexadecimal digits. -/
def group? (cs : List Char) : Option Nat :=
  if cs.isEmpty || 4 < cs.length then none else baseNumber? 16 cs

/-- The number of a decimal byte, written without leading zeros. -/
def byte? (cs : List Char) : Option Nat :=
  if cs.isEmpty || 3 < cs.length || (1 < cs.length && cs.head? = some '0') then none
  else (baseNumber? 10 cs).filter (· ≤ 255)

/-- The two groups of an IPv4 address. -/
def embedded? (cs : List Char) : Option (List Nat) :=
  match (dotted cs).mapM byte? with
  | some [a, b, c, d] => some [a * 256 + b, c * 256 + d]
  | _ => none

/-- The groups of a text between colons, the last of which may be an IPv4 address. -/
def groups? : List (List Char) → Option (List Nat)
  | [] => some []
  | [last] => if last.contains '.' then embedded? last else (group? last).map fun n => [n]
  | group :: rest => do
    let n ← group? group
    let more ← groups? rest
    some (n :: more)

/-- The groups of a text that may be empty. -/
def groupsOf? (cs : List Char) : Option (List Nat) :=
  if cs.isEmpty then some [] else groups? (cs.splitOn ':')

/-- What stands before and behind the first double colon. -/
def splitGap : List Char → Option (List Char × List Char)
  | ':' :: ':' :: rest => some ([], rest)
  | c :: rest => (splitGap rest).map fun (before, behind) => (c :: before, behind)
  | [] => none

/-- Reads an address of eight groups. -/
def ipv6 (cs : List Char) : Except Error (List Nat) :=
  let found :=
    match splitGap cs with
    | none => (groupsOf? cs).filter (·.length = 8)
    | some (before, behind) => do
      let head ← groupsOf? before
      let tail ← groupsOf? behind
      if before.contains '.' || 7 < head.length + tail.length then none
      else some (head ++ List.replicate (8 - head.length - tail.length) 0 ++ tail)
  match found with
  | some groups => .ok groups
  | none => .error .ipv6

/-! ## Writing -/

/-- The lengths of the runs of zeros that begin at each group. -/
def zeroRuns : List Nat → List Nat
  | [] => []
  | n :: rest =>
    let more := zeroRuns rest
    (if n = 0 then more.headD 0 + 1 else 0) :: more

/-- The groups between colons. -/
def colons (groups : List Nat) : String :=
  ":".intercalate (groups.map fun n => String.ofList (Nat.toDigits 16 n))

/-- Writes an address of eight groups. -/
def ipv6Text (groups : List Nat) : String :=
  let runs := zeroRuns groups
  let longest := runs.foldl max 0
  if longest < 2 then colons groups
  else
    let start := runs.findIdx (· = longest)
    colons (groups.take start) ++ "::" ++ colons (groups.drop (start + longest))

end PinBoard.Url
