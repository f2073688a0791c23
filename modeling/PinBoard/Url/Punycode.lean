/-!
# Punycode

Writes a label of any characters with letters, digits and hyphens. The ASCII characters come
first; behind a hyphen stand the others in the order of their numbers, each as the distance
from the one before, in digits whose weights adapt to the distances met so far.
-/

namespace PinBoard.Url.Punycode

/-! ## Weights -/

/-- Brings a distance below 456, counting the divisions it takes in steps of 36. -/
def shrink (delta steps : Nat) : Nat × Nat :=
  if 455 < delta then shrink (delta / 35) (steps + 36) else (delta, steps)
termination_by delta
decreasing_by omega

/-- The bias after a distance among `points` characters. -/
def adapt (delta points : Nat) (isFirst : Bool) : Nat :=
  let halved := if isFirst then delta / 700 else delta / 2
  let (rest, steps) := shrink (halved + halved / points) 0
  steps + 36 * rest / (rest + 38)

/-- The threshold of the digit at position `k`. -/
def threshold (k bias : Nat) : Nat :=
  if k ≤ bias then 1 else if bias + 26 ≤ k then 26 else k - bias

/-- A threshold lies between 1 and 26. -/
theorem threshold_bounds (k bias : Nat) : 1 ≤ threshold k bias ∧ threshold k bias ≤ 26 := by
  unfold threshold
  split
  · omega
  · split <;> omega

/-! ## Writing -/

/-- The symbol of a digit. -/
def symbol (d : Nat) : Char :=
  if d < 26 then Char.ofNat (0x61 + d) else Char.ofNat (0x30 + (d - 26))

/-- The digits of a distance. -/
def writeDistance (bias k q : Nat) : List Char :=
  let t := threshold k bias
  if q < t then [symbol q]
  else symbol (t + (q - t) % (36 - t)) :: writeDistance bias (k + 36) ((q - t) / (36 - t))
termination_by q
decreasing_by
  have h := threshold_bounds k bias
  have := Nat.div_le_self (q - threshold k bias) (36 - threshold k bias)
  omega

/-- A label that is being written. -/
structure Writing where
  out : List Char
  delta : Nat
  bias : Nat
  handled : Nat

/-- Passes over a character of the label while those of number `n` are written. -/
def Writing.pass (basic n : Nat) (w : Writing) (c : Char) : Writing :=
  if c.toNat < n then { w with delta := w.delta + 1 }
  else if c.toNat = n then
    { out := w.out ++ writeDistance w.bias 36 w.delta
      delta := 0
      bias := adapt w.delta (w.handled + 1) (w.handled = basic)
      handled := w.handled + 1 }
  else w

/-- Writes the characters whose numbers are given, in ascending order; those below `n` are
done. -/
def writeNumbers (cs : List Char) (basic : Nat) : Nat → List Nat → Writing → Writing
  | _, [], w => w
  | n, m :: rest, w =>
    let w := { w with delta := w.delta + (m - n) * (w.handled + 1) }
    let w := cs.foldl (Writing.pass basic m) w
    writeNumbers cs basic (m + 1) rest { w with delta := w.delta + 1 }

/-- The written form of a label. -/
def encode (cs : List Char) : List Char :=
  let basic := cs.filter (·.toNat < 0x80)
  let numbers := ((cs.map Char.toNat).filter (0x80 ≤ ·)).mergeSort.eraseDups
  let start : Writing :=
    ⟨if basic.isEmpty then [] else basic ++ ['-'], 0, 72, basic.length⟩
  (writeNumbers cs basic.length 0x80 numbers start).out

/-! ## Reading -/

/-- The digit of a symbol. -/
def digit? (c : Char) : Option Nat :=
  let n := c.toNat
  if 0x61 ≤ n && n ≤ 0x7A then some (n - 0x61)
  else if 0x41 ≤ n && n ≤ 0x5A then some (n - 0x41)
  else if 0x30 ≤ n && n ≤ 0x39 then some (n - 0x30 + 26)
  else none

/-- A label that is being read: its characters, the number and the place that were reached, the
bias, and of the distance under way its start, its weight and the position of its next
digit. -/
structure Reading where
  out : List Char
  number : Nat
  place : Nat
  bias : Nat
  start : Nat
  weight : Nat
  position : Nat

/-- Reads one digit. -/
def Reading.digit (r : Reading) (d : Nat) : Option Reading :=
  let place := r.place + d * r.weight
  let t := threshold r.position r.bias
  if t ≤ d then
    some { r with place := place, weight := r.weight * (36 - t), position := r.position + 36 }
  else
    let points := r.out.length + 1
    let number := r.number + place / points
    let spot := place % points
    if 0x10FFFF < number || (0xD800 ≤ number && number ≤ 0xDFFF) then none
    else
      some
        { out := r.out.take spot ++ Char.ofNat number :: r.out.drop spot
          number := number
          place := spot + 1
          bias := adapt (place - r.start) points (r.start = 0)
          start := spot + 1
          weight := 1
          position := 36 }

/-- Reads digits to the end of the last distance. -/
def readDigits (r : Reading) : List Char → Option (List Char)
  | [] => if r.position = 36 then some r.out else none
  | c :: rest => do
    let d ← digit? c
    readDigits (← r.digit d) rest

/-- The label that a written form stands for. -/
def decode? (cs : List Char) : Option (List Char) :=
  let behind := (cs.reverse.takeWhile (· ≠ '-')).reverse
  let basic := cs.take (cs.length - behind.length - 1)
  if basic.all (·.toNat < 0x80) then readDigits ⟨basic, 0x80, 0, 72, 0, 1, 36⟩ behind else none

end PinBoard.Url.Punycode
