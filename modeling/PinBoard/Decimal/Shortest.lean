/-!
# The fewest digits of a floating point number

A finite double is `m · 2 ^ q` and stands for an interval of real numbers, those that round to
it. `shortest` looks for the coarsest decimal grid with a point in that interval, in exact
arithmetic on natural numbers, and takes the point nearest to the number.
-/

namespace PinBoard.Decimal

/-! ## Binary and decimal numbers -/

/-- The number `significand · 2 ^ exponent`. -/
structure Binary where
  significand : Nat
  exponent : Int
  /-- Whether the gap below the number is half the gap above it. -/
  tightBelow : Bool

/-- The number `digits · 10 ^ exponent`. -/
structure Scaled where
  digits : Nat
  exponent : Int

/-- The leading bit of a significand, which is not written. -/
def hiddenBit : Nat := 0x10000000000000

/-- The magnitude of a finite double. -/
def Binary.ofFloat (x : Float) : Binary :=
  let bits := x.toBits.toNat
  let fraction := bits % hiddenBit
  let biased : Nat := bits / hiddenBit % 0x800
  if biased = 0 then ⟨fraction, -1074, false⟩
  else ⟨hiddenBit + fraction, (biased : Int) - 1075, fraction = 0 && biased > 1⟩

/-! ## Exact comparison -/

/-- A number of quarter units `n · 2 ^ (q - 2)`, brought to the common denominator with the grid
of step `10 ^ k`. -/
def Binary.onGrid (b : Binary) (k : Int) (quarters : Nat) : Nat :=
  quarters * Nat.pow 2 (b.exponent - 2).toNat * Nat.pow 10 (-k).toNat

/-- The step of the grid `10 ^ k` over the same denominator. -/
def Binary.step (b : Binary) (k : Int) : Nat :=
  Nat.pow 10 k.toNat * Nat.pow 2 (2 - b.exponent).toNat

/-- Whether the grid point `c · 10 ^ k` rounds to the number: the ends of the interval belong to
it when the significand is even. -/
def Binary.rounds (b : Binary) (k : Int) (c : Nat) : Bool :=
  let point := c * b.step k
  let low := b.onGrid k (4 * b.significand - if b.tightBelow then 1 else 2)
  let high := b.onGrid k (4 * b.significand + 2)
  if b.significand % 2 = 0 then low ≤ point && point ≤ high else low < point && point < high

/-- The nearer of the number's two neighbours on the grid `10 ^ k` that round to it. -/
def Binary.nearest? (b : Binary) (k : Int) : Option Nat :=
  let value := b.onGrid k (4 * b.significand)
  let step := b.step k
  let below := value / step
  let above := below + 1
  match b.rounds k below, b.rounds k above with
  | false, false => none
  | true, false => some below
  | false, true => some above
  | true, true =>
    let gapBelow := value - below * step
    let gapAbove := above * step - value
    if gapBelow < gapAbove then some below
    else if gapAbove < gapBelow then some above
    else if below % 2 = 0 then some below else some above

/-! ## The search -/

/-- The number `p` with `10 ^ (p - 1) ≤ x < 10 ^ p`, for a number that is not zero. -/
def Binary.magnitude (b : Binary) : Int :=
  let scaled := 4 * b.significand * Nat.pow 2 (b.exponent - 2).toNat * Nat.pow 10 400 /
    Nat.pow 2 (2 - b.exponent).toNat
  ((Nat.toDigits 10 scaled).length : Int) - 400

/-- Tries finer and finer grids, `tries` of them, starting with one digit. -/
def Binary.search (b : Binary) (magnitude : Int) : Nat → Nat → Scaled
  | 0, _ => ⟨0, 0⟩
  | tries + 1, places =>
    let k := magnitude - places
    match b.nearest? k with
    | some c => ⟨c, k⟩
    | none => b.search magnitude tries (places + 1)

/-- The shortest decimal that rounds to the number; seventeen digits always suffice. -/
def Binary.shortest (b : Binary) : Scaled :=
  if b.significand = 0 then ⟨0, 0⟩ else b.search b.magnitude 17 1

/-! ## Text -/

/-- How a decimal is laid out. -/
structure Layout where
  /-- The least exponent of the first digit that is written positionally. -/
  leastFixed : Int
  /-- The greatest exponent of the first digit that is written positionally. -/
  greatestFixed : Int
  /-- What stands in front of an exponent that is not negative. -/
  exponentSign : String

/-- Writes a point after the first `n` digits. -/
def pointed (digits : List Char) (n : Nat) : String :=
  String.ofList (digits.take n ++ '.' :: digits.drop n)

/-- Writes a decimal: positionally with at least one digit on each side of the point, or with an
exponent after the first digit. -/
def Layout.write (layout : Layout) (x : Scaled) : String :=
  let digits := (Nat.toDigits 10 x.digits).reverse.dropWhile (· = '0') |>.reverse
  let zeros := (Nat.toDigits 10 x.digits).length - digits.length
  let first := x.exponent + zeros + digits.length - 1
  if digits.isEmpty then "0.0"
  else if layout.leastFixed ≤ first && first ≤ layout.greatestFixed then
    if first < 0 then
      "0." ++ String.ofList (List.replicate (-first - 1).toNat '0' ++ digits)
    else
      let places := (first + 1).toNat
      if digits.length ≤ places then
        String.ofList (digits ++ List.replicate (places - digits.length) '0') ++ ".0"
      else pointed digits places
  else
    let mantissa := if digits.length ≤ 1 then String.ofList digits else pointed digits 1
    mantissa ++ "e" ++ (if first < 0 then "-" else layout.exponentSign) ++ toString first.natAbs

/-- The layout of numbers in messages: the first digit stands between `10 ^ -5` and `10 ^ 15`
when no exponent is written, and exponents carry their sign. -/
def messageLayout : Layout := ⟨-5, 15, "+"⟩

/-- The text of a finite double. -/
def shortText (x : Float) : String :=
  (if x.toBits.toNat / 0x8000000000000000 = 1 then "-" else "") ++
    messageLayout.write (Binary.ofFloat x).shortest

end PinBoard.Decimal
