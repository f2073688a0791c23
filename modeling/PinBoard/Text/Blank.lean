/-!
# Blank characters

Two classes of blank characters are in use and they differ in two members.
The text a listener types is tidied with the script class (`\s` of ECMAScript), tokens and
error texts are trimmed with the Unicode property `White_Space`.
-/

namespace PinBoard.Text

/-! ## The two classes -/

/-- The blanks that both classes share. -/
def isCommonBlank (c : Char) : Bool :=
  let n := c.toNat
  (0x09 ≤ n && n ≤ 0x0D) || n == 0x20 || n == 0xA0 || n == 0x1680 ||
    (0x2000 ≤ n && n ≤ 0x200A) || n == 0x2028 || n == 0x2029 || n == 0x202F ||
    n == 0x205F || n == 0x3000

/-- A blank of the script class: the common blanks and the byte order mark. -/
def isScriptBlank (c : Char) : Bool :=
  isCommonBlank c || c.toNat == 0xFEFF

/-- A blank by the Unicode property `White_Space`: the common blanks and the next-line control. -/
def isBlank (c : Char) : Bool :=
  isCommonBlank c || c.toNat == 0x85

/-! ## Trimming -/

/-- Drops the blanks at both ends. -/
def trimChars (cs : List Char) : List Char :=
  ((cs.dropWhile isBlank).reverse.dropWhile isBlank).reverse

/-- Drops the blanks at both ends of a string. -/
def trim (s : String) : String :=
  String.ofList (trimChars s.toList)

/-- A text in which every character is a blank. -/
def IsAllBlank (s : String) : Prop :=
  ∀ c ∈ s.toList, isBlank c = true

instance (s : String) : Decidable (IsAllBlank s) :=
  decidable_of_iff (s.toList.all isBlank = true) List.all_eq_true

end PinBoard.Text
