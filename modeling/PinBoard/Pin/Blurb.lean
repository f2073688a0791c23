import PinBoard.Text.Collapse
import PinBoard.Text.Units

/-!
# The blurb editor

The blurb is the text that goes with a pin. Every edit hands over the whole text; it is collapsed,
and refused if it is still too long, so the text never exceeds the limit.
-/

namespace PinBoard

/-- The greatest length of a blurb, in UTF-16 code units. -/
def maxBlurbLength : Nat := 250

/-- The text of the blurb being written. -/
structure Blurb where
  text : String
  fits : Text.units text ≤ maxBlurbLength
  deriving DecidableEq

/-- The blurb in which nothing was written. -/
def Blurb.empty : Blurb := ⟨"", by decide⟩

/-- Applies an edit; one whose collapsed text is too long changes nothing. -/
def Blurb.edit (b : Blurb) (raw : String) : Blurb :=
  if h : Text.units (Text.collapse raw) ≤ maxBlurbLength then ⟨Text.collapse raw, h⟩ else b

/-- The length of the text as a text field counts it. -/
def Blurb.length (b : Blurb) : Nat := Text.units b.text

/-- How much of the limit is left. -/
def Blurb.remaining (b : Blurb) : Nat := maxBlurbLength - b.length

/-- Whether nothing was written. -/
def Blurb.isEmpty (b : Blurb) : Bool := b.text.isEmpty

/-- The text to send, if anything was written. -/
def Blurb.content (b : Blurb) : Option String :=
  if b.isEmpty then none else some b.text

end PinBoard
