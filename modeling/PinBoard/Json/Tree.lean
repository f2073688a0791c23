import PinBoard.Json.Numeral

/-!
# JSON trees

A text is read into a tree before anything is asked of its values. The tree of a text that breaks
the grammar ends at the break and says what stands there, because a reader that takes a value and
one that passes over it notice different things first.
-/

namespace PinBoard.Json

/-! ## Faults -/

/-- What stands in the place of a value that cannot be finished. -/
inductive Fault where
  /-- The text ends here. -/
  | ended
  /-- A symbol that starts no value. -/
  | foreign
  /-- A word that is no literal. -/
  | word (error : Error)
  /-- A number that breaks off, as it looks when it is read and when it is passed over. -/
  | number (read passed : Error)
  /-- A string that breaks off, as it looks when it is read and when it is passed over. -/
  | string (read passed : Error)
  /-- The key is there, the colon behind it is not. -/
  | colon (error : Error)
  deriving DecidableEq, Repr

/-- A text between quotes, or why it cannot be taken although its end was found. -/
abbrev Text := Except Error String

/-! ## Trees -/

mutual

/-- The tree of a text, up to its first break. -/
inductive Tree where
  | null
  | bool (value : Bool)
  | number (spelling : Numeral)
  | string (text : Text)
  | array (items : Items)
  | object (members : Members)
  | broken (fault : Fault)

/-- The items of an array, and how they end: at the bracket, with the text, at a symbol that
separates nothing, or at a bracket behind a comma. -/
inductive Items where
  | closed
  | ended
  | foreign
  | comma
  | cons (item : Tree) (rest : Items)

/-- The members of an object, and how they end: as the items of an array do, with the text behind
a comma, or at something that is no key. -/
inductive Members where
  | closed
  | ended
  | foreign
  | comma
  | commaEnded
  | noKey (found : Tree)
  | cons (key : Text) (value : Tree) (rest : Members)

end

/-- The number of items. -/
def Items.length : Items → Nat
  | .cons _ rest => rest.length + 1
  | _ => 0

/-! ## Documents -/

/-- A text as a whole: its tree and whether anything but blanks follows. -/
structure Document where
  tree : Tree
  followed : Bool

end PinBoard.Json
