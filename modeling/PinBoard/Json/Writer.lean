import PinBoard.Json.Document

/-!
# Writing trees

Writes a tree without blanks. A string escapes quotes, backslashes and controls and nothing
else. What is broken off in a tree has no written form.
-/

namespace PinBoard.Json

/-! ## Leaves -/

/-- The written form of a character inside a string. -/
def escapeChar (c : Char) : List Char :=
  if c = '"' then ['\\', '"']
  else if c = '\\' then ['\\', '\\']
  else if c = '\x08' then ['\\', 'b']
  else if c = '\t' then ['\\', 't']
  else if c = '\n' then ['\\', 'n']
  else if c = '\x0c' then ['\\', 'f']
  else if c = '\r' then ['\\', 'r']
  else if c.toNat < 0x20 then
    ['\\', 'u', '0', '0', Nat.digitChar (c.toNat / 16), Nat.digitChar (c.toNat % 16)]
  else [c]

/-- The written form of a string. -/
def writeString (s : String) : List Char :=
  '"' :: s.toList.flatMap escapeChar ++ ['"']

/-- The written form of a numeral. -/
def Numeral.write (n : Numeral) : List Char :=
  (if n.negative then ['-'] else []) ++ n.whole ++
    (match n.fraction with
      | some digits => '.' :: digits
      | none => []) ++
    match n.exponent with
    | some (negative, digits) => 'e' :: (if negative then ['-'] else []) ++ digits
    | none => []

/-! ## Trees -/

mutual

/-- The written form of a tree. -/
def Tree.write : Tree → List Char
  | .null => ['n', 'u', 'l', 'l']
  | .bool true => ['t', 'r', 'u', 'e']
  | .bool false => ['f', 'a', 'l', 's', 'e']
  | .number n => n.write
  | .string (.ok s) => writeString s
  | .string (.error _) => []
  | .array items => '[' :: items.write ++ [']']
  | .object members => '\x7b' :: members.write ++ ['\x7d']
  | .broken _ => []

/-- The written form of the items of an array, with commas between them. -/
def Items.write : Items → List Char
  | .cons item .closed => item.write
  | .cons item rest => item.write ++ ',' :: rest.write
  | _ => []

/-- The written form of the members of an object, with commas between them. -/
def Members.write : Members → List Char
  | .cons (.ok key) value .closed => writeString key ++ ':' :: value.write
  | .cons (.ok key) value rest => writeString key ++ ':' :: value.write ++ ',' :: rest.write
  | _ => []

end

/-- The text of a tree. -/
def Tree.toText (t : Tree) : String :=
  String.ofList t.write

/-! ## Building trees -/

/-- The tree of a string. -/
def Tree.ofString (s : String) : Tree := .string (.ok s)

/-- The tree of an integer. -/
def Tree.ofInt (n : Int) : Tree := .number (Numeral.ofInt n)

/-- The tree of a value that may be missing. -/
def Tree.ofOption {α : Type} (f : α → Tree) : Option α → Tree
  | none => .null
  | some a => f a

/-- The items of a list of trees. -/
def Items.ofList : List Tree → Items
  | [] => .closed
  | t :: ts => .cons t (Items.ofList ts)

/-- The members of a list of keys and values. -/
def Members.ofList : List (String × Tree) → Members
  | [] => .closed
  | (key, value) :: rest => .cons (.ok key) value (Members.ofList rest)

/-- The tree of a list. -/
def Tree.ofList (ts : List Tree) : Tree := .array (Items.ofList ts)

/-- The tree of a record, member by member. -/
def Tree.ofMembers (ms : List (String × Tree)) : Tree := .object (Members.ofList ms)

/-- The member of a field that is left out when its value is missing. -/
def member? {α : Type} (key : String) (f : α → Tree) : Option α → List (String × Tree)
  | none => []
  | some a => [(key, f a)]

end PinBoard.Json
