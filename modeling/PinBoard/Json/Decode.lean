import PinBoard.Json.Document
import PinBoard.Text.Quoted

/-!
# Readers of trees

A reader turns a tree into a value or names the first thing that is wrong with it, in the order of
the text. `skip` is the reader of a value nobody asked for: it minds the grammar and nothing
else.
-/

namespace PinBoard.Json

/-- A reader of values of type `α`. -/
abbrev Decoder (α : Type) := Tree → Except Error α

/-! ## Values nobody asked for -/

/-- The error of a break for a reader that passes over the value. -/
def Fault.passed : Fault → Error
  | .ended => .eofValue
  | .foreign => .expectedValue
  | .word e => e
  | .number _ e => e
  | .string _ e => e
  | .colon e => e

/-- The error of a break for a reader that takes the value. -/
def Fault.read : Fault → Error
  | .ended => .eofValue
  | .foreign => .expectedValue
  | .word e => e
  | .number e _ => e
  | .string e _ => e
  | .colon e => e

/-- The error of something that stands in the place of a key, for a reader that passes over the
object. -/
def Tree.passedKey : Tree → Error
  | .broken (.string _ e) => e
  | _ => .keyNotString

/-- The error of something that stands in the place of a key, for a reader that takes the
object. -/
def Tree.readKey : Tree → Error
  | .broken (.string e _) => e
  | _ => .keyNotString

mutual

/-- Passes over a value. -/
def skip : Tree → Except Error Unit
  | .array items => skipItems items
  | .object members => skipMembers members
  | .broken fault => .error fault.passed
  | _ => .ok ()

/-- Passes over the items of an array. -/
def skipItems : Items → Except Error Unit
  | .closed => .ok ()
  | .ended => .error .eofList
  | .foreign => .error .expectedListSeparator
  | .comma => .error .expectedValue
  | .cons item rest => do skip item; skipItems rest

/-- Passes over the members of an object. -/
def skipMembers : Members → Except Error Unit
  | .closed => .ok ()
  | .ended => .error .eofObject
  | .foreign => .error .expectedObjectSeparator
  | .comma => .error .keyNotString
  | .commaEnded => .error .eofObject
  | .noKey found => .error found.passedKey
  | .cons _ value rest => do skip value; skipMembers rest

end

/-! ## Values kept as they are -/

/-- The greatest number of arrays and objects that may stand inside of each other in a value that
is kept, the outermost included. -/
def maxDepth : Nat := 127

mutual

/-- Keeps a value of whatever kind, with at most `depth` arrays and objects inside of each
other. -/
def keep (depth : Nat) : Tree → Except Error Unit
  | .null => .ok ()
  | .bool _ => .ok ()
  | .number n => n.value.map fun _ => ()
  | .string t => t.map fun _ => ()
  | .array is => if depth = 0 then .error .tooDeep else keepItems (depth - 1) is
  | .object ms => if depth = 0 then .error .tooDeep else keepMembers (depth - 1) ms
  | .broken fault => .error fault.read

/-- Keeps the items of an array. -/
def keepItems (depth : Nat) : Items → Except Error Unit
  | .closed => .ok ()
  | .ended => .error .eofList
  | .foreign => .error .expectedListSeparator
  | .comma => .error .trailingComma
  | .cons item rest => do keep depth item; keepItems depth rest

/-- Keeps the members of an object. -/
def keepMembers (depth : Nat) : Members → Except Error Unit
  | .closed => .ok ()
  | .ended => .error .eofObject
  | .foreign => .error .expectedObjectSeparator
  | .comma => .error .trailingComma
  | .commaEnded => .error .eofValue
  | .noKey found => .error found.readKey
  | .cons key value rest => do
    let _ ← key
    keep depth value
    keepMembers depth rest

end

/-! ## Leaves -/

/-- The error of a value that is not of the kind expected. -/
def mismatch (expected : Expected) : Tree → Error
  | .null => .invalidType .null expected
  | .bool b => .invalidType (.bool b) expected
  | .number n =>
    match n.value with
    | .ok number => .invalidType number.found expected
    | .error e => e
  | .string (.ok s) => .invalidType (.string (Text.quoted s)) expected
  | .string (.error e) => e
  | .array _ => .invalidType .sequence expected
  | .object _ => .invalidType .map expected
  | .broken fault => fault.read

/-- Reads a string. -/
def text : Decoder String
  | .string t => t
  | tree => .error (mismatch .string tree)

/-- Reads a truth value. -/
def bool : Decoder Bool
  | .bool b => .ok b
  | tree => .error (mismatch .boolean tree)

/-- Reads an integer between two bounds. -/
def integer (expected : Expected) (low high : Int) : Decoder Int
  | .number n =>
    match n.value with
    | .ok (.integer v) =>
      if low ≤ v && v ≤ high then .ok v else .error (.invalidValue (.integer v) expected)
    | .ok number => .error (.invalidType number.found expected)
    | .error e => .error e
  | tree => .error (mismatch expected tree)

/-- Reads a 64-bit integer with a sign. -/
def int64 : Decoder Int := integer .signed (-(maxSigned : Int) - 1) maxSigned

/-- Reads a 64-bit integer without a sign. -/
def uint64 : Decoder Nat := fun tree => (integer .unsigned 0 maxUnsigned tree).map Int.toNat

/-- Reads a 64-bit count. -/
def size : Decoder Nat := fun tree => (integer .size 0 maxUnsigned tree).map Int.toNat

/-- Reads the value that carries nothing. -/
def unit : Decoder Unit
  | .null => .ok ()
  | tree => .error (mismatch .unit tree)

/-! ## Composite values -/

/-- Reads a value that may be `null`. -/
def optional {α : Type} (d : Decoder α) : Decoder (Option α)
  | .null => .ok none
  | tree => (d tree).map some

/-- Reads the items of an array. -/
def items {α : Type} (d : Decoder α) : Items → Except Error (List α)
  | .closed => .ok []
  | .ended => .error .eofList
  | .foreign => .error .expectedListSeparator
  | .comma => .error .trailingComma
  | .cons item rest => do
    let head ← d item
    let tail ← items d rest
    .ok (head :: tail)

/-- Reads an array. -/
def list {α : Type} (d : Decoder α) : Decoder (List α)
  | .array is => items d is
  | tree => .error (mismatch .sequence tree)

/-- The variant of a given name. -/
def variantNamed {α : Type} (known : List (String × α)) (name : String) : Except Error α :=
  match known.lookup name with
  | some variant => .ok variant
  | none => .error (.unknownVariant name (known.map (·.1)))

/-- Reads one of several named variants: its name, or an object whose one key is the name and
whose value carries nothing. -/
def variant {α : Type} (known : List (String × α)) : Decoder α
  | .string t => do variantNamed known (← t)
  | .object members =>
    match members with
    | .cons key value rest => do
      let found ← variantNamed known (← key)
      unit value
      match rest with
      | .closed => .ok found
      | .ended => .error .eofObject
      | _ => .error .notOneKey
    | .noKey found => .error (mismatch .variant found)
    | .ended => .error .eofValue
    | _ => .error .notOneKey
  | .broken .ended => .error .eofValue
  | .broken (.string e _) => .error e
  | .broken (.colon e) => .error e
  | .broken _ => .error .expectedValue
  | .number n =>
    match n.value with
    | .ok number => .error (.notVariant number.found)
    | .error _ => .error .expectedValue
  | .null => .error (.notVariant .null)
  | .bool b => .error (.notVariant (.bool b))
  | .array _ => .error (.notVariant .sequence)

/-! ## Documents -/

/-- Reads a document: a value and nothing behind it. -/
def Document.decode {α : Type} (d : Decoder α) (document : Document) : Except Error α := do
  let value ← d document.tree
  if document.followed then .error .trailingCharacters else .ok value

/-- Reads a string as a document. -/
def ofString {α : Type} (d : Decoder α) (s : String) : Except Error α :=
  (Document.ofSource (Source.ofString s)).decode d

/-- Reads bytes as a document. -/
def ofBytes {α : Type} (d : Decoder α) (bytes : List UInt8) : Except Error α :=
  (Document.ofSource (Source.ofBytes bytes)).decode d

end PinBoard.Json
