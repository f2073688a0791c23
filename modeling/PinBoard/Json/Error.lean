/-!
# Reading errors

What can go wrong when a JSON text is read as a value of a given kind: the text breaks the
grammar, or a well-formed part of it is not of the kind expected. `Error.message` is the one
place that words them.
-/

namespace PinBoard.Json

/-! ## What was found and what was expected -/

/-- What a reader met in place of the value it expected; the text of a string or number is
already in its shown form. -/
inductive Found where
  | null
  | bool (value : Bool)
  | integer (value : Int)
  | floating (shown : String)
  | string (shown : String)
  | sequence
  | map
  deriving DecidableEq, Repr

/-- The wording of what was met. -/
def Found.message : Found → String
  | .null => "null"
  | .bool true => "boolean `true`"
  | .bool false => "boolean `false`"
  | .integer n => "integer `" ++ toString n ++ "`"
  | .floating shown => "floating point `" ++ shown ++ "`"
  | .string shown => "string " ++ shown
  | .sequence => "sequence"
  | .map => "map"

/-- What a reader expected. -/
inductive Expected where
  | string
  | boolean
  | signed
  | unsigned
  | size
  | sequence
  | unit
  | variant
  | variantForm
  | record (name : String)
  deriving DecidableEq, Repr

/-- The wording of what was expected. -/
def Expected.message : Expected → String
  | .string => "a string"
  | .boolean => "a boolean"
  | .signed => "i64"
  | .unsigned => "u64"
  | .size => "usize"
  | .sequence => "a sequence"
  | .unit => "unit"
  | .variant => "variant identifier"
  | .variantForm => "string or map"
  | .record name => "struct " ++ name

/-! ## Errors -/

/-- Why a value could not be read. -/
inductive Error where
  | eofValue
  | eofString
  | eofList
  | eofObject
  | expectedValue
  | expectedIdent
  | expectedColon
  | expectedListSeparator
  | expectedObjectSeparator
  | keyNotString
  | trailingComma
  | trailingCharacters
  | invalidNumber
  | numberOutOfRange
  | invalidEscape
  | controlCharacter
  | loneSurrogate
  | unfinishedSurrogate
  | notUnicode
  | tooDeep
  | invalidType (found : Found) (expected : Expected)
  | invalidValue (found : Found) (expected : Expected)
  | invalidLength (count : Nat) (record : String) (elements : Nat)
  | missingField (key : String)
  | duplicateField (key : String)
  | unknownVariant (name : String) (known : List String)
  /-- An array of so many items, more than the record has fields. -/
  | extraItems (count : Nat)
  /-- A value that can name no variant. -/
  | notVariant (found : Found)
  /-- An object in the place of a variant that has not exactly one key. -/
  | notOneKey
  | noVariant (name : String)
  deriving DecidableEq, Repr

/-- Puts a name between back quotes. -/
def ticked (name : String) : String :=
  "`" ++ name ++ "`"

/-- The wording of a list of alternatives. -/
def alternatives : List String → String
  | [] => "there are no variants"
  | [one] => "expected " ++ ticked one
  | [one, two] => "expected " ++ ticked one ++ " or " ++ ticked two
  | many => "expected one of " ++ ", ".intercalate (many.map ticked)

/-- The wording of an error in a text, without the line and the column that stand behind it. -/
def Error.message : Error → String
  | .eofValue => "EOF while parsing a value"
  | .eofString => "EOF while parsing a string"
  | .eofList => "EOF while parsing a list"
  | .eofObject => "EOF while parsing an object"
  | .expectedValue => "expected value"
  | .expectedIdent => "expected ident"
  | .expectedColon => "expected `:`"
  | .expectedListSeparator => "expected `,` or `]`"
  | .expectedObjectSeparator => "expected `,` or `\x7d`"
  | .keyNotString => "key must be a string"
  | .trailingComma => "trailing comma"
  | .trailingCharacters => "trailing characters"
  | .invalidNumber => "invalid number"
  | .numberOutOfRange => "number out of range"
  | .invalidEscape => "invalid escape"
  | .controlCharacter => "control character (\\u0000-\\u001F) found while parsing a string"
  | .loneSurrogate => "lone leading surrogate in hex escape"
  | .unfinishedSurrogate => "unexpected end of hex escape"
  | .notUnicode => "invalid unicode code point"
  | .tooDeep => "recursion limit exceeded"
  | .invalidType found expected =>
    "invalid type: " ++ found.message ++ ", expected " ++ expected.message
  | .invalidValue found expected =>
    "invalid value: " ++ found.message ++ ", expected " ++ expected.message
  | .invalidLength count record elements =>
    "invalid length " ++ toString count ++ ", expected struct " ++ record ++ " with " ++
      toString elements ++ (if elements = 1 then " element" else " elements")
  | .missingField key => "missing field " ++ ticked key
  | .duplicateField key => "duplicate field " ++ ticked key
  | .unknownVariant name known =>
    "unknown variant " ++ ticked name ++ ", " ++ alternatives known
  | .extraItems _ => "trailing characters"
  | .notVariant _ => "expected value"
  | .notOneKey => "expected value"
  | .noVariant name => "data did not match any variant of untagged enum " ++ name

/-- The wording of an error in a value that was handed over as a whole. There nothing is in the
place of something else, so what a text shows as a misplaced symbol is told by what was found. -/
def Error.heldMessage : Error → String
  | .extraItems count =>
    "invalid length " ++ toString count ++ ", expected fewer elements in array"
  | .notVariant found => (Error.invalidType found .variantForm).message
  | .notOneKey => "invalid value: map, expected map with a single key"
  | e => e.message

end PinBoard.Json
