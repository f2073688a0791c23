import PinBoard.Json.Decode

/-!
# Records

A record is read from an object, whose members may come in any order and may include unknown
ones, or from an array of its fields in the order of their declaration. A schema says once for a
record what its fields are; the two ways of reading are shared by all of them.
-/

namespace PinBoard.Json

/-! ## Schemas -/

/-- The fields of a record and how each is read. -/
structure Schema where
  name : String
  Field : Type
  [decEq : DecidableEq Field]
  /-- The fields in the order of their declaration. -/
  fields : List Field
  mem_fields : ∀ f, f ∈ fields
  key : Field → String
  Value : Field → Type
  decode : (f : Field) → Decoder (Value f)
  /-- The value of a field that an object leaves out, if it may. -/
  absent : (f : Field) → Option (Value f)
  /-- The value of a field that an array ends before, if it may. -/
  cut : (f : Field) → Option (Value f)
  /-- How the value behind an unknown key is passed over. -/
  pass : Decoder Unit := skip

instance (S : Schema) : DecidableEq S.Field := S.decEq

/-- A record under way: the fields that were read so far. -/
abbrev Schema.Draft (S : Schema) := (f : S.Field) → Option (S.Value f)

/-- A record all of whose fields are there. -/
abbrev Schema.Record (S : Schema) := (f : S.Field) → S.Value f

/-- The draft in which no field was read. -/
def Schema.blank (S : Schema) : S.Draft := fun _ => none

/-- Sets a field of a draft. -/
def Schema.set (S : Schema) (draft : S.Draft) (f : S.Field) (v : S.Value f) : S.Draft :=
  fun g => if h : f = g then some (h ▸ v) else draft g

/-- The field of a given key. -/
def Schema.field? (S : Schema) (key : String) : Option S.Field :=
  S.fields.find? (fun f => S.key f = key)

/-- A draft with the values of the fields that were left out. -/
def Schema.filled (S : Schema) (draft : S.Draft) : S.Draft :=
  fun f => (draft f).or (S.absent f)

/-- The record of a draft; of the fields that may not be left out the first one missing is
reported. -/
def Schema.complete (S : Schema) (draft : S.Draft) : Except Error S.Record :=
  match h : S.fields.find? (fun f => (S.filled draft f).isNone) with
  | some f => .error (.missingField (S.key f))
  | none => .ok fun f => (S.filled draft f).get (by
      have := List.find?_eq_none.mp h f (S.mem_fields f)
      simpa [Option.isSome_iff_ne_none] using this)

/-! ## From an object -/

/-- Reads the members of an object into a draft. -/
def Schema.members (S : Schema) (draft : S.Draft) : Members → Except Error S.Draft
  | .closed => .ok draft
  | .ended => .error .eofObject
  | .foreign => .error .expectedObjectSeparator
  | .comma => .error .trailingComma
  | .commaEnded => .error .eofValue
  | .noKey found => .error found.readKey
  | .cons key value rest => do
    match S.field? (← key) with
    | none => do
      S.pass value
      S.members draft rest
    | some f =>
      if (draft f).isSome then .error (.duplicateField (S.key f))
      else do
        let v ← S.decode f value
        S.members (S.set draft f v) rest

/-! ## From an array -/

/-- What may stand behind the last of `count` fields: the bracket and nothing else. -/
def arrayEnd (count : Nat) : Items → Except Error Unit
  | .closed => .ok ()
  | .ended => .error .eofList
  | .comma => .error .trailingComma
  | .foreign => .error .trailingCharacters
  | .cons _ rest => .error (.extraItems (count + 1 + rest.length))

/-- Reads the items of an array into the fields that are due. -/
def Schema.items (S : Schema) (draft : S.Draft) : List S.Field → Items → Except Error S.Draft
  | [], is => do
    arrayEnd S.fields.length is
    .ok draft
  | f :: due, is =>
    match is with
    | .cons item rest => do
      let v ← S.decode f item
      S.items (S.set draft f v) due rest
    | .closed =>
      match S.cut f with
      | some v => S.items (S.set draft f v) due .closed
      | none =>
        .error (.invalidLength (S.fields.length - (due.length + 1)) S.name S.fields.length)
    | .ended => .error .eofList
    | .foreign => .error .expectedListSeparator
    | .comma => .error .trailingComma

/-! ## Reading -/

/-- Reads a record from an object. -/
def Schema.ofMembers (S : Schema) (ms : Members) : Except Error S.Record := do
  S.complete (← S.members S.blank ms)

/-- Reads a record. -/
def Schema.read (S : Schema) : Decoder S.Record
  | .object ms => S.ofMembers ms
  | .array is => do S.complete (← S.items S.blank S.fields is)
  | tree => .error (mismatch (.record S.name) tree)

end PinBoard.Json
