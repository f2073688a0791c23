import PinBoard.Alert
import PinBoard.Wire.Session

/-!
# Alerts on the wire

A kind is written by its name.
-/

namespace PinBoard

open Json

/-! ## Kinds -/

/-- Reads the kind of an alert. -/
def AlertKind.decode : Decoder AlertKind := variant AlertKind.named

/-- Writes the kind of an alert. -/
def AlertKind.toJson (k : AlertKind) : Tree := .ofString k.name

/-! ## Alerts -/

/-- The fields of an alert. -/
inductive Alert.Field where
  | id
  | kind
  | title
  | message
  deriving DecidableEq

/-- What the fields of an alert hold. -/
def Alert.Field.Value : Alert.Field → Type
  | .id => UInt64
  | .kind => AlertKind
  | .title => String
  | .message => String

/-- How an alert is read. -/
def Alert.schema : Schema where
  name := "Alert"
  Field := Alert.Field
  fields := [.id, .kind, .title, .message]
  mem_fields f := by cases f <;> decide
  key
    | .id => "id"
    | .kind => "kind"
    | .title => "title"
    | .message => "message"
  Value := Alert.Field.Value
  decode
    | .id => fun tree => (uint64 tree).map UInt64.ofNat
    | .kind => AlertKind.decode
    | .title => text
    | .message => text
  absent _ := none
  cut _ := none

/-- The alert in a record. -/
def Alert.ofRecord (r : Alert.schema.Record) : Alert :=
  ⟨r .id, r .kind, r .title, r .message⟩

/-- Reads an alert. -/
def Alert.decode : Decoder Alert := fun tree =>
  (Alert.schema.read tree).map Alert.ofRecord

/-- Writes an alert. -/
def Alert.toJson (a : Alert) : Tree :=
  .ofMembers
    [("id", .ofUInt64 a.id), ("kind", a.kind.toJson), ("title", .ofString a.title),
     ("message", .ofString a.message)]

end PinBoard
