import PinBoard.Json.Record
import PinBoard.Json.Writer
import PinBoard.Listen

/-!
# Listens on the wire

What is missing is left out when a listen is written, and anything may be left out when one is
read.
-/

namespace PinBoard

open Json

/-! ## Integers -/

/-- Reads a 64-bit integer with a sign. -/
def Json.signed : Decoder Int64 := fun tree => (int64 tree).map Int64.ofInt

/-- Writes a 64-bit integer with a sign. -/
def Json.Tree.ofInt64 (n : Int64) : Tree := Tree.ofInt n.toInt

/-! ## Additional identifiers -/

/-- The fields of the additional identifiers. -/
inductive AdditionalInfo.Field where
  | recordingMsid
  | recordingMbid
  | releaseMbid
  | artistMbids
  deriving DecidableEq

/-- What the fields of the additional identifiers hold. -/
def AdditionalInfo.Field.Value : AdditionalInfo.Field → Type
  | .artistMbids => List String
  | _ => Option String

/-- How the additional identifiers are read. -/
def AdditionalInfo.schema : Schema where
  name := "AdditionalInfo"
  Field := AdditionalInfo.Field
  fields := [.recordingMsid, .recordingMbid, .releaseMbid, .artistMbids]
  mem_fields f := by cases f <;> decide
  key
    | .recordingMsid => "recording_msid"
    | .recordingMbid => "recording_mbid"
    | .releaseMbid => "release_mbid"
    | .artistMbids => "artist_mbids"
  Value := AdditionalInfo.Field.Value
  decode
    | .recordingMsid => optional text
    | .recordingMbid => optional text
    | .releaseMbid => optional text
    | .artistMbids => list text
  absent
    | .recordingMsid => some none
    | .recordingMbid => some none
    | .releaseMbid => some none
    | .artistMbids => some []
  cut
    | .recordingMsid => some none
    | .recordingMbid => some none
    | .releaseMbid => some none
    | .artistMbids => some []

/-- The additional identifiers in a record. -/
def AdditionalInfo.ofRecord (r : AdditionalInfo.schema.Record) : AdditionalInfo :=
  ⟨r .recordingMsid, r .recordingMbid, r .releaseMbid, r .artistMbids⟩

/-- Reads the additional identifiers. -/
def AdditionalInfo.decode : Decoder AdditionalInfo := fun tree =>
  (AdditionalInfo.schema.read tree).map AdditionalInfo.ofRecord

/-- Writes the additional identifiers. -/
def AdditionalInfo.toJson (i : AdditionalInfo) : Tree :=
  .ofMembers <|
    member? "recording_msid" .ofString i.recordingMsid ++
    member? "recording_mbid" .ofString i.recordingMbid ++
    member? "release_mbid" .ofString i.releaseMbid ++
    if i.artistMbids.isEmpty then []
    else [("artist_mbids", .ofList (i.artistMbids.map .ofString))]

/-! ## Track metadata -/

/-- The fields of track metadata. -/
inductive TrackMetadata.Field where
  | trackName
  | artistName
  | releaseName
  | additionalInfo
  deriving DecidableEq

/-- What the fields of track metadata hold. -/
def TrackMetadata.Field.Value : TrackMetadata.Field → Type
  | .additionalInfo => Option AdditionalInfo
  | _ => Option String

/-- How track metadata are read. -/
def TrackMetadata.schema : Schema where
  name := "TrackMetadata"
  Field := TrackMetadata.Field
  fields := [.trackName, .artistName, .releaseName, .additionalInfo]
  mem_fields f := by cases f <;> decide
  key
    | .trackName => "track_name"
    | .artistName => "artist_name"
    | .releaseName => "release_name"
    | .additionalInfo => "additional_info"
  Value := TrackMetadata.Field.Value
  decode
    | .trackName => optional text
    | .artistName => optional text
    | .releaseName => optional text
    | .additionalInfo => optional AdditionalInfo.decode
  absent
    | .trackName => some none
    | .artistName => some none
    | .releaseName => some none
    | .additionalInfo => some none
  cut
    | .trackName => some none
    | .artistName => some none
    | .releaseName => some none
    | .additionalInfo => some none

/-- The track metadata in a record. -/
def TrackMetadata.ofRecord (r : TrackMetadata.schema.Record) : TrackMetadata :=
  ⟨r .trackName, r .artistName, r .releaseName, r .additionalInfo⟩

/-- Reads track metadata. -/
def TrackMetadata.decode : Decoder TrackMetadata := fun tree =>
  (TrackMetadata.schema.read tree).map TrackMetadata.ofRecord

/-- Writes track metadata. -/
def TrackMetadata.toJson (m : TrackMetadata) : Tree :=
  .ofMembers <|
    member? "track_name" .ofString m.trackName ++
    member? "artist_name" .ofString m.artistName ++
    member? "release_name" .ofString m.releaseName ++
    member? "additional_info" AdditionalInfo.toJson m.additionalInfo

/-! ## Listens -/

/-- The fields of a listen. -/
inductive Listen.Field where
  | listenedAt
  | recordingMsid
  | userName
  | trackMetadata
  deriving DecidableEq

/-- What the fields of a listen hold. -/
def Listen.Field.Value : Listen.Field → Type
  | .listenedAt => Option Int64
  | .trackMetadata => TrackMetadata
  | _ => Option String

/-- How a listen is read. -/
def Listen.schema : Schema where
  name := "Listen"
  Field := Listen.Field
  fields := [.listenedAt, .recordingMsid, .userName, .trackMetadata]
  mem_fields f := by cases f <;> decide
  key
    | .listenedAt => "listened_at"
    | .recordingMsid => "recording_msid"
    | .userName => "user_name"
    | .trackMetadata => "track_metadata"
  Value := Listen.Field.Value
  decode
    | .listenedAt => optional signed
    | .recordingMsid => optional text
    | .userName => optional text
    | .trackMetadata => TrackMetadata.decode
  absent
    | .listenedAt => some none
    | .recordingMsid => some none
    | .userName => some none
    | .trackMetadata => some TrackMetadata.unknown
  cut
    | .listenedAt => some none
    | .recordingMsid => some none
    | .userName => some none
    | .trackMetadata => some TrackMetadata.unknown

/-- The listen in a record. -/
def Listen.ofRecord (r : Listen.schema.Record) : Listen :=
  ⟨r .listenedAt, r .recordingMsid, r .userName, r .trackMetadata⟩

/-- Reads a listen. -/
def Listen.decode : Decoder Listen := fun tree =>
  (Listen.schema.read tree).map Listen.ofRecord

/-- Writes a listen. -/
def Listen.toJson (l : Listen) : Tree :=
  .ofMembers <|
    member? "listened_at" .ofInt64 l.listenedAt ++
    member? "recording_msid" .ofString l.recordingMsid ++
    member? "user_name" .ofString l.userName ++
    [("track_metadata", l.trackMetadata.toJson)]

end PinBoard
