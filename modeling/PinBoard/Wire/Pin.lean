import PinBoard.Pin.Recording
import PinBoard.Pin.Request
import PinBoard.Wire.Listen

/-!
# Pins on the wire

A pinned recording is written with all its fields. In a pin request only the end may be left out
of an array; an object may leave out the blurb too.
-/

namespace PinBoard

open Json

/-! ## Pinned recordings -/

/-- The fields of a pinned recording. -/
inductive PinnedRecording.Field where
  | rowId
  | recordingMsid
  | recordingMbid
  | blurbContent
  | created
  | pinnedUntil
  | trackMetadata
  deriving DecidableEq

/-- What the fields of a pinned recording hold. -/
def PinnedRecording.Field.Value : PinnedRecording.Field → Type
  | .rowId => Int64
  | .recordingMsid => String
  | .recordingMbid => Option String
  | .blurbContent => Option String
  | .created => Int64
  | .pinnedUntil => Int64
  | .trackMetadata => Option TrackMetadata

/-- How a pinned recording is read. -/
def PinnedRecording.schema : Schema where
  name := "PinnedRecording"
  Field := PinnedRecording.Field
  fields :=
    [.rowId, .recordingMsid, .recordingMbid, .blurbContent, .created, .pinnedUntil, .trackMetadata]
  mem_fields f := by cases f <;> decide
  key
    | .rowId => "row_id"
    | .recordingMsid => "recording_msid"
    | .recordingMbid => "recording_mbid"
    | .blurbContent => "blurb_content"
    | .created => "created"
    | .pinnedUntil => "pinned_until"
    | .trackMetadata => "track_metadata"
  Value := PinnedRecording.Field.Value
  decode
    | .rowId => signed
    | .recordingMsid => text
    | .recordingMbid => optional text
    | .blurbContent => optional text
    | .created => signed
    | .pinnedUntil => signed
    | .trackMetadata => optional TrackMetadata.decode
  absent
    | .rowId => none
    | .recordingMsid => none
    | .recordingMbid => some none
    | .blurbContent => some none
    | .created => none
    | .pinnedUntil => none
    | .trackMetadata => some none
  cut
    | .rowId => none
    | .recordingMsid => none
    | .recordingMbid => some none
    | .blurbContent => some none
    | .created => none
    | .pinnedUntil => none
    | .trackMetadata => some none

/-- The pinned recording in a record. -/
def PinnedRecording.ofRecord (r : PinnedRecording.schema.Record) : PinnedRecording :=
  ⟨r .rowId, r .recordingMsid, r .recordingMbid, r .blurbContent, r .created, r .pinnedUntil,
    r .trackMetadata⟩

/-- Reads a pinned recording. -/
def PinnedRecording.decode : Decoder PinnedRecording := fun tree =>
  (PinnedRecording.schema.read tree).map PinnedRecording.ofRecord

/-- Writes a pinned recording. -/
def PinnedRecording.toJson (p : PinnedRecording) : Tree :=
  .ofMembers
    [("row_id", .ofInt64 p.rowId),
     ("recording_msid", .ofString p.recordingMsid),
     ("recording_mbid", .ofOption .ofString p.recordingMbid),
     ("blurb_content", .ofOption .ofString p.blurbContent),
     ("created", .ofInt64 p.created),
     ("pinned_until", .ofInt64 p.pinnedUntil),
     ("track_metadata", .ofOption TrackMetadata.toJson p.trackMetadata)]

/-! ## Pin requests -/

/-- The fields of a pin request. -/
inductive PinRequest.Field where
  | recordingMsid
  | blurbContent
  | pinnedUntil
  deriving DecidableEq

/-- What the fields of a pin request hold. -/
def PinRequest.Field.Value : PinRequest.Field → Type
  | .recordingMsid => String
  | .blurbContent => Option String
  | .pinnedUntil => Option Int64

/-- How a pin request is read. -/
def PinRequest.schema : Schema where
  name := "PinRequest"
  Field := PinRequest.Field
  fields := [.recordingMsid, .blurbContent, .pinnedUntil]
  mem_fields f := by cases f <;> decide
  key
    | .recordingMsid => "recording_msid"
    | .blurbContent => "blurb_content"
    | .pinnedUntil => "pinned_until"
  Value := PinRequest.Field.Value
  decode
    | .recordingMsid => text
    | .blurbContent => optional text
    | .pinnedUntil => optional signed
  absent
    | .recordingMsid => none
    | .blurbContent => some none
    | .pinnedUntil => some none
  cut
    | .recordingMsid => none
    | .blurbContent => none
    | .pinnedUntil => some none

/-- The pin request in a record. -/
def PinRequest.ofRecord (r : PinRequest.schema.Record) : PinRequest :=
  ⟨r .recordingMsid, r .blurbContent, r .pinnedUntil⟩

/-- Reads a pin request. -/
def PinRequest.decode : Decoder PinRequest := fun tree =>
  (PinRequest.schema.read tree).map PinRequest.ofRecord

/-- Writes a pin request; an end that is not set is left out. -/
def PinRequest.toJson (r : PinRequest) : Tree :=
  .ofMembers <|
    [("recording_msid", .ofString r.recordingMsid),
     ("blurb_content", .ofOption .ofString r.blurbContent)] ++
    member? "pinned_until" .ofInt64 r.pinnedUntil

end PinBoard
