import PinBoard.Proofs.Wire.Listen
import PinBoard.Wire.Pin

/-!
# Pins, written and read

A pinned recording and a pin request are read back from what is written of them.
-/

namespace PinBoard

open Json

/-! ## Pinned recordings -/

/-- A pinned recording as a record. -/
def PinnedRecording.layout : Layout PinnedRecording where
  schema := PinnedRecording.schema
  fields :=
    { toFun p := fun
        | .rowId => p.rowId
        | .recordingMsid => p.recordingMsid
        | .recordingMbid => p.recordingMbid
        | .blurbContent => p.blurbContent
        | .created => p.created
        | .pinnedUntil => p.pinnedUntil
        | .trackMetadata => p.trackMetadata
      invFun := PinnedRecording.ofRecord
      left_inv _ := rfl
      right_inv r := by
        funext f
        cases f <;> rfl }
  keysDiffer f := by cases f <;> rfl
  nodup := by decide
  pass_eq := rfl

/-- How a pinned recording is written, field by field. -/
def PinnedRecording.written : (f : PinnedRecording.Field) → f.Value → Option Tree
  | .rowId => fun n => some (.ofInt64 n)
  | .recordingMsid => fun s => some (.ofString s)
  | .recordingMbid => fun o => some (.ofOption .ofString o)
  | .blurbContent => fun o => some (.ofOption .ofString o)
  | .created => fun n => some (.ofInt64 n)
  | .pinnedUntil => fun n => some (.ofInt64 n)
  | .trackMetadata => fun o => some (.ofOption TrackMetadata.toJson o)

/-- **Round trip of pinned recordings.** -/
theorem PinnedRecording.restores : Restores PinnedRecording.decode PinnedRecording.toJson := by
  refine PinnedRecording.layout.restores (w := PinnedRecording.written) fun f => ?_
  cases f with
  | rowId | created | pinnedUntil => exact restores_signed.always _
  | recordingMsid => exact restores_text.always _
  | recordingMbid | blurbContent => exact restores_text.orNull _
  | trackMetadata => exact TrackMetadata.restores.orNull _

theorem PinnedRecording.mindsGrammar : MindsGrammar PinnedRecording.decode := by
  apply PinnedRecording.layout.mindsGrammar
  intro f
  cases f with
  | rowId | created | pinnedUntil => exact mindsGrammar_signed
  | recordingMsid => exact mindsGrammar_text
  | recordingMbid | blurbContent => exact mindsGrammar_text.optional
  | trackMetadata => exact TrackMetadata.mindsGrammar.optional

/-! ## Pin requests -/

/-- A pin request as a record. -/
def PinRequest.layout : Layout PinRequest where
  schema := PinRequest.schema
  fields :=
    { toFun r := fun
        | .recordingMsid => r.recordingMsid
        | .blurbContent => r.blurbContent
        | .pinnedUntil => r.pinnedUntil
      invFun := PinRequest.ofRecord
      left_inv _ := rfl
      right_inv r := by
        funext f
        cases f <;> rfl }
  keysDiffer f := by cases f <;> rfl
  nodup := by decide
  pass_eq := rfl

/-- How a pin request is written, field by field. -/
def PinRequest.written : (f : PinRequest.Field) → f.Value → Option Tree
  | .recordingMsid => fun s => some (.ofString s)
  | .blurbContent => fun o => some (.ofOption .ofString o)
  | .pinnedUntil => Option.map .ofInt64

theorem PinRequest.toJson_eq (r : PinRequest) :
    r.toJson = .ofMembers (PinRequest.layout.members PinRequest.written r) := by
  obtain ⟨msid, blurb, due⟩ := r
  cases due <;> rfl

/-- **Round trip of pin requests.** -/
theorem PinRequest.restores : Restores PinRequest.decode PinRequest.toJson := by
  rw [funext PinRequest.toJson_eq]
  refine PinRequest.layout.restores fun f => ?_
  cases f with
  | recordingMsid => exact restores_text.always _
  | blurbContent => exact restores_text.orNull _
  | pinnedUntil => exact restores_signed.orLeftOut

end PinBoard
