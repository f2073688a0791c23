import PinBoard.Proofs.Json.Minding
import PinBoard.Wire.Listen

/-!
# Listens, written and read

A listen, its track metadata and their additional identifiers are each read back from what is
written of them, and nothing but the texts of trees is read as one.
-/

namespace PinBoard

open Json

/-! ## Integers -/

/-- An integer of 64 bits is read back. -/
theorem restores_signed : Restores signed .ofInt64 := by
  refine restores_ofInt fun n => ?_
  obtain ⟨hlow, hhigh⟩ := toInt_mem_signed n
  rw [signed, int64_ofInt hlow hhigh, Except.map, Int64.ofInt_toInt]

/-- An integer of 64 bits is read of numbers only. -/
theorem mindsGrammar_signed : MindsGrammar signed := (mindsGrammar_integer _ _ _).map Int64.ofInt

/-! ## Additional identifiers -/

/-- The additional identifiers as a record. -/
def AdditionalInfo.layout : Layout AdditionalInfo where
  schema := AdditionalInfo.schema
  fields :=
    { toFun i := fun
        | .recordingMsid => i.recordingMsid
        | .recordingMbid => i.recordingMbid
        | .releaseMbid => i.releaseMbid
        | .artistMbids => i.artistMbids
      invFun := AdditionalInfo.ofRecord
      left_inv _ := rfl
      right_inv r := by
        funext f
        cases f <;> rfl }
  keysDiffer f := by cases f <;> rfl
  nodup := by decide
  pass_eq := rfl

/-- How the additional identifiers are written, field by field. -/
def AdditionalInfo.written : (f : AdditionalInfo.Field) → f.Value → Option Tree
  | .recordingMsid => Option.map .ofString
  | .recordingMbid => Option.map .ofString
  | .releaseMbid => Option.map .ofString
  | .artistMbids => fun ids => if ids.isEmpty then none else some (.ofList (ids.map .ofString))

theorem AdditionalInfo.toJson_eq (i : AdditionalInfo) :
    i.toJson = .ofMembers (AdditionalInfo.layout.members AdditionalInfo.written i) := by
  obtain ⟨msid, mbid, release, artists⟩ := i
  cases msid <;> cases mbid <;> cases release <;> cases artists <;> rfl

/-- **Round trip of additional identifiers.** -/
theorem AdditionalInfo.restores : Restores AdditionalInfo.decode AdditionalInfo.toJson := by
  rw [funext AdditionalInfo.toJson_eq]
  refine AdditionalInfo.layout.restores fun f => ?_
  cases f with
  | recordingMsid | recordingMbid | releaseMbid => exact restores_text.orLeftOut
  | artistMbids => exact restores_text.listOrLeftOut

theorem AdditionalInfo.mindsGrammar : MindsGrammar AdditionalInfo.decode := by
  apply AdditionalInfo.layout.mindsGrammar
  intro f
  cases f with
  | recordingMsid | recordingMbid | releaseMbid => exact mindsGrammar_text.optional
  | artistMbids => exact mindsGrammar_text.list

/-! ## Track metadata -/

/-- Track metadata as a record. -/
def TrackMetadata.layout : Layout TrackMetadata where
  schema := TrackMetadata.schema
  fields :=
    { toFun m := fun
        | .trackName => m.trackName
        | .artistName => m.artistName
        | .releaseName => m.releaseName
        | .additionalInfo => m.additionalInfo
      invFun := TrackMetadata.ofRecord
      left_inv _ := rfl
      right_inv r := by
        funext f
        cases f <;> rfl }
  keysDiffer f := by cases f <;> rfl
  nodup := by decide
  pass_eq := rfl

/-- How track metadata are written, field by field. -/
def TrackMetadata.written : (f : TrackMetadata.Field) → f.Value → Option Tree
  | .trackName => Option.map .ofString
  | .artistName => Option.map .ofString
  | .releaseName => Option.map .ofString
  | .additionalInfo => Option.map AdditionalInfo.toJson

theorem TrackMetadata.toJson_eq (m : TrackMetadata) :
    m.toJson = .ofMembers (TrackMetadata.layout.members TrackMetadata.written m) := by
  obtain ⟨track, artist, release, info⟩ := m
  cases track <;> cases artist <;> cases release <;> cases info <;> rfl

/-- **Round trip of track metadata.** -/
theorem TrackMetadata.restores : Restores TrackMetadata.decode TrackMetadata.toJson := by
  rw [funext TrackMetadata.toJson_eq]
  refine TrackMetadata.layout.restores fun f => ?_
  cases f with
  | trackName | artistName | releaseName => exact restores_text.orLeftOut
  | additionalInfo => exact AdditionalInfo.restores.orLeftOut

theorem TrackMetadata.mindsGrammar : MindsGrammar TrackMetadata.decode := by
  apply TrackMetadata.layout.mindsGrammar
  intro f
  cases f with
  | trackName | artistName | releaseName => exact mindsGrammar_text.optional
  | additionalInfo => exact AdditionalInfo.mindsGrammar.optional

/-! ## Listens -/

/-- A listen as a record. -/
def Listen.layout : Layout Listen where
  schema := Listen.schema
  fields :=
    { toFun l := fun
        | .listenedAt => l.listenedAt
        | .recordingMsid => l.recordingMsid
        | .userName => l.userName
        | .trackMetadata => l.trackMetadata
      invFun := Listen.ofRecord
      left_inv _ := rfl
      right_inv r := by
        funext f
        cases f <;> rfl }
  keysDiffer f := by cases f <;> rfl
  nodup := by decide
  pass_eq := rfl

/-- How a listen is written, field by field. -/
def Listen.written : (f : Listen.Field) → f.Value → Option Tree
  | .listenedAt => Option.map .ofInt64
  | .recordingMsid => Option.map .ofString
  | .userName => Option.map .ofString
  | .trackMetadata => fun m => some m.toJson

theorem Listen.toJson_eq (l : Listen) :
    l.toJson = .ofMembers (Listen.layout.members Listen.written l) := by
  obtain ⟨time, msid, user, track⟩ := l
  cases time <;> cases msid <;> cases user <;> rfl

/-- **Round trip of listens.** -/
theorem Listen.restores : Restores Listen.decode Listen.toJson := by
  rw [funext Listen.toJson_eq]
  refine Listen.layout.restores fun f => ?_
  cases f with
  | listenedAt => exact restores_signed.orLeftOut
  | recordingMsid | userName => exact restores_text.orLeftOut
  | trackMetadata => exact TrackMetadata.restores.always _

theorem Listen.mindsGrammar : MindsGrammar Listen.decode := by
  apply Listen.layout.mindsGrammar
  intro f
  cases f with
  | listenedAt => exact mindsGrammar_signed.optional
  | recordingMsid | userName => exact mindsGrammar_text.optional
  | trackMetadata => exact TrackMetadata.mindsGrammar

end PinBoard
