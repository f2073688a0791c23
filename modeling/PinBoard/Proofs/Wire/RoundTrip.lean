import PinBoard.Proofs.Wire.Alert
import PinBoard.Proofs.Wire.Pin
import PinBoard.Proofs.Wire.Session

/-!
# Texts that are read back

What the types exchange as text arrives as it was sent. A text that came from elsewhere may be
spelled in other ways, but once it was read, writing and reading change nothing any more.
-/

namespace PinBoard

open Json

/-- What is written is read back, and from the first writing on the text stays the same. -/
structure RoundTrips {α : Type} (d : Decoder α) (w : α → Tree) : Prop where
  read_written : ∀ a, ofString d (w a).toText = .ok a
  written_again : ∀ text a, ofString d text = .ok a →
    ∃ b, ofString d (w a).toText = .ok b ∧ (w b).toText = (w a).toText

/-- A writer and a reader that agree on trees agree on texts. -/
theorem Json.Restores.roundTrips {α : Type} {d : Decoder α} {w : α → Tree} (h : Restores d w) :
    RoundTrips d w := by
  have hread : ∀ a, ofString d (w a).toText = .ok a := fun a => by
    rw [ofString_toText d (h.isWritable a), h.read a]
  exact ⟨hread, fun _ a _ => ⟨a, hread a, rfl⟩⟩

/-- **Round trip of texts.**  Listens, pins, alerts and sessions, and what they are made of, are
read back from their texts, whatever strings, numbers and missing values they hold. -/
theorem wire_roundTrips :
    RoundTrips AdditionalInfo.decode AdditionalInfo.toJson ∧
    RoundTrips TrackMetadata.decode TrackMetadata.toJson ∧
    RoundTrips Listen.decode Listen.toJson ∧
    RoundTrips PinnedRecording.decode PinnedRecording.toJson ∧
    RoundTrips PinRequest.decode PinRequest.toJson ∧
    RoundTrips AlertKind.decode AlertKind.toJson ∧
    RoundTrips Alert.decode Alert.toJson ∧
    RoundTrips Account.decode Account.toJson ∧
    RoundTrips Claims.decode Claims.toJson :=
  ⟨AdditionalInfo.restores.roundTrips, TrackMetadata.restores.roundTrips,
    Listen.restores.roundTrips, PinnedRecording.restores.roundTrips,
    PinRequest.restores.roundTrips, AlertKind.restores.roundTrips, Alert.restores.roundTrips,
    Account.restores.roundTrips, Claims.restores.roundTrips⟩

end PinBoard
