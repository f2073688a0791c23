import PinBoard.Calendar

/-!
# Listens

One playing of a recording as the listening history tells it. Listens come from any client
whatever, so nothing about them is certain to be known.
-/

namespace PinBoard

/-- Identifiers that came with a listen. -/
structure AdditionalInfo where
  recordingMsid : Option String
  recordingMbid : Option String
  releaseMbid : Option String
  artistMbids : List String
  deriving DecidableEq, Repr

/-- What is known of the track that was played. -/
structure TrackMetadata where
  trackName : Option String
  artistName : Option String
  releaseName : Option String
  additionalInfo : Option AdditionalInfo
  deriving DecidableEq, Repr

/-- One playing of a recording; the time is in seconds since the epoch. -/
structure Listen where
  listenedAt : Option Int64
  recordingMsid : Option String
  userName : Option String
  trackMetadata : TrackMetadata
  deriving DecidableEq, Repr

/-! ## Nothing known -/

/-- No identifiers. -/
def AdditionalInfo.unknown : AdditionalInfo := ⟨none, none, none, []⟩

/-- A track of which nothing is known. -/
def TrackMetadata.unknown : TrackMetadata := ⟨none, none, none, none⟩

/-- A listen of which nothing is known. -/
def Listen.unknown : Listen := ⟨none, none, none, TrackMetadata.unknown⟩

/-! ## What a listen tells -/

/-- The name of the track. -/
def Listen.trackName (l : Listen) : Option String := l.trackMetadata.trackName

/-- The name of the artist. -/
def Listen.artistName (l : Listen) : Option String := l.trackMetadata.artistName

/-- The identifier under which the recording can be pinned: the one among the additional
identifiers, not the one beside the time. -/
def Listen.pinnableMsid (l : Listen) : Option String :=
  l.trackMetadata.additionalInfo.bind (·.recordingMsid)

/-- The time of the listen as it is shown. -/
def Listen.shownTime (l : Listen) : Option String :=
  l.listenedAt.bind fun t => minuteText? t.toInt

end PinBoard
