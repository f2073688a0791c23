import PinBoard.Listen

/-!
# Pinned recordings

The recording on show on a profile, until its time is over.
-/

namespace PinBoard

/-- A recording pinned on a profile; times are in seconds since the epoch. -/
structure PinnedRecording where
  rowId : Int64
  recordingMsid : String
  recordingMbid : Option String
  blurbContent : Option String
  created : Int64
  pinnedUntil : Int64
  trackMetadata : Option TrackMetadata
  deriving DecidableEq, Repr

/-- The 64-bit integer nearest to an integer. -/
def nearestInt64 (n : Int) : Int64 :=
  Int64.ofInt (max (-0x8000000000000000) (min n 0x7FFFFFFFFFFFFFFF))

/-- The days until the time of the pin is over, begun ones included; differences that 64 bits do
not hold are cut to the nearest that they do. -/
def PinnedRecording.daysRemaining (p : PinnedRecording) (now : Int64) : Int64 :=
  let left := max (nearestInt64 (p.pinnedUntil.toInt - now.toInt)).toInt 0
  Int64.ofInt ((nearestInt64 (left + (secondsPerDay - 1))).toInt / secondsPerDay)

end PinBoard
