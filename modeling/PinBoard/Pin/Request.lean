/-!
# Pin requests

What is sent to pin a recording. Without an end the pin lasts for the time that the service
chooses.
-/

namespace PinBoard

/-- A request to pin a recording. -/
structure PinRequest where
  recordingMsid : String
  blurbContent : Option String
  pinnedUntil : Option Int64
  deriving DecidableEq, Repr

/-- A request that leaves the end of the pin to the service. -/
def PinRequest.untilDefault (recordingMsid : String) (blurbContent : Option String) : PinRequest :=
  ⟨recordingMsid, blurbContent, none⟩

end PinBoard
