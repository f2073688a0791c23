import PinBoard.Alert
import PinBoard.Listen
import PinBoard.Pin.Blurb
import PinBoard.Pin.Request

/-!
# Submitting a pin

Only the owner of a profile who holds a token may pin on it. A submission is prepared from what is
known when it starts, its call is made by somebody else, and its settlement says what becomes
of the blurb and what is reported.
-/

namespace PinBoard

/-! ## The viewer -/

/-- What the submission needs to know about the viewer. -/
structure Viewer where
  token : Option String
  ownsProfile : Bool
  deriving DecidableEq, Repr

/-- The token to act with, if the viewer may pin on the profile at all. -/
def Viewer.pinToken (v : Viewer) : Option String :=
  if v.ownsProfile then v.token.filter (!·.isEmpty) else none

/-! ## The call -/

/-- The call that a submission makes. -/
structure PinCall where
  token : String
  request : PinRequest
  deriving DecidableEq, Repr

/-- The call for a recording, if the viewer may make it. An identifier that is not known is sent
as an empty one. -/
def pinCall? (viewer : Viewer) (recording : Option Listen) (blurb : Blurb) : Option PinCall :=
  viewer.pinToken.map fun token =>
    ⟨token, .untilDefault ((recording.bind Listen.pinnableMsid).getD "") blurb.content⟩

/-- How a call settled: with a status, or with the text of an error. -/
abbrev PinReply := Except String Nat

/-! ## The settlement -/

/-- What came of a submission. -/
inductive PinOutcome where
  /-- The viewer may not pin here; nothing was sent. -/
  | skipped
  | pinned
  /-- The call settled without an error but not with the status of success. -/
  | unhandledStatus (status : Nat)
  | failed (message : String)
  deriving DecidableEq, Repr

/-- Whether the blurb starts afresh: it does once the call settled without an error. -/
def PinOutcome.clearsBlurb : PinOutcome → Bool
  | .pinned | .unhandledStatus _ => true
  | .skipped | .failed _ => false

/-- The title of the alert for a pin that was made. -/
def pinnedTitle : String := "You pinned a recording!"

/-- The title of the alert for a pin that failed. -/
def pinFailedTitle : String := "Error while pinning recording"

/-- Artist and track as the alert for a pin names them. -/
def pinnedMessage (recording : Option Listen) : String :=
  (recording.bind Listen.artistName).getD "Unknown Artist" ++ " - " ++
    (recording.bind Listen.trackName).getD "Unknown Track"

/-- The outcome of a call that was made. -/
def PinOutcome.ofReply : PinReply → PinOutcome
  | .ok status => if status = 200 then .pinned else .unhandledStatus status
  | .error message => .failed message

/-- The log with what the outcome reports. -/
def PinOutcome.report (outcome : PinOutcome) (recording : Option Listen) (log : AlertLog) :
    AlertLog :=
  match outcome with
  | .pinned => log.push .success pinnedTitle (pinnedMessage recording)
  | .failed message => log.report message (some pinFailedTitle)
  | .skipped | .unhandledStatus _ => log

/-- The blurb after a submission. -/
def PinOutcome.blurbAfter (outcome : PinOutcome) (blurb : Blurb) : Blurb :=
  if outcome.clearsBlurb then .empty else blurb

/-! ## Submissions -/

/-- A submission that was started: the recording, the blurb and the call as they were then. -/
structure Submission where
  recording : Option Listen
  blurb : Blurb
  call : Option PinCall
  deriving DecidableEq

/-- Starts a submission. -/
def Submission.start (viewer : Viewer) (recording : Option Listen) (blurb : Blurb) : Submission :=
  ⟨recording, blurb, pinCall? viewer recording blurb⟩

/-- What comes of a submission, given how its call settled if it was made. -/
def Submission.outcome (s : Submission) (reply : PinReply) : PinOutcome :=
  match s.call with
  | none => .skipped
  | some _ => .ofReply reply

/-- The blurb that a submission hands back with an outcome, made of the one of its start. -/
def Submission.handedBack (s : Submission) (outcome : PinOutcome) : Blurb :=
  outcome.blurbAfter s.blurb

end PinBoard
