import PinBoard.Auth
import PinBoard.Pin.Dialog
import PinBoard.Server

/-!
# The browser

What the pages share: who is logged in, the alerts, and the cookies. Each function of the server is
called with the cookies at hand, and what it does to them is kept for the next call.
-/

namespace PinBoard

/-- What the program runs amid: the server, the time in seconds, and how the service replies. -/
structure Surroundings where
  server : Server
  now : Nat
  responder : Http.Responder

/-- What the pages share, and the requests that were sent for them to the service. -/
structure Browser where
  auth : Auth
  log : AlertLog
  jar : Option Jar
  sent : List Http.Request

namespace Browser

/-- The browser in which nothing happened, with the cookies it came with. -/
def fresh (jar : Option Jar) : Browser := ⟨none, .empty, jar, []⟩

/-! ## Calling the server -/

/-- Calls a function of the server. -/
def call {α : Type} (b : Browser) (s : Surroundings) (f : Server → Visit → Answer α) :
    Except ServerError α × Browser :=
  let answer := f s.server ⟨s.now, b.jar, s.responder⟩
  (answer.result, { b with jar := answer.jar, sent := b.sent ++ answer.sent })

/-- Calls a function of the server and takes notice if it says that nobody is logged in. -/
def heedfulCall {α : Type} (b : Browser) (s : Surroundings) (f : Server → Visit → Answer α) :
    Except ServerError α × Browser :=
  let (result, b) := b.call s f
  (result, { b with auth := b.auth.observe result })

/-! ## The session -/

/-- Finds out who is logged in; an error counts as nobody. -/
def lookUp (b : Browser) (s : Surroundings) : Browser :=
  match b.call s (·.currentUser ·) with
  | (.ok account, b) => { b with auth := account }
  | (.error _, b) => { b with auth := none }

/-- Logs in with a token of the service. -/
def logIn (b : Browser) (s : Surroundings) (token : String) : Except String Unit × Browser :=
  match b.call s (·.login · token) with
  | (.ok account, b) => (.ok (), { b with auth := b.auth.login account })
  | (.error e, b) => (.error e.shown, b)

/-- Logs out. -/
def logOut (b : Browser) (s : Surroundings) : Browser :=
  let (_, b) := b.call s (·.logout ·)
  { b with auth := b.auth.logout }

/-! ## Alerts -/

/-- Takes an alert off the stack. -/
def dismiss (b : Browser) (id : UInt64) : Browser :=
  { b with log := b.log.dismiss id }

/-! ## Pins -/

/-- Makes the call of a submission. -/
def sendPin (b : Browser) (s : Surroundings) (call : PinCall) : PinReply × Browser :=
  let (result, b) := b.heedfulCall s fun server visit =>
    server.submitPin visit call.token call.request.recordingMsid call.request.blurbContent
  (result.mapError (·.shown), b)

/-- Carries a submission out: its call is made if there is one, and the outcome is reported. -/
def carryOut (b : Browser) (s : Surroundings) (submission : Submission) : PinOutcome × Browser :=
  match submission.call with
  | none => (.skipped, b)
  | some call =>
    let (reply, b) := b.sendPin s call
    let outcome := submission.outcome reply
    (outcome, { b with log := outcome.report submission.recording b.log })

end Browser

/-- What comes of something a viewer does to the pin dialog: the dialog, the browser, and what came
of a submission if one was started. -/
def PinDialog.act (d : PinDialog) (b : Browser) (s : Surroundings) (ownsProfile : Bool)
    (recording : Option Listen) : PinDialog.Action → PinDialog × Browser × Option PinOutcome
  | .close => (d.close, b, none)
  | .edit raw => (d.edit raw, b, none)
  | .submit =>
    let (d, submission) := d.submit (b.auth.viewer ownsProfile) recording
    let (outcome, b) := b.carryOut s submission
    (d.settle submission outcome, b, some outcome)

end PinBoard
