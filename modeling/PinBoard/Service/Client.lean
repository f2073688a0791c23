import PinBoard.Http.Exchange
import PinBoard.Http.Status
import PinBoard.Service.Envelope
import PinBoard.Service.Failure
import PinBoard.Text.Blank
import PinBoard.Url.Parse

/-!
# The client of the service

A client knows the address below which the service is found. A call is prepared without being sent:
it is the request, or why there is none, together with the reading of any response. What comes
of it is decided by the reply alone.
-/

namespace PinBoard.Service

/-! ## Clients -/

/-- A client of the service. -/
structure Client where
  base : Url
  userAgent : String
  deriving DecidableEq, Repr

/-- How the program introduces itself. -/
def defaultUserAgent : String := "PinBeet/0.1.0 ( https://github.com/pinbeet/pinbeet )"

/-- A text without the slashes at its end. -/
def trimSlashes (s : String) : String :=
  String.ofList (s.toList.reverse.dropWhile (· = '/')).reverse

/-- Sets up a client. -/
def Client.build (baseUrl userAgent : Option String) : Except Failure Client :=
  match baseUrl with
  | none => .error .notConfigured
  | some text =>
    match Url.parse (trimSlashes text) with
    | .error e => .error (.url e)
    | .ok none => .error .invalidBase
    | .ok (some base) =>
      let agent := userAgent.getD defaultUserAgent
      if Http.isHeaderValue agent then .ok ⟨base, agent⟩ else .error (.request .unfit)

/-! ## Calls -/

/-- A call that is prepared: its request, and what a response to it comes to. -/
structure Call (α : Type) where
  request : Except Failure Http.Request
  read : Nat → Http.Body → Except Failure α

/-- What comes of a call. -/
def Call.result {α : Type} (c : Call α) (responder : Http.Responder) : Except Failure α :=
  match c.request with
  | .error e => .error e
  | .ok request =>
    match responder request with
    | .response status body => c.read status body
    | .dropped | .unreachable => .error (.request (.unanswered request.shownUrl))

/-- The requests that are handed over for a call and reach somebody: none if it could not be
prepared or nobody was reached. What is asked besides where a redirect is followed does not
count. -/
def Call.sent {α : Type} (c : Call α) (responder : Http.Responder) : List Http.Request :=
  match c.request with
  | .error _ => []
  | .ok request =>
    match responder request with
    | .response _ _ | .dropped => [request]
    | .unreachable => []

/-! ## Preparing requests -/

/-- The address of an endpoint, given by segments below the base. -/
def Client.endpoint (c : Client) (segments : List String) : Url :=
  c.base.extend ("1" :: segments)

/-- The value of the header that carries a token. -/
def tokenHeader (token : String) : String := "Token " ++ token

/-- Whether requests can be sent by a scheme. -/
def isSendable (scheme : String) : Bool :=
  scheme = "http" || scheme = "https"

/-- Prepares a request, with a token and a body where they are given. A user that the base names
stays in the address, and an address of any length is taken: what becomes of either is up to the
sending, see `Http.Request`. -/
def Client.prepare (c : Client) (method : Http.Method) (url : Url) (token body : Option String) :
    Except Failure Http.Request :=
  let request : Http.Request :=
    { method := method
      url := url
      authorization := token.map tokenHeader
      userAgent := c.userAgent
      contentType := body.map fun _ => "application/json"
      body := body }
  if token.all Http.isHeaderValue then
    if isSendable url.scheme then .ok request
    else .error (.request (.unfitAddress request.shownUrl))
  else .error (.request .unfit)

/-! ## Reading responses -/

/-- What stands in for the body of an error that broke off. -/
def unreadBody : String := "Could not read error body"

/-- What the service says with a status that is no success: the error it names, the phrase of the
status when it says nothing, or all that it says. -/
def apiMessage (status : Nat) (body : Http.Body) : String :=
  let text := body.text?.getD unreadBody
  match Json.ofString errorText text with
  | .ok message => message
  | .error _ => if Text.IsAllBlank text then Http.reason status else text

/-- Lets a success pass. -/
def checkStatus (status : Nat) (body : Http.Body) : Except Failure Unit :=
  if Http.isSuccess status then .ok () else .error (.api status (apiMessage status body))

/-- What stands before the wording of what is wrong with an answer. -/
def parseErrorMark : String := "JSON parse error: "

/-- Reads the body of a success. -/
def readBody {α : Type} (d : Json.Decoder α) (status : Nat) (body : Http.Body) :
    Except Failure α := do
  checkStatus status body
  match body.text? with
  | none => .error (.request .brokenOff)
  | some text =>
    match Json.ofString d text with
    | .ok value => .ok value
    | .error e => .error (.api status (parseErrorMark ++ e.message))

/-- Reads nothing but the status of a success. -/
def readStatus (status : Nat) (body : Http.Body) : Except Failure Nat := do
  checkStatus status body
  .ok status

/-! ## The calls -/

/-- Pins a recording for the owner of a token. -/
def Client.submitPin (c : Client) (token : String) (request : PinRequest) : Call Nat where
  request := c.prepare .post (c.endpoint ["pin"]) (some token) (some request.toJson.toText)
  read := readStatus

/-- Takes the pin off the profile of the owner of a token. -/
def Client.unpin (c : Client) (token : String) : Call Nat where
  request := c.prepare .post (c.endpoint ["pin", "unpin"]) (some token) none
  read := readStatus

/-- Asks for the pin on a profile. -/
def Client.currentPin (c : Client) (userName : String) : Call (Option PinnedRecording) where
  request := c.prepare .get (c.endpoint [userName, "pins", "current"]) none none
  read := readBody Service.currentPin

/-- The greatest number of listens that the service gives at once. -/
def maxListens : Nat := 1000

/-- The number of listens that is asked for. -/
def askedListens (count : Nat) : Nat := max 1 (min count maxListens)

/-- Asks for the latest listens of a profile. -/
def Client.recentListens (c : Client) (userName : String) (count : Nat) : Call (List Listen) where
  request :=
    let url := (c.endpoint ["user", userName, "listens"]).addPair "count"
      (toString (askedListens count))
    c.prepare .get url none none
  read := readBody Service.recentListens

/-- Asks whose token it is. -/
def Client.validateToken (c : Client) (token : String) : Call String where
  request := c.prepare .get (c.endpoint ["validate-token"]) (some token) none
  read status body := do
    let check ← readBody TokenCheck.decode status body
    match check.owner with
    | some name => .ok name
    | none => .error .invalidToken

/-! ## What the client is known as -/

/-- The identifier of the service. -/
def serviceId : String := "listenbrainz"

/-- The name of the service. -/
def serviceName : String := "ListenBrainz"

end PinBoard.Service
