import PinBoard.Http.Body
import PinBoard.Url.Segment

/-!
# Requests and replies

What is handed over to be sent to a service, and what the sending comes to. How it is sent is left
to whoever sends it: redirects are followed there, and headers of responses are seen there only.
-/

namespace PinBoard.Http

/-- How a service is asked. -/
inductive Method where
  | get
  | post
  deriving DecidableEq, Repr

/-- The word for a method. -/
def Method.word : Method → String
  | .get => "GET"
  | .post => "POST"

/-- A request as it is handed over to be sent. Two things that sending does to it are no part of it:
a user that the address names is taken out of the address and becomes an authorization in front of
the one that stands here, and an address of more than 65534 bytes is refused. -/
structure Request where
  method : Method
  url : Url
  authorization : Option String
  userAgent : String
  contentType : Option String
  body : Option String
  deriving DecidableEq, Repr

/-- The address as messages show it: who asks is no part of it. -/
def Request.shownUrl (r : Request) : String :=
  r.url.withoutUser.toText

/-- What the sending of a request comes to. Where redirects were followed it is the last response;
of the headers of a response, such as a character set that it declares, nothing is known. -/
inductive Reply where
  /-- No connection was made, so nothing was sent. -/
  | unreachable
  /-- The connection was closed without a response. -/
  | dropped
  | response (status : Nat) (body : Body)
  deriving DecidableEq, Repr

/-- What the sending comes to for each request that is handed over. -/
abbrev Responder := Request → Reply

/-- A response; two statuses never have a body. -/
def Reply.ofParts (status : Nat) (body : Body) : Reply :=
  .response status (if status = 204 || status = 304 then .complete [] else body)

/-- Whether a text may be the value of a header: of the controls it may hold tabs only. -/
def isHeaderValue (s : String) : Bool :=
  s.toList.all fun c => c = '\t' || (0x20 ≤ c.toNat && c.toNat ≠ 0x7F)

end PinBoard.Http
