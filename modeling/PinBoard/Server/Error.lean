import PinBoard.Service.Failure

/-!
# Server errors

What the browser learns when a function of the server fails: usually the server's own words and a
status, otherwise that something went wrong on the way.
-/

namespace PinBoard

/-- What can go wrong on the way to a function of the server and back. -/
inductive Passage where
  | arguments
  | missingArgument
  | results
  | serialization
  | registration
  | stream
  | middleware
  | response
  | method
  deriving DecidableEq, Repr

/-- Why a function of the server failed. -/
inductive ServerError where
  /-- The server's own words and a status. -/
  | answered (message : String) (code : Nat)
  | passage (place : Passage) (message : String)
  deriving DecidableEq, Repr

/-- The wording of what went wrong on the way. -/
def Passage.display (message : String) : Passage → String
  | .arguments => "error deserializing server function arguments: " ++ message
  | .missingArgument => "missing argument " ++ message
  | .results => "error deserializing server function results: " ++ message
  | .serialization => "error serializing server function arguments: " ++ message
  | .registration => "error while trying to register the server function: " ++ message
  | .stream => "error reading response body stream: " ++ message
  | .middleware => "error running middleware: " ++ message
  | .response => "error creating response " ++ message
  | .method => "error trying to build `HTTP` method request: " ++ message

/-- The full wording of an error. -/
def ServerError.display : ServerError → String
  | .answered message _ => "error running server function: " ++ message ++ " (details: None)"
  | .passage place message => place.display message

/-- What is shown of an error: the server's words where there are any. -/
def ServerError.shown : ServerError → String
  | .answered message _ => message
  | e => e.display

/-- Whether an error says that nobody is logged in. -/
def ServerError.isUnauthorized : ServerError → Bool
  | .answered _ code => code = 401
  | .passage _ _ => false

/-- The status of an error that has none of its own. -/
def internalError : Nat := 500

/-- The error of a failure inside the server. -/
def ServerError.internal (message : String) : ServerError :=
  .answered message internalError

/-- The error of a failure of the service, with its status where it has one. -/
def ServerError.ofFailure (e : Service.Failure) : ServerError :=
  .answered e.message (e.status.getD internalError)

/-- The error of a kind of service that is not there. -/
def ServerError.unavailable (what : String) : ServerError :=
  .answered ("No " ++ what ++ " configured") 503

end PinBoard
