import PinBoard.Url.Error

/-!
# Failures of the service

Why a call of the listening service, or the set-up of its client, came to nothing.
-/

namespace PinBoard.Service

/-- Why a request could not be made or its answer not be had. -/
inductive Fault where
  /-- The request cannot be made up. -/
  | unfit
  /-- Requests cannot be sent to such an address. -/
  | unfitAddress (url : String)
  /-- The request was not answered. -/
  | unanswered (url : String)
  /-- The answer broke off. -/
  | brokenOff
  deriving DecidableEq, Repr

/-- The wording of a fault. -/
def Fault.message : Fault → String
  | .unfit => "builder error"
  | .unfitAddress url => "builder error for url (" ++ url ++ ")"
  | .unanswered url => "error sending request for url (" ++ url ++ ")"
  | .brokenOff => "error decoding response body"

/-- Why a call came to nothing. -/
inductive Failure where
  | request (fault : Fault)
  | url (e : Url.Error)
  | invalidBase
  /-- The service answered, but not with what was asked for. -/
  | api (status : Nat) (message : String)
  | notConfigured
  | invalidToken
  deriving DecidableEq, Repr

/-- The wording of a failure. -/
def Failure.message : Failure → String
  | .request fault => "Request failed: " ++ fault.message
  | .url e => "Invalid URL: " ++ e.message
  | .invalidBase => "Base URL cannot be used to build API paths"
  | .api _ message => message
  | .notConfigured => "ListenBrainz client is not configured"
  | .invalidToken => "Invalid ListenBrainz user token"

/-- The status that goes with a failure. -/
def Failure.status : Failure → Option Nat
  | .api status _ => some status
  | .invalidToken => some 401
  | .request _ | .url _ | .invalidBase | .notConfigured => none

end PinBoard.Service
