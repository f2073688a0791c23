import PinBoard.Base64Url
import PinBoard.Json.Error

/-!
# Refused tokens

Why a session token is not accepted.
-/

namespace PinBoard.Token

/-- Why a token is not accepted. -/
inductive Error where
  /-- There are fewer than three parts. -/
  | parts
  | base64 (e : Base64Url.Error)
  | json (e : Json.Error)
  | algorithm
  | signature
  | noExpiry
  | expired
  | audience
  deriving DecidableEq, Repr

/-- The wording of an error. -/
def Error.message : Error → String
  | .parts => "InvalidToken"
  | .base64 e => "Base64 error: " ++ e.message
  | .json e => "JSON error: " ++ e.message
  | .algorithm => "InvalidAlgorithm"
  | .signature => "InvalidSignature"
  | .noExpiry => "Missing required claim: exp"
  | .expired => "ExpiredSignature"
  | .audience => "InvalidAudience"

end PinBoard.Token
