import PinBoard.Calendar
import PinBoard.Digest.Hmac
import PinBoard.Text.Utf8
import PinBoard.Token.Error
import PinBoard.Token.Header
import PinBoard.Token.Registered
import PinBoard.Wire.Session

/-!
# Session tokens

A token has three parts between dots: a header, the claims, and the code that authenticates the
first two. Issuing writes the parts, verifying takes them apart again and checks them from left to
right: the header, the signature, the claims, the expiry.
-/

namespace PinBoard.Token

open Json

/-! ## Issuing -/

/-- The written form of a text as a part of a token. -/
def part (s : List Char) : List Char :=
  Base64Url.encode (Text.Utf8.encodeChars s)

/-- The signature of the first two parts of a token under a secret. -/
def signature (secret : String) (message : List Char) : List Char :=
  Base64Url.encode (Digest.hmac (Text.Utf8.encode secret) (Text.Utf8.encodeChars message))

/-- The token that carries the given claims. -/
def sign (secret : String) (claims : Claims) : String :=
  let message := part headerText.toList ++ '.' :: part claims.toJson.write
  String.ofList (message ++ '.' :: signature secret message)

/-- What is said of a session that would not end on any date. -/
def noExpiryDateMessage : String := "expiration out of range"

/-- A token for a user who logs in at a given second, and what the browser is told; there is none
when no date is left for its expiry. -/
def issue (secret : String) (now : Nat) (userName token : String) : Option (String × Account) :=
  if (now + sessionSeconds : Nat) ≤ lastSecond then
    let claims := Claims.issue userName token now
    some (sign secret claims, claims.account)
  else none

/-! ## Taking apart -/

/-- What stands before and behind the last dot. -/
def splitLastDot (cs : List Char) : Option (List Char × List Char) :=
  let behind := cs.reverse.takeWhile (· ≠ '.')
  match cs.reverse.dropWhile (· ≠ '.') with
  | _ :: before => some (before.reverse, behind.reverse)
  | [] => none

/-- The parts of a token: the header, the claims and the signature. -/
structure Parts where
  header : List Char
  claims : List Char
  signature : List Char

/-- The part of a token that is signed. -/
def Parts.message (p : Parts) : List Char :=
  p.header ++ '.' :: p.claims

/-- Takes a token apart at its last two dots. -/
def Parts.ofChars? (cs : List Char) : Option Parts := do
  let (message, signature) ← splitLastDot cs
  let (header, claims) ← splitLastDot message
  some ⟨header, claims, signature⟩

/-- Reads symbols of a token as bytes. -/
def bytesOfPart (cs : List Char) : Except Error (List UInt8) :=
  (Base64Url.decode (Text.Utf8.encodeChars cs)).mapError .base64

/-- Reads bytes of a token as a value. -/
def readPart {α : Type} (d : Decoder α) (bytes : List UInt8) : Except Error α :=
  (ofBytes d bytes).mapError .json

/-! ## Verifying -/

/-- The seconds for which a token is still accepted after its expiry. -/
def leeway : Nat := 60

/-- Checks the registered claims: the expiry has to be there and not be over, and a token meant
for an audience is meant for somebody else. -/
def checkRegistered (now : Nat) (r : Registered.schema.Record) : Except Error Unit :=
  match r .exp with
  | .value exp =>
    if exp + leeway < now then .error .expired
    else
      match r .aud with
      | .value _ => .error .audience
      | _ => .ok ()
  | _ => .error .noExpiry

/-- The claims of a token that was signed with the secret and is not over at the given second. -/
def verify (secret : String) (now : Nat) (token : String) : Except Error Claims := do
  match Parts.ofChars? token.toList with
  | none => .error .parts
  | some p => do
    let algorithm ← readPart algorithm (← bytesOfPart p.header)
    if algorithm ≠ signingAlgorithm then .error .algorithm
    else do
      let signature ← bytesOfPart p.signature
      let expected :=
        Digest.hmac (Text.Utf8.encode secret) (Text.Utf8.encodeChars p.message)
      if signature ≠ expected then .error .signature
      else do
        let bytes ← bytesOfPart p.claims
        let claims ← readPart Claims.decode bytes
        checkRegistered now (← readPart Registered.schema.read bytes)
        .ok claims

end PinBoard.Token
