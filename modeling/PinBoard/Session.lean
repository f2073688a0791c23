/-!
# Sessions

The claims that a session token makes, and the account that the browser is told about. The token
by which the account acts is part of both.
-/

namespace PinBoard

/-- What the browser knows about the user who is logged in; the time is in seconds since the
epoch. -/
structure Account where
  userName : String
  token : String
  expiresAt : Int64
  deriving DecidableEq, Repr

/-- What a session token says: whose it is, which token it acts with, when it was issued and when
it expires. -/
structure Claims where
  subject : String
  token : String
  issuedAt : UInt64
  expiresAt : UInt64
  deriving DecidableEq, Repr

/-- The account of a session. The expiry is read as a 64-bit integer with a sign, so one beyond
`2 ^ 63` turns negative. -/
def Claims.account (c : Claims) : Account :=
  ⟨c.subject, c.token, c.expiresAt.toInt64⟩

/-- The days that a session lasts. -/
def sessionDays : Nat := 30

/-- The seconds that a session lasts. -/
def sessionSeconds : Nat := sessionDays * 86400

/-- The claims of a session that is issued at a given second. -/
def Claims.issue (userName token : String) (now : Nat) : Claims :=
  ⟨userName, token, UInt64.ofNat now, UInt64.ofNat (now + sessionSeconds)⟩

end PinBoard
