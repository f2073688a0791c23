import PinBoard.Pin.Submission
import PinBoard.Server.Error
import PinBoard.Session

/-!
# Who is logged in

What the browser holds of the user. It is forgotten on logout, and as soon as the server says that
nobody is logged in.
-/

namespace PinBoard

/-- The account of the user who is logged in, if anybody is. -/
abbrev Auth := Option Account

namespace Auth

/-! ## Changes -/

/-- Logs in. -/
def login (_ : Auth) (account : Account) : Auth := some account

/-- Logs out, whatever the server says to it. -/
def logout (_ : Auth) : Auth := none

/-- Takes notice of an error. -/
def heed (a : Auth) (e : ServerError) : Auth :=
  if e.isUnauthorized then none else a

/-- Takes notice of the result of a call of the server. -/
def observe {α : Type} (a : Auth) : Except ServerError α → Auth
  | .ok _ => a
  | .error e => a.heed e

/-! ## Questions -/

/-- Whether anybody is logged in. -/
def isLoggedIn (a : Auth) : Bool := a.isSome

/-- The name of the user. -/
def userName (a : Auth) : Option String := a.map (·.userName)

/-- The token that the user acts with. -/
def token (a : Auth) : Option String := a.map (·.token)

/-- A text in which ASCII letters are lower case. -/
def lowerAscii (s : String) : List Char := s.toList.map Char.toLower

/-- Whether the user is the owner of a profile; names are the same up to the case of ASCII
letters. -/
def owns (a : Auth) (profile : String) : Bool :=
  a.any fun account => lowerAscii account.userName = lowerAscii profile

/-- The user as a viewer of a profile. -/
def viewer (a : Auth) (ownsProfile : Bool) : Viewer := ⟨a.token, ownsProfile⟩

end Auth

end PinBoard
