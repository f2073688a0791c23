import PinBoard.Text.Blank
import PinBoard.Text.Percent

/-!
# Cookies

The cookies that came with a request, and what is changed of them while it is answered.
-/

namespace PinBoard

/-! ## Reading -/

/-- A header that can be read as text: visible ASCII, spaces and tabs. -/
def isReadableHeader (s : String) : Bool :=
  s.toList.all fun c => c = '\t' || (0x20 ≤ c.toNat && c.toNat < 0x7F)

/-- A name and a value, with what is encoded in them decoded. -/
def cookie? (piece : List Char) : Option (String × String) :=
  match piece.dropWhile (· ≠ '=') with
  | _ :: value =>
    let name := Text.trimChars (piece.takeWhile (· ≠ '='))
    if name.isEmpty then none
    else do
      let name ← Text.percentDecode? (String.ofList name)
      let value ← Text.percentDecode? (String.ofList (Text.trimChars value))
      some (name, value)
  | [] => none

/-- The cookies of a header; pieces that are none are skipped. -/
def cookiesOfHeader (header : String) : List (String × String) :=
  if isReadableHeader header then (header.toList.splitOn ';').filterMap cookie? else []

/-! ## Jars -/

/-- The cookies of a request, the last one first, and the changes made to them: a new value, or none
for a cookie that is removed. -/
structure Jar where
  received : List (String × String)
  changes : List (String × Option String)
  deriving DecidableEq, Repr

/-- The jar of a request with the given cookie headers. -/
def Jar.ofHeaders (headers : List String) : Jar :=
  ⟨(headers.flatMap cookiesOfHeader).reverse, []⟩

/-- The value of a cookie; of two with one name the later counts. -/
def Jar.get? (jar : Jar) (name : String) : Option String :=
  match jar.changes.lookup name with
  | some change => change
  | none => jar.received.lookup name

/-- The jar with one change for a name. -/
def Jar.change (jar : Jar) (name : String) (value : Option String) : Jar :=
  { jar with changes := (name, value) :: jar.changes.filter (·.1 ≠ name) }

/-- Sets a cookie. -/
def Jar.set (jar : Jar) (name value : String) : Jar :=
  jar.change name (some value)

/-- Removes a cookie; one that did not come with the request needs no change to be gone. -/
def Jar.remove (jar : Jar) (name : String) : Jar :=
  if (jar.received.lookup name).isSome then jar.change name none
  else { jar with changes := jar.changes.filter (·.1 ≠ name) }

/-! ## The cookie of a session -/

/-- The name of the cookie that carries a session. -/
def sessionCookie : String := "auth_token"

/-- What a response says of a cookie. -/
structure SetCookie where
  name : String
  value : String
  path : String
  httpOnly : Bool
  sameSiteLax : Bool
  /-- The seconds for which it is kept. -/
  maxAge : Option Nat
  /-- The days from now until it expires. -/
  expiresInDays : Int
  deriving DecidableEq, Repr

/-- The response's part of a change: a session lasts for thirty days, a removed one expired a year
ago. -/
def SetCookie.ofChange : String × Option String → SetCookie
  | (name, some value) => ⟨name, value, "/", true, true, none, 30⟩
  | (name, none) => ⟨name, "", "/", false, false, some 0, -365⟩

/-- What a response says of the cookies that were changed. -/
def Jar.setCookies (jar : Jar) : List SetCookie :=
  jar.changes.reverse.map SetCookie.ofChange

end PinBoard
