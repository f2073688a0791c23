import PinBoard.Config
import PinBoard.Cookie
import PinBoard.Server.Error
import PinBoard.Service.Provider
import PinBoard.Token

/-!
# The server

The functions that the browser calls. A session lives in a cookie; who acts on a profile is decided
by the session alone, and a token that the browser sends along has to be the session's own. Each
function makes at most one call of the service.
-/

namespace PinBoard

/-! ## Servers and visits -/

/-- A server: its configuration and the services it uses. -/
structure Server where
  config : Config
  services : Service.Services

/-- The server of a configuration. -/
def Server.ofConfig (config : Config) : Except Service.Failure Server :=
  (Service.Client.build (some config.serviceUrl) none).map fun client =>
    ⟨config, client.services⟩

/-- The circumstances of a call: the time in seconds, the cookies unless nobody minds them, and how
the service replies if it is asked. -/
structure Visit where
  now : Nat
  jar : Option Jar
  responder : Http.Responder

/-- What a call comes to: its result, the cookies after it, and the requests sent to the service. -/
structure Answer (α : Type) where
  result : Except ServerError α
  jar : Option Jar
  sent : List Http.Request

/-- An answer that leaves the cookies alone and asks nobody. -/
def Visit.answer {α : Type} (v : Visit) (result : Except ServerError α) : Answer α :=
  ⟨result, v.jar, []⟩

/-- An answer that refuses. -/
def Visit.refuse {α : Type} (v : Visit) (message : String) (code : Nat) : Answer α :=
  v.answer (.error (.answered message code))

/-- The answer that the reply to a call of the service leads to. -/
def Visit.ask {α : Type} (v : Visit) (call : Service.Call α) : Answer α :=
  ⟨(call.result v.responder).mapError ServerError.ofFailure, v.jar, call.sent v.responder⟩

/-! ## The session -/

/-- The claims of the session that came with a visit. -/
def Server.session (s : Server) (v : Visit) : Except ServerError Claims :=
  match v.jar with
  | none => .error (.answered "Missing cookie middleware" 401)
  | some jar =>
    match jar.get? sessionCookie with
    | none => .error (.answered "No auth token found" 401)
    | some token =>
      (Token.verify s.config.secretKey v.now token).mapError fun e =>
        .answered ("Invalid token: " ++ e.message) 401

/-- The wording of a missing jar where cookies are to be changed. -/
def noJarMessage : String := "Can't extract cookies. Is `CookieManagerLayer` enabled?"

/-! ## Logging in and out -/

/-- The answer to a user whom the service has named, after the given requests: a session, unless no
date is left for its end. -/
def Server.welcome (s : Server) (v : Visit) (jar : Jar) (userName token : String)
    (sent : List Http.Request) : Answer Account :=
  (Token.issue s.config.secretKey v.now userName token).elim
    ⟨.error (.internal Token.noExpiryDateMessage), some jar, sent⟩
    fun issued => ⟨.ok issued.2, some (jar.set sessionCookie issued.1), sent⟩

/-- Logs in with a token of the service: the service names its owner, who gets a session. -/
def Server.login (s : Server) (v : Visit) (userToken : String) : Answer Account :=
  match v.jar with
  | none => v.refuse noJarMessage internalError
  | some jar =>
    let token := Text.trim userToken
    if token.isEmpty then v.refuse "A user token is required" 400
    else
      match s.services.accounts.find? none with
      | none => v.answer (.error (.unavailable "account provider"))
      | some provider =>
        let checked := v.ask (provider.validateToken token)
        match checked.result with
        | .error e => { checked with result := .error e }
        | .ok userName => s.welcome v jar userName token checked.sent

/-- Logs out: the session's cookie is removed. -/
def Server.logout (_ : Server) (v : Visit) : Answer Unit :=
  match v.jar with
  | none => v.refuse noJarMessage internalError
  | some jar => { v.answer (.ok ()) with jar := some (jar.remove sessionCookie) }

/-- The account of the session. -/
def Server.currentUser (s : Server) (v : Visit) : Answer (Option Account) :=
  v.answer ((s.session v).map fun claims => some claims.account)

/-! ## Pins and listens -/

/-- Pins a recording on the profile of the session. -/
def Server.submitPin (s : Server) (v : Visit) (token recordingMsid : String)
    (blurb : Option String) : Answer Nat :=
  match s.session v with
  | .error e => v.answer (.error e)
  | .ok claims =>
    if claims.token ≠ token then
      v.refuse "Token does not belong to the current session" 403
    else
      match s.services.pins.find? none with
      | none => v.answer (.error (.unavailable "pin service"))
      | some pins => v.ask (pins.submitPin token (.untilDefault recordingMsid blurb))

/-- Takes the pin off the profile of the session. -/
def Server.unpin (s : Server) (v : Visit) : Answer Nat :=
  match s.session v with
  | .error e => v.answer (.error e)
  | .ok claims =>
    match s.services.pins.find? none with
    | none => v.answer (.error (.unavailable "pin service"))
    | some pins => v.ask (pins.unpin claims.token)

/-- The pin on a profile. -/
def Server.currentPin (s : Server) (v : Visit) (userName : String) :
    Answer (Option PinnedRecording) :=
  match s.services.pins.find? none with
  | none => v.answer (.error (.unavailable "pin service"))
  | some pins => v.ask (pins.currentPin userName)

/-- The latest listens of a profile, a page of them. -/
def Server.recentListens (s : Server) (v : Visit) (userName : String) : Answer (List Listen) :=
  match s.services.listens.find? none with
  | none => v.answer (.error (.unavailable "listen source"))
  | some source => v.ask (source.recentListens userName s.config.listensPageSize)

end PinBoard
