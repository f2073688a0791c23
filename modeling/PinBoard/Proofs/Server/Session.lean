import PinBoard.Proofs.Result
import PinBoard.Proofs.Service.Reading
import PinBoard.Server

/-!
# Calls and the session behind them

A call of the service hands over one request or none, and a request that was handed over is sent
unless nobody can be reached. A function of the server that needs a session refuses without one;
with one, it is that session in whose name the service is called.
-/

namespace PinBoard

/-! ## Requests that are handed over -/

/-- The request that is handed over for a call, if it could be prepared. -/
def Service.Call.handed {α : Type} (c : Service.Call α) : Option Http.Request :=
  c.request.toOption

/-- The request that an answer hands over, whatever is replied: it is sent if anybody is
reached. -/
def HandsOver {α : Type} (answer : Http.Responder → Answer α) (handed : Option Http.Request) :
    Prop :=
  ∀ responder, (answer responder).sent =
    handed.toList.filter fun request => responder request ≠ .unreachable

/-- What is sent for a call. -/
theorem Service.Call.sent_eq {α : Type} (c : Service.Call α) (responder : Http.Responder) :
    c.sent responder = c.handed.toList.filter fun request => responder request ≠ .unreachable := by
  unfold sent handed
  rcases c.request with e | request
  · rfl
  · show _ = [request].filter fun request => responder request ≠ .unreachable
    cases hreply : responder request <;> simp [hreply]

/-- An answer that asks the service hands over the request of the call. -/
theorem handsOver_ask {α : Type} (now : Nat) (jar : Option Jar) (call : Service.Call α) :
    HandsOver (fun responder => Visit.ask ⟨now, jar, responder⟩ call) call.handed :=
  fun responder => call.sent_eq responder

/-- A call in the name of a token: its request carries the token, and there is a request if the
token may be the value of a header. -/
structure Service.Call.ActsFor {α : Type} (c : Service.Call α) (token : String) : Prop where
  isSome : c.handed.isSome ↔ Http.isHeaderValue token = true
  authorization : ∀ request, c.handed = some request →
    request.authorization = some ("Token " ++ token)

/-- A request that is prepared with a token makes a call in the name of this token. -/
theorem Service.Call.actsFor_of_prepare {α : Type} {c : Service.Call α} {client : Service.Client}
    (hscheme : Service.isSendable client.base.scheme = true) {method : Http.Method}
    {segments : List String} {token : String} {body : Option String}
    (h : c.request = client.prepare method (client.endpoint segments) (some token) body) :
    c.ActsFor token := by
  have hall : (some token).all Http.isHeaderValue = Http.isHeaderValue token := rfl
  have hsendable : Service.isSendable (client.endpoint segments).scheme = true := hscheme
  by_cases htoken : Http.isHeaderValue token = true
  · rw [Service.Client.prepare_of_fit (hall.trans htoken) hsendable] at h
    constructor
    · rw [handed, h]
      exact ⟨fun _ => htoken, fun _ => rfl⟩
    · intro request hrequest
      rw [handed, h] at hrequest
      rw [← Option.some.inj hrequest]
      rfl
  · rw [Service.Client.prepare, hall, if_neg htoken] at h
    constructor
    · rw [handed, h]
      exact ⟨fun hsome => absurd hsome (by simp [Except.toOption]), fun hfit => absurd hfit htoken⟩
    · intro request hrequest
      rw [handed, h] at hrequest
      exact absurd hrequest (by simp [Except.toOption])

/-! ## Sessions -/

/-- The claims of the token in the session's cookie, if it is accepted at the given second. -/
def Config.Admits (config : Config) (now : Nat) (jar : Option Jar) (claims : Claims) : Prop :=
  ∃ cookies token, jar = some cookies ∧ cookies.get? sessionCookie = some token ∧
    Token.verify config.secretKey now token = .ok claims

variable {config : Config} {services : Service.Services} {v : Visit} {claims : Claims}

/-- A visit has a session if its cookie is accepted. -/
theorem Server.session_eq_ok_iff :
    Server.session ⟨config, services⟩ v = .ok claims ↔ config.Admits v.now v.jar claims := by
  unfold Server.session Config.Admits
  rcases v.jar with _ | cookies
  · simp
  · rcases htoken : cookies.get? sessionCookie with _ | token
    · simp [htoken]
    · simp [htoken, mapError_eq_ok_iff]

/-- A jar holds one session at most. -/
theorem Config.Admits.unique {now : Nat} {jar : Option Jar} {other : Claims}
    (h : config.Admits now jar claims) (hother : config.Admits now jar other) : claims = other := by
  obtain ⟨cookies, token, rfl, htoken, hverify⟩ := h
  obtain ⟨others, another, hjar, hanother, hverified⟩ := hother
  rw [← Option.some.inj hjar, htoken] at hanother
  rw [← Option.some.inj hanother, hverify] at hverified
  exact Except.ok.inj hverified

/-- A visit without a session is turned away as not authorized. -/
theorem Server.session_of_not_admitted (h : ¬∃ claims, config.Admits v.now v.jar claims) :
    ∃ message, Server.session ⟨config, services⟩ v = .error (.answered message 401) := by
  unfold Server.session
  unfold Config.Admits at h
  rcases hjar : v.jar with _ | cookies
  · exact ⟨_, rfl⟩
  · rcases htoken : cookies.get? sessionCookie with _ | token
    · simp only [htoken]
      exact ⟨_, rfl⟩
    · simp only [htoken]
      rcases hverify : Token.verify config.secretKey v.now token with e | claims
      · exact ⟨_, rfl⟩
      · exact absurd ⟨claims, cookies, token, hjar, htoken, hverify⟩ h

/-! ## Refusals -/

/-- An answer that refuses a visit: it leaves the cookies as they were and asks nobody. -/
structure Visit.Refuses {α : Type} (v : Visit) (answer : Answer α) (code : Nat) : Prop where
  result : ∃ message, answer.result = .error (.answered message code)
  jar : answer.jar = v.jar
  sent : answer.sent = []

theorem Visit.refuses_refuse {α : Type} (v : Visit) (message : String) (code : Nat) :
    v.Refuses (v.refuse message code : Answer α) code :=
  ⟨⟨message, rfl⟩, rfl, rfl⟩

/-! ## A server -/

/-- The server of a configuration uses the client that was set up for it. -/
theorem Server.ofConfig_of_build {client : Service.Client}
    (h : Service.Client.build (some config.serviceUrl) none = .ok client) :
    Server.ofConfig config = .ok ⟨config, client.services⟩ := by
  rw [Server.ofConfig, h]
  rfl

/-- A configuration with the service at the root of a host. -/
def plainConfig : Config := ⟨"secret", "http://lb.test", 25, 9765, "0.0.0.0"⟩

/-- Its server uses the client of that service. -/
theorem ofConfig_plainConfig :
    Server.ofConfig plainConfig = .ok ⟨plainConfig, Service.plainClient.services⟩ := by
  apply Server.ofConfig_of_build
  decide +kernel

end PinBoard
