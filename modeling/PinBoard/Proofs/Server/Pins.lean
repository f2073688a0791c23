import PinBoard.Proofs.Server.Session
import PinBoard.Proofs.Token.Issue

/-!
# In whose name a profile is changed

Pinning and unpinning call the service in the name of the session that came with the visit. A token
sent along cannot stand in for the session's own.
-/

namespace PinBoard

variable {config : Config} {client : Service.Client} {v : Visit} {claims : Claims}

/-! ## Refused visits -/

section Refused

variable (h : ¬∃ claims, config.Admits v.now v.jar claims)
include h

/-- Nothing is pinned without a session. -/
theorem Server.refuses_submitPin (token recordingMsid : String) (blurb : Option String) :
    v.Refuses (Server.submitPin ⟨config, client.services⟩ v token recordingMsid blurb) 401 := by
  obtain ⟨message, hsession⟩ :
      ∃ message, Server.session ⟨config, client.services⟩ v = .error (.answered message 401) :=
    Server.session_of_not_admitted h
  rw [Server.submitPin, hsession]
  exact v.refuses_refuse message 401

/-- Nothing is taken off a profile without a session. -/
theorem Server.refuses_unpin : v.Refuses (Server.unpin ⟨config, client.services⟩ v) 401 := by
  obtain ⟨message, hsession⟩ :
      ∃ message, Server.session ⟨config, client.services⟩ v = .error (.answered message 401) :=
    Server.session_of_not_admitted h
  rw [Server.unpin, hsession]
  exact v.refuses_refuse message 401

end Refused

/-! ## Admitted visits -/

section Admitted

variable (h : config.Admits v.now v.jar claims)
include h

/-- Nothing is pinned with a token that is not the session's. -/
theorem Server.refuses_foreign_token {token : String} (htoken : claims.token ≠ token)
    (recordingMsid : String) (blurb : Option String) :
    v.Refuses (Server.submitPin ⟨config, client.services⟩ v token recordingMsid blurb) 403 := by
  have hsession : Server.session ⟨config, client.services⟩ v = .ok claims :=
    Server.session_eq_ok_iff.mpr h
  rw [Server.submitPin, hsession]
  show v.Refuses (if claims.token ≠ token then _ else _) 403
  rw [if_pos htoken]
  exact v.refuses_refuse _ 403

/-- With the session's token the service is asked to pin the recording. -/
theorem Server.submitPin_of_admitted (recordingMsid : String) (blurb : Option String) :
    Server.submitPin ⟨config, client.services⟩ v claims.token recordingMsid blurb =
      v.ask (client.submitPin claims.token (.untilDefault recordingMsid blurb)) := by
  have hsession : Server.session ⟨config, client.services⟩ v = .ok claims :=
    Server.session_eq_ok_iff.mpr h
  rw [Server.submitPin, hsession]
  show (if claims.token ≠ claims.token then _ else _) = _
  rw [if_neg (not_not.mpr rfl)]
  rfl

/-- With a session the service is asked to take the pin off. -/
theorem Server.unpin_of_admitted :
    Server.unpin ⟨config, client.services⟩ v = v.ask (client.unpin claims.token) := by
  have hsession : Server.session ⟨config, client.services⟩ v = .ok claims :=
    Server.session_eq_ok_iff.mpr h
  rw [Server.unpin, hsession]
  rfl

end Admitted

/-! ## What is handed over -/

/-- What a function of the server hands over that calls the service in the name of a session, where
the session is allowed to, and sends nothing otherwise. -/
theorem exists_handed {α : Type} (config : Config) (now : Nat) (jar : Option Jar)
    {answer : Http.Responder → Answer α} (Allowed : Claims → Prop) (call : Claims → Service.Call α)
    (hcall : ∀ claims, (call claims).ActsFor claims.token)
    (hask : ∀ claims, config.Admits now jar claims → Allowed claims → ∀ responder,
      answer responder = Visit.ask ⟨now, jar, responder⟩ (call claims))
    (hrefuse : (¬∃ claims, config.Admits now jar claims ∧ Allowed claims) → ∀ responder,
      (answer responder).sent = []) :
    ∃ handed : Option Http.Request, HandsOver answer handed ∧
      (handed.isSome ↔ ∃ claims, config.Admits now jar claims ∧ Allowed claims ∧
        Http.isHeaderValue claims.token = true) ∧
      ∀ request, handed = some request → ∃ claims, config.Admits now jar claims ∧
        request.authorization = some ("Token " ++ claims.token) := by
  -- who is admitted does not depend on the reply, so neither does what is handed over
  by_cases h : ∃ claims, config.Admits now jar claims ∧ Allowed claims
  · obtain ⟨claims, hadmits, hallowed⟩ := h
    refine ⟨(call claims).handed, ?_, ?_, ?_⟩
    · intro responder
      rw [hask claims hadmits hallowed responder]
      exact handsOver_ask now jar (call claims) responder
    · rw [(hcall claims).isSome]
      constructor
      · intro htoken
        exact ⟨claims, hadmits, hallowed, htoken⟩
      · rintro ⟨other, hother, -, htoken⟩
        rw [hadmits.unique hother]
        exact htoken
    · intro request hrequest
      exact ⟨claims, hadmits, (hcall claims).authorization request hrequest⟩
  · refine ⟨none, ?_, ?_, ?_⟩
    · intro responder
      rw [hrefuse h responder]
      rfl
    · constructor
      · intro hsome
        exact absurd hsome (by simp)
      · rintro ⟨claims, hadmits, hallowed, -⟩
        exact absurd ⟨claims, hadmits, hallowed⟩ h
    · intro request hnone
      exact absurd hnone (by simp)

/-- Unless the token that was sent along is the session's, nothing is sent. -/
theorem Server.sent_submitPin {token : String}
    (h : ¬∃ claims, config.Admits v.now v.jar claims ∧ claims.token = token)
    (recordingMsid : String) (blurb : Option String) :
    (Server.submitPin ⟨config, client.services⟩ v token recordingMsid blurb).sent = [] := by
  by_cases hsession : ∃ claims, config.Admits v.now v.jar claims
  · obtain ⟨claims, hadmits⟩ := hsession
    have hforeign : claims.token ≠ token := fun htoken => h ⟨claims, hadmits, htoken⟩
    exact (Server.refuses_foreign_token hadmits hforeign recordingMsid blurb).sent
  · exact (Server.refuses_submitPin hsession token recordingMsid blurb).sent

/-- **In whose name a profile is changed.**  Whatever the service replies, a pin is asked for if and
only if the cookie holds a session whose token was sent along and may be the value of a header, and
taking a pin off if and only if the cookie holds a session with such a token; at most one request is
handed over, in the name of the session. Without a session the answer is 401 and with a foreign
token 403, nothing is sent, and the cookies stay as they are. -/
theorem Server.pins_in_name_of_session (config : Config) (client : Service.Client)
    (hscheme : Service.isSendable client.base.scheme = true) (now : Nat) (jar : Option Jar)
    (token recordingMsid : String) (blurb : Option String) :
    (∃ pin : Option Http.Request,
      HandsOver (fun responder => Server.submitPin ⟨config, client.services⟩
        ⟨now, jar, responder⟩ token recordingMsid blurb) pin ∧
      (pin.isSome ↔ ∃ claims, config.Admits now jar claims ∧ claims.token = token ∧
        Http.isHeaderValue claims.token = true) ∧
      ∀ request, pin = some request → ∃ claims, config.Admits now jar claims ∧
        request.authorization = some ("Token " ++ claims.token)) ∧
    (∃ unpin : Option Http.Request,
      HandsOver (fun responder => Server.unpin ⟨config, client.services⟩
        ⟨now, jar, responder⟩) unpin ∧
      (unpin.isSome ↔ ∃ claims, config.Admits now jar claims ∧
        Http.isHeaderValue claims.token = true) ∧
      ∀ request, unpin = some request → ∃ claims, config.Admits now jar claims ∧
        request.authorization = some ("Token " ++ claims.token)) ∧
    ∀ responder : Http.Responder,
      ((¬∃ claims, config.Admits now jar claims) →
        Visit.Refuses ⟨now, jar, responder⟩ (Server.submitPin ⟨config, client.services⟩
          ⟨now, jar, responder⟩ token recordingMsid blurb) 401 ∧
        Visit.Refuses ⟨now, jar, responder⟩ (Server.unpin ⟨config, client.services⟩
          ⟨now, jar, responder⟩) 401) ∧
      ∀ claims, config.Admits now jar claims → claims.token ≠ token →
        Visit.Refuses ⟨now, jar, responder⟩ (Server.submitPin ⟨config, client.services⟩
          ⟨now, jar, responder⟩ token recordingMsid blurb) 403 := by
  refine ⟨?_, ?_, ?_⟩
  · refine exists_handed config now jar (fun claims => claims.token = token)
      (fun claims => client.submitPin claims.token (.untilDefault recordingMsid blurb)) ?_ ?_ ?_
    · intro claims
      exact Service.Call.actsFor_of_prepare hscheme rfl
    · rintro claims hadmits rfl responder
      exact Server.submitPin_of_admitted hadmits recordingMsid blurb
    · intro hnone responder
      exact Server.sent_submitPin hnone recordingMsid blurb
  · have hunpin := exists_handed config now jar (fun _ => True)
      (fun claims => client.unpin claims.token)
      (fun _ => Service.Call.actsFor_of_prepare hscheme rfl)
      (fun _ hadmits _ _ => Server.unpin_of_admitted hadmits)
      (fun hnone _ => (Server.refuses_unpin (by simpa using hnone)).sent)
    simpa only [true_and] using hunpin
  · intro responder
    constructor
    · intro hnone
      exact ⟨Server.refuses_submitPin hnone token recordingMsid blurb,
        Server.refuses_unpin hnone⟩
    · intro claims hadmits hforeign
      exact Server.refuses_foreign_token hadmits hforeign recordingMsid blurb

/-! ## One session -/

/-- The claims of a session that was issued at the epoch. -/
def aliceClaims : Claims := .issue "alice" "t" 0

/-- A jar with the cookie of that session. -/
def aliceJar : Jar := ⟨[(sessionCookie, Token.sign "secret" aliceClaims)], []⟩

/-- A minute after it was issued the session is admitted. -/
theorem admits_aliceJar : plainConfig.Admits 60 (some aliceJar) aliceClaims :=
  ⟨aliceJar, Token.sign "secret" aliceClaims, rfl, rfl,
    Token.verify_sign_issue (by decide) (by decide)⟩

/-- The session pins with its own token, not with another one, and nobody does without a session. -/
theorem Server.pins_in_name_of_alice :
    Server.ofConfig plainConfig = .ok ⟨plainConfig, Service.plainClient.services⟩ ∧
    (∃ pin : Option Http.Request,
      HandsOver (fun responder => Server.submitPin ⟨plainConfig, Service.plainClient.services⟩
        ⟨60, some aliceJar, responder⟩ "t" "m" none) pin ∧
      pin.isSome ∧
      ∀ request, pin = some request → request.authorization = some "Token t") ∧
    ∀ responder : Http.Responder,
      Visit.Refuses ⟨60, some aliceJar, responder⟩
        (Server.submitPin ⟨plainConfig, Service.plainClient.services⟩
          ⟨60, some aliceJar, responder⟩ "other" "m" none) 403 ∧
      Visit.Refuses ⟨60, none, responder⟩
        (Server.submitPin ⟨plainConfig, Service.plainClient.services⟩
          ⟨60, none, responder⟩ "t" "m" none) 401 := by
  have hscheme : Service.isSendable Service.plainClient.base.scheme = true := by decide
  obtain ⟨⟨pin, hpin, hsome, hname⟩, -, -⟩ := Server.pins_in_name_of_session plainConfig
    Service.plainClient hscheme 60 (some aliceJar) "t" "m" none
  obtain ⟨-, -, hforeign⟩ := Server.pins_in_name_of_session plainConfig
    Service.plainClient hscheme 60 (some aliceJar) "other" "m" none
  obtain ⟨-, -, hnone⟩ := Server.pins_in_name_of_session plainConfig
    Service.plainClient hscheme 60 none "t" "m" none
  refine ⟨ofConfig_plainConfig, ⟨pin, hpin, ?_, ?_⟩, fun responder => ⟨?_, ?_⟩⟩
  · exact hsome.mpr ⟨aliceClaims, admits_aliceJar, rfl, by decide⟩
  · intro request hrequest
    obtain ⟨claims, hadmits, hauthorization⟩ := hname request hrequest
    rw [hauthorization, hadmits.unique admits_aliceJar]
    rfl
  · exact (hforeign responder).2 aliceClaims admits_aliceJar (by decide)
  · refine ((hnone responder).1 ?_).1
    rintro ⟨claims, cookies, token, hjar, -⟩
    exact absurd hjar (by simp)

end PinBoard
