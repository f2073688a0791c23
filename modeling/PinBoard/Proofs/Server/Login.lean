import PinBoard.Proofs.Server.Cookie
import PinBoard.Proofs.Server.Pins

/-!
# Logging in

Whoever has a token that the service confirms gets a session for the user whom the service names,
and nobody else gets one. The session's cookie then does what the account says: the session is found
again, and its token pins.
-/

namespace PinBoard

/-! ## Blank tokens -/

/-- Nothing is left of a text after trimming if it was blank all over. -/
theorem trim_eq_empty_iff (s : String) : Text.trim s = "" ↔ Text.IsAllBlank s := by
  rw [Text.trim, String.ofList_eq_empty_iff]
  constructor
  · intro h
    rw [Text.trimChars, List.reverse_eq_nil_iff, List.dropWhile_eq_nil_iff] at h
    by_cases hnil : s.toList.dropWhile Text.isBlank = []
    · exact List.dropWhile_eq_nil_iff.mp hnil
    · have hhead := List.head_dropWhile_not Text.isBlank hnil
      have hblank := h _ (List.mem_reverse.mpr (List.head_mem hnil))
      rw [hblank] at hhead
      exact absurd hhead (by decide)
  · intro h
    rw [Text.trimChars, List.dropWhile_eq_nil_iff.mpr h]
    rfl

/-! ## Confirmed tokens -/

/-- The service confirms a token as that of a named user: the question can be asked in the name of
the token, and the answer is a success that arrives complete and says so. -/
def Service.Client.Confirms (client : Service.Client) (responder : Http.Responder)
    (token name : String) : Prop :=
  ∃ request status body text, (client.validateToken token).request = .ok request ∧
    request.authorization = some ("Token " ++ token) ∧
    responder request = .response status body ∧ 200 ≤ status ∧ status ≤ 299 ∧
    body.text? = some text ∧ Json.ofString Service.TokenCheck.decode text = .ok ⟨true, some name⟩

variable {config : Config} {client : Service.Client} {v : Visit} {jar : Jar}
  {responder : Http.Responder} {userToken name : String}

/-- Asking whose token it is comes to a name if the service confirms the token as theirs. -/
theorem Service.Client.result_validateToken_eq_ok_iff {token : String} :
    (client.validateToken token).result responder = .ok name ↔
      client.Confirms responder token name := by
  rw [Service.Call.result_eq_ok_iff]
  constructor
  · rintro ⟨request, status, body, hrequest, hreply, hread⟩
    obtain ⟨hsuccess, text, htext, hcheck⟩ :=
      Service.readBody_eq_ok_iff.mp (Service.read_validateToken_eq_ok_iff.mp hread)
    obtain ⟨hlow, hhigh⟩ := (Service.isSuccess_iff status).mp hsuccess
    exact ⟨request, status, body, text, hrequest, Service.Client.authorization_of_prepare hrequest,
      hreply, hlow, hhigh, htext, hcheck⟩
  · rintro ⟨request, status, body, text, hrequest, -, hreply, hlow, hhigh, htext, hcheck⟩
    have hsuccess := (Service.isSuccess_iff status).mpr ⟨hlow, hhigh⟩
    exact ⟨request, status, body, hrequest, hreply, Service.read_validateToken_eq_ok_iff.mpr
      (Service.readBody_eq_ok_iff.mpr ⟨hsuccess, text, htext, hcheck⟩)⟩

/-! ## The ways of a login -/

/-- A blank token is turned away before anybody is asked. -/
theorem Server.refuses_login (s : Server) (hjar : v.jar = some jar)
    (hblank : Text.trim userToken = "") : v.Refuses (s.login v userToken) 400 := by
  have hempty : (Text.trim userToken).isEmpty = true := String.isEmpty_iff.mpr hblank
  unfold Server.login
  rw [hjar]
  simp only []
  rw [if_pos hempty]
  exact v.refuses_refuse _ 400

/-- With any other token the service is asked whose it is. -/
theorem Server.login_of_not_blank (hjar : v.jar = some jar)
    (hblank : Text.trim userToken ≠ "") :
    Server.login ⟨config, client.services⟩ v userToken =
      match (client.validateToken (Text.trim userToken)).result v.responder with
      | .error e => ⟨.error (.ofFailure e), some jar,
          (client.validateToken (Text.trim userToken)).sent v.responder⟩
      | .ok name => Server.welcome ⟨config, client.services⟩ v jar name (Text.trim userToken)
          ((client.validateToken (Text.trim userToken)).sent v.responder) := by
  have hfilled : ¬(Text.trim userToken).isEmpty = true := by
    rw [String.isEmpty_iff]
    exact hblank
  have hfound : (⟨config, client.services⟩ : Server).services.accounts.find? none =
      some client.accounts := rfl
  unfold Server.login
  rw [hjar]
  simp only []
  rw [if_neg hfilled, hfound]
  simp only [Visit.ask, Service.Client.accounts, hjar]
  -- the words that an error is put into are the only thing that is done to the result on the way
  rcases (client.validateToken (Text.trim userToken)).result v.responder with e | name
  · simp only [error_mapError]
  · simp only [ok_mapError]

/-- A user whom the service has named gets a session, as long as there is a date for its end. -/
theorem Server.welcome_eq (s : Server) (v : Visit) (jar : Jar) (userName token : String)
    (sent : List Http.Request) (hdate : ((v.now + sessionSeconds : Nat) : Int) ≤ lastSecond) :
    s.welcome v jar userName token sent =
      ⟨.ok (Claims.issue userName token v.now).account,
        some (jar.set sessionCookie
          (Token.sign s.config.secretKey (Claims.issue userName token v.now))), sent⟩ := by
  rw [Server.welcome, Token.issue_eq_some hdate, Option.elim_some]

/-- **What a login comes to.**  The token is blank and nobody is asked; or the service does not
confirm it, and the cookies stay as they are; or the service names its owner, who gets a session. -/
theorem Server.login_cases (config : Config) (client : Service.Client) (userToken : String)
    (hjar : v.jar = some jar) (hdate : ((v.now + sessionSeconds : Nat) : Int) ≤ lastSecond) :
    (Text.trim userToken = "" ∧
      v.Refuses (Server.login ⟨config, client.services⟩ v userToken) 400) ∨
    (Text.trim userToken ≠ "" ∧
      (¬∃ name, client.Confirms v.responder (Text.trim userToken) name) ∧
      (∃ e, (Server.login ⟨config, client.services⟩ v userToken).result = .error e) ∧
      (Server.login ⟨config, client.services⟩ v userToken).jar = some jar) ∨
    ∃ name, Text.trim userToken ≠ "" ∧
      client.Confirms v.responder (Text.trim userToken) name ∧
      (Server.login ⟨config, client.services⟩ v userToken).result =
        .ok (Claims.issue name (Text.trim userToken) v.now).account ∧
      (Server.login ⟨config, client.services⟩ v userToken).jar =
        some (jar.set sessionCookie
          (Token.sign config.secretKey (Claims.issue name (Text.trim userToken) v.now))) := by
  by_cases hblank : Text.trim userToken = ""
  · exact Or.inl ⟨hblank, Server.refuses_login _ hjar hblank⟩
  · rw [Server.login_of_not_blank hjar hblank]
    rcases hresult : (client.validateToken (Text.trim userToken)).result v.responder with e | name
    · refine Or.inr (Or.inl ⟨hblank, ?_, ⟨_, rfl⟩, rfl⟩)
      rintro ⟨name, hconfirms⟩
      rw [Service.Client.result_validateToken_eq_ok_iff.mpr hconfirms] at hresult
      exact absurd hresult (by simp)
    · have hconfirms := Service.Client.result_validateToken_eq_ok_iff.mp hresult
      simp only [Server.welcome_eq _ v jar name _ _ hdate]
      exact Or.inr (Or.inr ⟨name, hblank, hconfirms, rfl, rfl⟩)

/-- Who is logged in: the owner of a token that is not blank and that the service confirms. -/
theorem Server.login_eq_ok_iff (config : Config) (client : Service.Client) (userToken : String)
    (hjar : v.jar = some jar) (hdate : ((v.now + sessionSeconds : Nat) : Int) ≤ lastSecond) :
    (∃ r, (Server.login ⟨config, client.services⟩ v userToken).result = .ok r) ↔
      Text.trim userToken ≠ "" ∧
        ∃ name, client.Confirms v.responder (Text.trim userToken) name := by
  rcases Server.login_cases config client userToken hjar hdate with
    ⟨hblank, ⟨⟨message, hresult⟩, -, -⟩⟩ | ⟨hfilled, hnone, ⟨e, hresult⟩, -⟩ |
      ⟨name, hfilled, hconfirms, hresult, -⟩
  · rw [hresult]
    constructor
    · rintro ⟨r, hr⟩
      exact absurd hr (by simp)
    · rintro ⟨hfilled, -⟩
      exact absurd hblank hfilled
  · rw [hresult]
    constructor
    · rintro ⟨r, hr⟩
      exact absurd hr (by simp)
    · rintro ⟨-, hconfirmed⟩
      exact absurd hconfirmed hnone
  · exact ⟨fun _ => ⟨hfilled, name, hconfirms⟩, fun _ => ⟨_, hresult⟩⟩

/-- A login that fails leaves the cookies as they were. -/
theorem Server.jar_of_login_eq_error (config : Config) (client : Service.Client)
    (userToken : String) (hjar : v.jar = some jar)
    (hdate : ((v.now + sessionSeconds : Nat) : Int) ≤ lastSecond) {e : ServerError}
    (h : (Server.login ⟨config, client.services⟩ v userToken).result = .error e) :
    (Server.login ⟨config, client.services⟩ v userToken).jar = some jar := by
  rcases Server.login_cases config client userToken hjar hdate with
    ⟨-, hrefuses⟩ | ⟨-, -, -, hsame⟩ | ⟨name, -, -, hresult, -⟩
  · exact hrefuses.jar.trans hjar
  · exact hsame
  · rw [hresult] at h
    exact absurd h (by simp)

/-- A login that succeeds sets the cookie of a session for the user whom the service has named. -/
theorem Server.of_login_eq_ok (config : Config) (client : Service.Client) (userToken : String)
    (hjar : v.jar = some jar) (hdate : ((v.now + sessionSeconds : Nat) : Int) ≤ lastSecond)
    {r : Account}
    (h : (Server.login ⟨config, client.services⟩ v userToken).result = .ok r) :
    ∃ name, client.Confirms v.responder (Text.trim userToken) name ∧
      r = (Claims.issue name (Text.trim userToken) v.now).account ∧
      (Server.login ⟨config, client.services⟩ v userToken).jar =
        some (jar.set sessionCookie
          (Token.sign config.secretKey (Claims.issue name (Text.trim userToken) v.now))) := by
  rcases Server.login_cases config client userToken hjar hdate with
    ⟨-, ⟨⟨message, hresult⟩, -, -⟩⟩ | ⟨-, -, ⟨e, hresult⟩, -⟩ |
      ⟨name, -, hconfirms, hresult, hset⟩
  · rw [hresult] at h
    exact absurd h (by simp)
  · rw [hresult] at h
    exact absurd h (by simp)
  · rw [hresult] at h
    exact ⟨name, hconfirms, (Except.ok.inj h).symm, hset⟩

/-! ## What a session is good for -/

/-- The cookie of a session that was issued holds this session until it expires. -/
theorem Config.admits_of_sign_issue {now later : Nat} {token : String}
    (hdate : ((now + sessionSeconds : Nat) : Int) ≤ lastSecond)
    (hlater : later ≤ now + sessionSeconds)
    (hcookie : jar.get? sessionCookie =
      some (Token.sign config.secretKey (Claims.issue name token now))) :
    config.Admits later (some jar) (Claims.issue name token now) :=
  ⟨jar, _, rfl, hcookie, Token.verify_sign_issue hdate hlater⟩

/-- The account of a session is found again. -/
theorem Server.currentUser_of_admitted {services : Service.Services} {claims : Claims}
    (h : config.Admits v.now v.jar claims) :
    (Server.currentUser ⟨config, services⟩ v).result = .ok (some claims.account) := by
  have hsession : Server.session ⟨config, services⟩ v = .ok claims :=
    Server.session_eq_ok_iff.mpr h
  rw [Server.currentUser, Visit.answer, hsession]
  rfl

/-! ## The whole way -/

/-- **Logging in.**  As long as there is a date for the end of a session, a login succeeds if and
only if something is left of the token after trimming and the service confirms this as the token of
a named user; exactly then the session's cookie is set, and a blank token is turned away with 400
before anybody is asked. The cookie comes back in a header, and for thirty days it holds a session
of that user and that token: the account that was handed out is found again, and its token pins. -/
theorem Server.login_gives_session (config : Config) (client : Service.Client) (now : Nat)
    (headers : List String) (responder : Http.Responder) (userToken : String)
    (hdate : ((now + 30 * 86400 : Nat) : Int) ≤ lastSecond) :
    let answer := Server.login ⟨config, client.services⟩
      ⟨now, some (Jar.ofHeaders headers), responder⟩ userToken
    ((∃ r, answer.result = .ok r) ↔ Text.trim userToken ≠ "" ∧
      ∃ name, client.Confirms responder (Text.trim userToken) name) ∧
    ((∃ r, answer.result = .ok r) ↔ ∃ cookies text, answer.jar = some cookies ∧
      cookies.setCookies = [SetCookie.ofChange (sessionCookie, some text)]) ∧
    (∀ e, answer.result = .error e → answer.jar = some (Jar.ofHeaders headers)) ∧
    (Text.IsAllBlank userToken →
      Visit.Refuses ⟨now, some (Jar.ofHeaders headers), responder⟩ answer 400) ∧
    ∀ r, answer.result = .ok r → ∃ text name,
      answer.jar = some ((Jar.ofHeaders headers).set sessionCookie text) ∧
      client.Confirms responder (Text.trim userToken) name ∧
      (Jar.ofHeaders [sessionCookie ++ "=" ++ text]).get? sessionCookie = some text ∧
      ∀ later ≤ now + 30 * 86400,
        (∃ claims, Token.verify config.secretKey later text = .ok claims ∧
          claims.subject = name ∧ claims.token = Text.trim userToken) ∧
        ∀ (cookies : Jar) (reply : Http.Responder), cookies.get? sessionCookie = some text →
          (Server.currentUser ⟨config, client.services⟩
            ⟨later, some cookies, reply⟩).result = .ok (some r) ∧
          ∀ recordingMsid blurb,
            Server.submitPin ⟨config, client.services⟩ ⟨later, some cookies, reply⟩ r.token
                recordingMsid blurb =
              Visit.ask ⟨later, some cookies, reply⟩
                (client.submitPin r.token (.untilDefault recordingMsid blurb)) := by
  intro answer
  have hsession : sessionSeconds = 30 * 86400 := rfl
  rw [← hsession] at hdate ⊢
  have hjar : (⟨now, some (Jar.ofHeaders headers), responder⟩ : Visit).jar =
      some (Jar.ofHeaders headers) := rfl
  have hok := Server.login_eq_ok_iff config client userToken hjar hdate
  have hfailed : ∀ e, answer.result = .error e → answer.jar = some (Jar.ofHeaders headers) :=
    fun e he => Server.jar_of_login_eq_error config client userToken hjar hdate he
  have hgiven := fun r hr => Server.of_login_eq_ok config client userToken hjar hdate (r := r) hr
  refine ⟨hok, ?_, hfailed, ?_, ?_⟩
  · constructor
    · rintro ⟨r, hr⟩
      obtain ⟨name, -, -, hset⟩ := hgiven r hr
      exact ⟨_, _, hset, rfl⟩
    · rintro ⟨cookies, text, hcookies, hset⟩
      -- after a failed login the jar is as it came with the headers, without any change
      rcases hresult : answer.result with e | r
      · rw [hfailed e hresult] at hcookies
        rw [← Option.some.inj hcookies] at hset
        exact absurd hset (by simp [Jar.setCookies, Jar.ofHeaders])
      · exact ⟨r, rfl⟩
  · intro hblank
    exact Server.refuses_login _ rfl ((trim_eq_empty_iff userToken).mpr hblank)
  · intro r hr
    obtain ⟨name, hconfirms, haccount, hset⟩ := hgiven r hr
    refine ⟨_, name, hset, hconfirms, Token.get?_ofHeaders_sign _ _, ?_⟩
    intro later hlater
    refine ⟨⟨_, Token.verify_sign_issue hdate hlater, rfl, rfl⟩, ?_⟩
    intro cookies reply hcookie
    have hadmits : config.Admits later (some cookies)
        (Claims.issue name (Text.trim userToken) now) :=
      Config.admits_of_sign_issue hdate hlater hcookie
    rw [haccount]
    refine ⟨Server.currentUser_of_admitted hadmits, ?_⟩
    intro recordingMsid blurb
    exact Server.submitPin_of_admitted hadmits recordingMsid blurb

/-! ## One login -/

/-- What the service says of a token that is valid. -/
def confirmation : String := "\x7b\"code\":200,\"valid\":true,\"user_name\":\"alice\"\x7d"

/-- A service that says so. -/
def confirming : Http.Responder :=
  fun _ => .response 200 (.complete (Text.Utf8.encode confirmation))

/-- It confirms whatever it is asked about. -/
theorem confirms_confirming : Service.plainClient.Confirms confirming "t" "alice" := by
  have htoken : (some "t").all Http.isHeaderValue = true := by decide
  have hscheme : Service.isSendable
      (Service.plainClient.endpoint ["validate-token"]).scheme = true := by
    decide +kernel
  exact ⟨_, 200, _, confirmation, Service.Client.prepare_of_fit htoken hscheme, rfl, rfl,
    by decide, by decide, by decide +kernel, by decide +kernel⟩

/-- A token with blanks around it, and what its session is good for in its last second. -/
theorem Server.login_gives_session_alice :
    ((1700000000 + 30 * 86400 : Nat) : Int) ≤ lastSecond ∧
    ∃ r text, (Server.login ⟨plainConfig, Service.plainClient.services⟩
        ⟨1700000000, some (Jar.ofHeaders []), confirming⟩ " t\n").result = .ok r ∧
      (Server.login ⟨plainConfig, Service.plainClient.services⟩
        ⟨1700000000, some (Jar.ofHeaders []), confirming⟩ " t\n").jar =
          some ((Jar.ofHeaders []).set sessionCookie text) ∧
      (Server.currentUser ⟨plainConfig, Service.plainClient.services⟩
        ⟨1700000000 + 30 * 86400, some (Jar.ofHeaders [sessionCookie ++ "=" ++ text]),
          confirming⟩).result = .ok (some r) := by
  have hdate : ((1700000000 + 30 * 86400 : Nat) : Int) ≤ lastSecond := by decide
  have htrim : Text.trim " t\n" = "t" := by decide
  obtain ⟨hok, -, -, -, hsession⟩ := Server.login_gives_session plainConfig Service.plainClient
    1700000000 [] confirming " t\n" hdate
  rw [htrim] at hok
  obtain ⟨r, hr⟩ := hok.mpr ⟨by decide, "alice", confirms_confirming⟩
  obtain ⟨text, name, hset, -, hcookie, hlater⟩ := hsession r hr
  obtain ⟨-, hfound⟩ := hlater _ (Nat.le_refl _)
  exact ⟨hdate, r, text, hr, hset, (hfound _ confirming hcookie).1⟩

end PinBoard
