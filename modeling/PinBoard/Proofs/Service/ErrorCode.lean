import PinBoard.Proofs.Service.Reading
import PinBoard.Server.Error

/-!
# The codes of failed calls

What the browser gets for a failed call carries a code. It is no code of success, unless a success
arrived complete and its body was not what the call had asked for: then the failure keeps the status
that the service answered with.
-/

namespace PinBoard.Service

/-! ## Codes -/

/-- The code that goes with a failure. -/
def Failure.code (e : Failure) : Nat := e.status.getD internalError

/-- It is the code of what the browser gets. -/
theorem ofFailure_eq (e : Failure) : ServerError.ofFailure e = .answered e.message e.code := rfl

/-- A failure without a status has the code of an internal error. -/
theorem isSuccess_code_of_no_status {e : Failure} (h : e.status = none) :
    Http.isSuccess e.code = false := by
  rw [Failure.code, h]
  rfl

section Codes

variable {α : Type} {d : Json.Decoder α} {status : Nat} {body : Http.Body} {e : Failure}

/-- Where only the status is read, a failure never has a code of success. -/
theorem isSuccess_code_of_readStatus (h : readStatus status body = .error e) :
    Http.isSuccess e.code = false := by
  rcases hstatus : Http.isSuccess status with _ | _
  · rw [readStatus_of_not_success hstatus] at h
    rw [← Except.error.inj h]
    exact hstatus
  · rw [readStatus_of_success hstatus] at h
    exact absurd h (by simp)

/-- Where a body is read, a failure has a code of success exactly for a success whose body arrived
and could not be read. -/
theorem isSuccess_code_of_readBody (h : readBody d status body = .error e) :
    Http.isSuccess e.code = true ↔ Http.isSuccess status = true ∧
      ∃ text, body.text? = some text ∧ ∃ fault, Json.ofString d text = .error fault := by
  rcases hstatus : Http.isSuccess status with _ | _
  · rw [readBody_of_not_success hstatus] at h
    rw [← Except.error.inj h]
    simp [Failure.code, Failure.status, hstatus]
  · rcases hbody : body.text? with _ | text
    · rw [readBody_of_broken_off hstatus hbody] at h
      rw [← Except.error.inj h, isSuccess_code_of_no_status rfl]
      simp
    · rw [readBody_of_text hstatus hbody] at h
      rcases hread : Json.ofString d text with fault | value
      · rw [hread] at h
        rw [← Except.error.inj h]
        simp [Failure.code, Failure.status, hstatus, hread]
      · rw [hread] at h
        exact absurd h (by simp [Except.mapError])

/-- A call of whose failed responses is known which have a code of success: without a response it
has none either. -/
theorem Call.isSuccess_code_of_result {c : Call α} {responder : Http.Responder}
    {unread : String → Prop} (hprepare : ∀ e, c.request = .error e → e.status = none)
    (hread : ∀ status body e, c.read status body = .error e →
      (Http.isSuccess e.code = true ↔ Http.isSuccess status = true ∧
        ∃ text, body.text? = some text ∧ unread text))
    (h : c.result responder = .error e) :
    Http.isSuccess e.code = true ↔ ∃ request status body text, c.request = .ok request ∧
      responder request = .response status body ∧ Http.isSuccess status = true ∧
      body.text? = some text ∧ unread text := by
  rcases Call.result_eq_error h with
    hunprepared | ⟨request, hrequest, ⟨hsilent, rfl⟩ | ⟨status, body, hreply, hfailed⟩⟩
  · rw [isSuccess_code_of_no_status (hprepare e hunprepared)]
    simp [hunprepared]
  -- nobody answered, so no response can be named either
  · rw [isSuccess_code_of_no_status rfl]
    constructor
    · exact fun habsurd => absurd habsurd Bool.false_ne_true
    · rintro ⟨other, status, body, text, hother, hreply, -⟩
      rw [hrequest, Except.ok.injEq] at hother
      rw [← hother] at hreply
      exact absurd hreply (hsilent status body)
  -- the responder is a function: the response that is named is the one that was read
  · rw [hread status body e hfailed]
    constructor
    · rintro ⟨hstatus, text, hbody, hunread⟩
      exact ⟨request, status, body, text, hrequest, hreply, hstatus, hbody, hunread⟩
    · rintro ⟨other, status', body', text, hother, hreply', hstatus, hbody, hunread⟩
      rw [hrequest, Except.ok.injEq] at hother
      rw [← hother, hreply, Http.Reply.response.injEq] at hreply'
      obtain ⟨rfl, rfl⟩ := hreply'
      exact ⟨hstatus, text, hbody, hunread⟩

end Codes

/-! ## The calls of the client -/

/-- A call of the client with its arguments. -/
inductive ClientCall where
  | submitPin (token : String) (request : PinRequest)
  | unpin (token : String)
  | currentPin (userName : String)
  | recentListens (userName : String) (count : Nat)
  | validateToken (token : String)

namespace ClientCall

/-- The request of a call, or why there is none. -/
def request (client : Client) : ClientCall → Except Failure Http.Request
  | .submitPin token pin => (client.submitPin token pin).request
  | .unpin token => (client.unpin token).request
  | .currentPin userName => (client.currentPin userName).request
  | .recentListens userName count => (client.recentListens userName count).request
  | .validateToken token => (client.validateToken token).request

/-- Every request is prepared in one way. -/
theorem request_eq_prepare (client : Client) (call : ClientCall) :
    ∃ method url token body, call.request client = client.prepare method url token body := by
  cases call with
  | submitPin token pin => exact ⟨.post, client.endpoint ["pin"], _, _, rfl⟩
  | unpin token => exact ⟨.post, client.endpoint ["pin", "unpin"], _, none, rfl⟩
  | currentPin userName =>
    exact ⟨.get, client.endpoint [userName, "pins", "current"], none, none, rfl⟩
  | recentListens userName count =>
    exact ⟨.get, (client.endpoint ["user", userName, "listens"]).addPair "count"
      (toString (askedListens count)), none, none, rfl⟩
  | validateToken token => exact ⟨.get, client.endpoint ["validate-token"], _, none, rfl⟩

/-- The call comes to a failure. -/
def FailsWith (client : Client) (responder : Http.Responder) (e : Failure) : ClientCall → Prop
  | .submitPin token pin => (client.submitPin token pin).result responder = .error e
  | .unpin token => (client.unpin token).result responder = .error e
  | .currentPin userName => (client.currentPin userName).result responder = .error e
  | .recentListens userName count =>
    (client.recentListens userName count).result responder = .error e
  | .validateToken token => (client.validateToken token).result responder = .error e

/-- The text is not what the call asked for. Pinning and unpinning ask for no text at all. -/
def CannotRead (text : String) : ClientCall → Prop
  | .submitPin _ _ | .unpin _ => False
  | .currentPin _ => ∃ fault, Json.ofString Service.currentPin text = .error fault
  | .recentListens _ _ => ∃ fault, Json.ofString Service.recentListens text = .error fault
  | .validateToken _ => ∃ fault, Json.ofString TokenCheck.decode text = .error fault

/-- A success arrives for the call, complete, and its text is not what the call asked for. -/
def GetsUnreadable (client : Client) (responder : Http.Responder) (call : ClientCall) : Prop :=
  ∃ request status body text, call.request client = .ok request ∧
    responder request = .response status body ∧ Http.isSuccess status = true ∧
    body.text? = some text ∧ call.CannotRead text

end ClientCall

/-- A failed check of a token has a code of success exactly for a success whose body could not be
read: a token that is not valid has a code of its own. -/
theorem isSuccess_code_of_read_validateToken {client : Client} {token : String} {status : Nat}
    {body : Http.Body} {e : Failure}
    (h : (client.validateToken token).read status body = .error e) :
    Http.isSuccess e.code = true ↔ Http.isSuccess status = true ∧
      ∃ text, body.text? = some text ∧
        ∃ fault, Json.ofString TokenCheck.decode text = .error fault := by
  rcases read_validateToken_eq_error h with hread | ⟨rfl, check, hread, -⟩
  · exact isSuccess_code_of_readBody hread
  -- the token is not valid: the body was read, and the code is that of a refusal
  · obtain ⟨-, text, hbody, hcheck⟩ := readBody_eq_ok_iff.mp hread
    constructor
    · exact fun hcode => absurd hcode (by decide)
    · rintro ⟨-, other, hother, fault, hfault⟩
      rw [hbody, Option.some.injEq] at hother
      rw [← hother, hcheck] at hfault
      exact absurd hfault (by simp)

/-- **The codes of failed calls.**  What the browser gets for a failed call has a code from 200 to
299 if and only if a success arrived complete and its text was not what the call asked for. -/
theorem code_of_failed_call (client : Client) (responder : Http.Responder) (call : ClientCall)
    {e : Failure} (h : call.FailsWith client responder e) :
    ∃ message code, ServerError.ofFailure e = .answered message code ∧
      (200 ≤ code ∧ code ≤ 299 ↔ call.GetsUnreadable client responder) := by
  refine ⟨e.message, e.code, ofFailure_eq e, ?_⟩
  rw [← isSuccess_iff]
  have hunprepared : ∀ e, call.request client = .error e → e.status = none := by
    intro e he
    obtain ⟨method, url, token, body, hprepare⟩ := call.request_eq_prepare client
    exact Client.status_of_prepare_eq_error (hprepare.symm.trans he)
  cases call with
  | submitPin token pin =>
    refine Call.isSuccess_code_of_result hunprepared ?_ h
    intro status body e he
    simp [isSuccess_code_of_readStatus he, ClientCall.CannotRead]
  | unpin token =>
    refine Call.isSuccess_code_of_result hunprepared ?_ h
    intro status body e he
    simp [isSuccess_code_of_readStatus he, ClientCall.CannotRead]
  | currentPin userName =>
    exact Call.isSuccess_code_of_result hunprepared (fun _ _ _ => isSuccess_code_of_readBody) h
  | recentListens userName count =>
    exact Call.isSuccess_code_of_result hunprepared (fun _ _ _ => isSuccess_code_of_readBody) h
  | validateToken token =>
    exact Call.isSuccess_code_of_result hunprepared
      (fun _ _ _ => isSuccess_code_of_read_validateToken) h

/-- The request by which a client asks for the pin on a profile. -/
theorem plainClient_currentPin :
    (plainClient.currentPin "alice").request =
      .ok ⟨.get, plainClient.endpoint ["alice", "pins", "current"], none, defaultUserAgent, none,
        none⟩ := by
  have htoken : (none : Option String).all Http.isHeaderValue = true := rfl
  have hscheme : isSendable (plainClient.endpoint ["alice", "pins", "current"]).scheme = true := by
    decide +kernel
  exact Client.prepare_of_fit htoken hscheme

/-- A profile that is not found: the code is that of the response, which is no success. -/
theorem code_of_failed_call_not_found :
    ∃ e, (ClientCall.currentPin "alice").FailsWith plainClient
        (fun _ => .response 404 (.complete [])) e ∧
      ∃ message code, ServerError.ofFailure e = .answered message code ∧
        (200 ≤ code ∧ code ≤ 299 ↔ (ClientCall.currentPin "alice").GetsUnreadable plainClient
          fun _ => .response 404 (.complete [])) := by
  have hfails : (ClientCall.currentPin "alice").FailsWith plainClient
      (fun _ => .response 404 (.complete [])) (.api 404 (apiMessage 404 (.complete []))) :=
    (Call.result_of_response plainClient_currentPin rfl).trans (readBody_of_not_success rfl)
  exact ⟨_, hfails, code_of_failed_call plainClient _ (.currentPin "alice") hfails⟩

/-- **A failed call can have a code of success**: the service answers with 200 and with a text that
is no pin. -/
theorem success_code_of_failed_call :
    ∃ e, (ClientCall.currentPin "alice").FailsWith plainClient
        (fun _ => .response 200 (.complete (Text.Utf8.encode "not json"))) e ∧
      ServerError.ofFailure e = .answered "JSON parse error: expected ident" 200 := by
  have hfault : Json.ofString Service.currentPin "not json" = .error .expectedIdent := by
    decide +kernel
  have htext : (Http.Body.complete (Text.Utf8.encode "not json")).text? = some "not json" := by
    decide +kernel
  have hread : readBody Service.currentPin 200 (.complete (Text.Utf8.encode "not json")) =
      .error (.api 200 "JSON parse error: expected ident") := by
    rw [readBody_of_text rfl htext, hfault]
    rfl
  exact ⟨_, (Call.result_of_response plainClient_currentPin rfl).trans hread, rfl⟩

end PinBoard.Service
