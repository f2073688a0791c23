import PinBoard.Proofs.Result
import PinBoard.Service.Client
import Mathlib.Data.List.Basic

/-!
# What a response comes to

A status that is no success decides the failure before the body is looked at; the body of a success
is missing, unreadable or read. What the service is quoted with on a failure is empty in one case
only: the service named an error without a text.
-/

namespace PinBoard.Service

/-! ## Results of calls -/

section Result

variable {α : Type} {c : Call α} {responder : Http.Responder}

/-- A response is read. -/
theorem Call.result_of_response {request : Http.Request} {status : Nat} {body : Http.Body}
    (hrequest : c.request = .ok request) (hreply : responder request = .response status body) :
    c.result responder = c.read status body := by
  simp only [Call.result, hrequest, hreply]

/-- Without a response the call fails as unanswered. -/
theorem Call.result_of_no_response {request : Http.Request} (hrequest : c.request = .ok request)
    (hreply : ∀ status body, responder request ≠ .response status body) :
    c.result responder = .error (.request (.unanswered request.shownUrl)) := by
  simp only [Call.result, hrequest]
  cases hfound : responder request with
  | response status body => exact absurd hfound (hreply status body)
  | dropped | unreachable => rfl

/-- A call comes to a value if it is answered and the response is read as this value. -/
theorem Call.result_eq_ok_iff {a : α} :
    c.result responder = .ok a ↔ ∃ request status body, c.request = .ok request ∧
      responder request = .response status body ∧ c.read status body = .ok a := by
  constructor
  · intro h
    rcases hrequest : c.request with failure | request
    · simp only [Call.result, hrequest] at h
      exact absurd h (by simp)
    · by_cases hreply : ∃ status body, responder request = .response status body
      · obtain ⟨status, body, hreply⟩ := hreply
        rw [Call.result_of_response hrequest hreply] at h
        exact ⟨request, status, body, rfl, hreply, h⟩
      · simp only [not_exists] at hreply
        rw [Call.result_of_no_response hrequest hreply] at h
        exact absurd h (by simp)
  · rintro ⟨request, status, body, hrequest, hreply, hread⟩
    rw [Call.result_of_response hrequest hreply, hread]

/-- **Why a call fails**: it could not be prepared, nobody answered, or the response says so. -/
theorem Call.result_eq_error {e : Failure} (h : c.result responder = .error e) :
    c.request = .error e ∨
      ∃ request, c.request = .ok request ∧
        ((∀ status body, responder request ≠ .response status body) ∧
            e = .request (.unanswered request.shownUrl) ∨
          ∃ status body, responder request = .response status body ∧
            c.read status body = .error e) := by
  rcases hrequest : c.request with failure | request
  · simp only [Call.result, hrequest] at h
    exact Or.inl (by rw [Except.error.inj h])
  · refine Or.inr ⟨request, rfl, ?_⟩
    by_cases hreply : ∃ status body, responder request = .response status body
    · obtain ⟨status, body, hreply⟩ := hreply
      rw [Call.result_of_response hrequest hreply] at h
      exact Or.inr ⟨status, body, hreply, h⟩
    · simp only [not_exists] at hreply
      rw [Call.result_of_no_response hrequest hreply] at h
      exact Or.inl ⟨hreply, (Except.error.inj h).symm⟩

end Result

/-! ## Preparing requests -/

/-- A token fit for a header and a scheme to send by are all that a request needs. -/
theorem Client.prepare_of_fit {c : Client} {method : Http.Method} {url : Url}
    {token body : Option String} (htoken : token.all Http.isHeaderValue = true)
    (hscheme : isSendable url.scheme = true) :
    c.prepare method url token body =
      .ok ⟨method, url, token.map tokenHeader, c.userAgent, body.map fun _ => "application/json",
        body⟩ := by
  rw [Client.prepare, if_pos htoken, if_pos hscheme]

/-- A request carries the token that it was prepared with. -/
theorem Client.authorization_of_prepare {c : Client} {method : Http.Method} {url : Url}
    {token body : Option String} {request : Http.Request}
    (h : c.prepare method url token body = .ok request) :
    request.authorization = token.map tokenHeader := by
  rw [Client.prepare] at h
  split at h
  · split at h
    · rw [← Except.ok.inj h]
    · exact absurd h (by simp)
  · exact absurd h (by simp)

/-- A request that cannot be prepared fails as a request. -/
theorem Client.fault_of_prepare_eq_error {c : Client} {method : Http.Method} {url : Url}
    {token body : Option String} {e : Failure} (h : c.prepare method url token body = .error e) :
    ∃ fault, e = .request fault := by
  rw [Client.prepare] at h
  split at h
  · split at h
    · exact absurd h (by simp)
    · exact ⟨_, (Except.error.inj h).symm⟩
  · exact ⟨_, (Except.error.inj h).symm⟩

/-- Such a failure has no status. -/
theorem Client.status_of_prepare_eq_error {c : Client} {method : Http.Method} {url : Url}
    {token body : Option String} {e : Failure} (h : c.prepare method url token body = .error e) :
    e.status = none := by
  obtain ⟨fault, rfl⟩ := Client.fault_of_prepare_eq_error h
  rfl

/-! ## Reading responses -/

/-- A status is a success from 200 to 299. -/
theorem isSuccess_iff (status : Nat) :
    Http.isSuccess status = true ↔ 200 ≤ status ∧ status ≤ 299 := by
  rw [Http.isSuccess, Bool.and_eq_true, decide_eq_true_iff, decide_eq_true_iff]

section Reading

variable {α : Type} {d : Json.Decoder α} {status : Nat} {body : Http.Body}

theorem checkStatus_of_success (h : Http.isSuccess status = true) :
    checkStatus status body = .ok () := by
  rw [checkStatus, if_pos h]

theorem checkStatus_of_not_success (h : Http.isSuccess status = false) :
    checkStatus status body = .error (.api status (apiMessage status body)) := by
  rw [checkStatus, if_neg (by rw [h]; exact Bool.false_ne_true)]

/-- A success is passed on by its status, whatever its body. -/
theorem readStatus_of_success (h : Http.isSuccess status = true) :
    readStatus status body = .ok status := by
  rw [readStatus, checkStatus_of_success h]
  rfl

/-- Any other status is a failure with that status and what the service says. -/
theorem readStatus_of_not_success (h : Http.isSuccess status = false) :
    readStatus status body = .error (.api status (apiMessage status body)) := by
  rw [readStatus, checkStatus_of_not_success h]
  rfl

/-- The status of a success is all that comes of it. -/
theorem readStatus_eq_ok_iff {answered : Nat} :
    readStatus status body = .ok answered ↔ Http.isSuccess status = true ∧ status = answered := by
  rcases hstatus : Http.isSuccess status with _ | _
  · rw [readStatus_of_not_success hstatus]
    simp
  · rw [readStatus_of_success hstatus]
    simp

theorem readBody_of_not_success (h : Http.isSuccess status = false) :
    readBody d status body = .error (.api status (apiMessage status body)) := by
  rw [readBody, checkStatus_of_not_success h]
  rfl

/-- The body of a success that broke off cannot be had. -/
theorem readBody_of_broken_off (h : Http.isSuccess status = true) (hbody : body.text? = none) :
    readBody d status body = .error (.request .brokenOff) := by
  rw [readBody, checkStatus_of_success h]
  simp only [hbody]
  rfl

/-- The body of a success is read, and what is wrong with it is told with the status. -/
theorem readBody_of_text {text : String} (h : Http.isSuccess status = true)
    (hbody : body.text? = some text) :
    readBody d status body =
      (Json.ofString d text).mapError fun e => .api status (parseErrorMark ++ e.message) := by
  rw [readBody, checkStatus_of_success h]
  simp only [hbody]
  rcases Json.ofString d text with e | value <;> rfl

/-- A value comes of a complete success that holds it, and of nothing else. -/
theorem readBody_eq_ok_iff {value : α} :
    readBody d status body = .ok value ↔ Http.isSuccess status = true ∧
      ∃ text, body.text? = some text ∧ Json.ofString d text = .ok value := by
  rcases hstatus : Http.isSuccess status with _ | _
  · rw [readBody_of_not_success hstatus]
    simp
  · rcases hbody : body.text? with _ | text
    · rw [readBody_of_broken_off hstatus hbody]
      simp
    · rw [readBody_of_text hstatus hbody]
      rcases hread : Json.ofString d text with fault | other <;> simp [Except.mapError, hread]

/-- **Why a check of a token fails**: its response cannot be read, or it names no owner. -/
theorem read_validateToken_eq_error {client : Client} {token : String} {e : Failure}
    (h : (client.validateToken token).read status body = .error e) :
    readBody TokenCheck.decode status body = .error e ∨
      e = .invalidToken ∧
        ∃ check, readBody TokenCheck.decode status body = .ok check ∧ check.owner = none := by
  rcases hread : readBody TokenCheck.decode status body with failure | check
  · refine Or.inl ?_
    rw [show failure = e by simpa [Client.validateToken, hread, bind, Except.bind] using h]
  · rcases howner : check.owner with _ | name
    · refine Or.inr ⟨?_, check, rfl, howner⟩
      simpa [Client.validateToken, hread, howner, bind, Except.bind, eq_comm] using h
    · simp [Client.validateToken, hread, howner, bind, Except.bind] at h

/-- A token is confirmed by a success that is read as a valid token with a named owner. -/
theorem read_validateToken_eq_ok_iff {client : Client} {token name : String} :
    (client.validateToken token).read status body = .ok name ↔
      readBody TokenCheck.decode status body = .ok ⟨true, some name⟩ := by
  constructor
  · intro h
    obtain ⟨⟨valid, userName⟩, hread, h⟩ := bind_eq_ok_iff.mp h
    rw [hread]
    rcases valid with _ | _
    · exact absurd h (by simp [TokenCheck.owner])
    · rcases userName with _ | owner
      · exact absurd h (by simp [TokenCheck.owner])
      · rw [← Except.ok.inj h]
  · intro h
    exact bind_eq_ok_iff.mpr ⟨⟨true, some name⟩, h, rfl⟩

end Reading

/-! ## What the service says -/

/-- The service named an error, and the error has no text. -/
def NamesEmptyError (body : Http.Body) : Prop :=
  ∃ text, body.text? = some text ∧ Json.ofString errorText text = .ok ""

/-- Every status has a phrase. -/
theorem reason_ne_empty (status : Nat) : Http.reason status ≠ "" := by
  have hall : ∀ entry ∈ Http.reasons, entry.2 ≠ "" := by decide
  rw [Http.reason]
  rcases hfound : Http.reasons.lookup status with _ | phrase
  · rw [Option.getD_none]
    decide
  · obtain ⟨before, after, hsplit, -⟩ := List.lookup_eq_some_iff.mp hfound
    rw [Option.getD_some]
    exact hall (status, phrase) (by rw [hsplit]; simp)

/-- The words for a body that broke off are no named error. -/
theorem errorText_unreadBody : Json.ofString errorText unreadBody = .error .expectedValue := by
  decide +kernel

section Message

variable (status : Nat) {body : Http.Body} {text : String}

/-- The service is quoted with the error that it names. -/
theorem apiMessage_of_named {message : String} (hbody : body.text? = some text)
    (hread : Json.ofString errorText text = .ok message) : apiMessage status body = message := by
  simp only [apiMessage, hbody, Option.getD_some, hread]

/-- Where no error is named a text that says nothing gives way to the phrase of the status. -/
theorem apiMessage_of_unnamed {fault : Json.Error} (hbody : body.text? = some text)
    (hread : Json.ofString errorText text = .error fault) :
    apiMessage status body = if Text.IsAllBlank text then Http.reason status else text := by
  simp only [apiMessage, hbody, Option.getD_some, hread]

/-- A body that broke off has words of its own. -/
theorem apiMessage_truncated : apiMessage status .truncated = unreadBody := by
  have hblank : ¬ Text.IsAllBlank unreadBody := by decide +kernel
  simp only [apiMessage, Http.Body.text?, Option.getD_none, errorText_unreadBody]
  exact if_neg hblank

end Message

/-- **What the service is quoted with is empty in one case only**, that of an error named without a
text: a blank body gives way to the phrase of the status. -/
theorem apiMessage_eq_empty_iff (status : Nat) (body : Http.Body) :
    apiMessage status body = "" ↔ NamesEmptyError body := by
  rw [NamesEmptyError]
  cases body with
  | truncated =>
    rw [apiMessage_truncated]
    simp [unreadBody, Http.Body.text?]
  | complete bytes =>
    simp only [Http.Body.text?, Option.some.injEq, exists_eq_left']
    rcases hread : Json.ofString errorText (Http.textOfBytes bytes) with e | message
    -- no error is named: the phrase of the status or the text as it is, which then is not blank
    · rw [apiMessage_of_unnamed status rfl hread]
      simp only [reduceCtorEq, iff_false]
      by_cases hblank : Text.IsAllBlank (Http.textOfBytes bytes)
      · rw [if_pos hblank]
        exact reason_ne_empty status
      · rw [if_neg hblank]
        intro hempty
        rw [hempty] at hblank
        exact hblank (by decide)
    · rw [apiMessage_of_named status rfl hread]
      simp

/-! ## A client -/

/-- A client of a service at the root of a host. -/
def plainClient : Client :=
  ⟨⟨"http", "", none, some "lb.test", none, [""], none, none⟩, defaultUserAgent⟩

end PinBoard.Service
