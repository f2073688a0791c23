import PinBoard.Proofs.Service.Envelope
import PinBoard.Proofs.Service.Reading

/-!
# What comes of a call

A call sends one request at most, and the response to it decides what comes of the call. Pinning and
unpinning look at the status alone; the other calls read the body of a success. Whatever the call, a
status that is no success becomes a failure in which the service is quoted.
-/

namespace PinBoard.Service

open Json (OrNull restores_text)

/-! ## Responses and quotations -/

/-- A response arrives for a call. -/
def Call.Gets {α : Type} (c : Call α) (responder : Http.Responder) (status : Nat)
    (body : Http.Body) : Prop :=
  ∃ request, c.request = .ok request ∧ responder request = .response status body

/-- The phrase of a status is its standard phrase, or else a phrase for all others. -/
inductive Phrase (status : Nat) : String → Prop
  | standard {phrase : String} (h : (status, phrase) ∈ Http.reasons) : Phrase status phrase
  | unknown (h : ∀ phrase, (status, phrase) ∉ Http.reasons) : Phrase status "Unknown error"

/-- Every status has one phrase. -/
theorem phrase_iff {status : Nat} {phrase : String} :
    Phrase status phrase ↔ phrase = Http.reason status := by
  have hlisted : ∀ entry ∈ Http.reasons, Http.reason entry.1 = entry.2 := by decide +kernel
  constructor
  · intro h
    cases h with
    | standard h => exact (hlisted _ h).symm
    | unknown h =>
      have hmissing : Http.reasons.lookup status = none := by
        rw [List.lookup_eq_none_iff]
        rintro ⟨other, phrase⟩ hentry
        rw [bne_iff_ne]
        rintro rfl
        exact h phrase hentry
      rw [Http.reason, hmissing]
      rfl
  · rintro rfl
    cases hfound : Http.reasons.lookup status with
    | none =>
      have hunknown : Http.reason status = "Unknown error" := by
        rw [Http.reason, hfound]
        rfl
      rw [hunknown]
      apply Phrase.unknown
      intro phrase hmem
      exact absurd (List.lookup_eq_none_iff.mp hfound _ hmem) (by simp)
    | some phrase =>
      obtain ⟨before, after, hsplit, -⟩ := List.lookup_eq_some_iff.mp hfound
      have hmem : (status, phrase) ∈ Http.reasons := by
        rw [hsplit]
        simp
      rw [hlisted _ hmem]
      exact .standard hmem

/-- What the service is quoted with on a status that is no success: the error that it names; else
the phrase of the status if it says nothing, and all that it says if it says anything; and fixed
words if what it says broke off. -/
inductive Quotes (status : Nat) (body : Http.Body) : String → Prop
  | named {t : Json.Tree} {message : String} (hbody : body.Holds t) (h : NamesError t message) :
    Quotes status body message
  | silent {text phrase : String} (hbody : body.text? = some text)
    (hunnamed : ∀ t message, body.Holds t → ¬ NamesError t message)
    (hblank : Text.IsAllBlank text) (hphrase : Phrase status phrase) : Quotes status body phrase
  | spoken {text : String} (hbody : body.text? = some text)
    (hunnamed : ∀ t message, body.Holds t → ¬ NamesError t message)
    (hblank : ¬ Text.IsAllBlank text) : Quotes status body text
  | brokenOff (hbody : body = .truncated) : Quotes status body "Could not read error body"

/-- The message of a failure quotes the service, and nothing else does. -/
theorem quotes_iff {status : Nat} {body : Http.Body} {message : String} :
    Quotes status body message ↔ message = apiMessage status body := by
  constructor
  · intro h
    cases h with
    | named hbody h =>
      obtain ⟨text, htext, hread⟩ := reads_errorText.holds_iff.mpr ⟨_, hbody, h⟩
      exact (apiMessage_of_named status htext hread).symm
    | silent hbody hunnamed hblank hphrase =>
      obtain ⟨fault, hread⟩ := (reads_errorText.unread_iff hbody).mpr hunnamed
      rw [apiMessage_of_unnamed status hbody hread, if_pos hblank]
      exact phrase_iff.mp hphrase
    | spoken hbody hunnamed hblank =>
      obtain ⟨fault, hread⟩ := (reads_errorText.unread_iff hbody).mpr hunnamed
      rw [apiMessage_of_unnamed status hbody hread, if_neg hblank]
    | brokenOff hbody =>
      rw [hbody, apiMessage_truncated]
      rfl
  · rintro rfl
    cases body with
    | truncated =>
      rw [apiMessage_truncated]
      exact .brokenOff rfl
    | complete bytes =>
      have hbody : (Http.Body.complete bytes).text? = some (Http.textOfBytes bytes) := rfl
      cases hread : Json.ofString errorText (Http.textOfBytes bytes) with
      | ok message =>
        obtain ⟨t, hholds, hnames⟩ := reads_errorText.holds_iff.mp ⟨_, hbody, hread⟩
        rw [apiMessage_of_named status hbody hread]
        exact .named hholds hnames
      | error fault =>
        have hunnamed := (reads_errorText.unread_iff hbody).mp ⟨fault, hread⟩
        rw [apiMessage_of_unnamed status hbody hread]
        by_cases hblank : Text.IsAllBlank (Http.textOfBytes bytes)
        · rw [if_pos hblank]
          exact .silent hbody hunnamed hblank (phrase_iff.mpr rfl)
        · rw [if_neg hblank]
          exact .spoken hbody hunnamed hblank

/-! ## What calls promise -/

section Promises

variable {α β : Type}

/-- What every call promises. A refusal is told with the one message that quotes the service. -/
structure Call.Accounts (c : Call α) (responder : Http.Responder) : Prop where
  sent : (c.sent responder).length ≤ 1
  answered : ∀ status body, c.Gets responder status body →
    ∃ request, c.sent responder = [request] ∧ responder request = .response status body
  unanswered : (∀ status body, ¬ c.Gets responder status body) →
    ∃ fault, c.result responder = .error (.request fault)
  refused : ∀ status body, c.Gets responder status body → ¬ (200 ≤ status ∧ status ≤ 299) →
    ∃ message, (∀ quoted, Quotes status body quoted ↔ quoted = message) ∧
      c.result responder = .error (.api status message)

/-- What a call promises that looks at the status alone. -/
structure Call.ByStatus (c : Call Nat) (responder : Http.Responder) : Prop
    extends c.Accounts responder where
  success : ∀ status, c.result responder = .ok status ↔
    200 ≤ status ∧ status ≤ 299 ∧ ∃ body, c.Gets responder status body

/-- What a call promises that reads the body of a success: the value, if what the body says yields
one, and else that the token is not valid. A body that says nothing is told by what its reader
finds wrong with it. -/
structure Call.ByBody (c : Call α) (responder : Http.Responder) (d : Json.Decoder β)
    (Says : Json.Tree → β → Prop) (Yields : β → α → Prop) : Prop
    extends c.Accounts responder where
  success : ∀ a, c.result responder = .ok a ↔ ∃ status body t b,
    c.Gets responder status body ∧ 200 ≤ status ∧ status ≤ 299 ∧ body.Holds t ∧ Says t b ∧
      Yields b a
  invalid : c.result responder = .error .invalidToken ↔ ∃ status body t b,
    c.Gets responder status body ∧ 200 ≤ status ∧ status ≤ 299 ∧ body.Holds t ∧ Says t b ∧
      ∀ a, ¬ Yields b a
  unreadable : ∀ status body, c.Gets responder status body → 200 ≤ status → status ≤ 299 →
    ((∃ message, c.result responder = .error (.api status message)) ↔
      body ≠ .truncated ∧ ∀ t b, body.Holds t → ¬ Says t b)
  worded : ∀ status body, c.Gets responder status body → 200 ≤ status → status ≤ 299 →
    ∀ message, c.result responder = .error (.api status message) ↔
      ∃ text e, body.text? = some text ∧ Json.ofString d text = .error e ∧
        message = "JSON parse error: " ++ e.message
  brokenOff : ∀ status body, c.Gets responder status body → 200 ≤ status → status ≤ 299 →
    ((∃ fault, c.result responder = .error (.request fault)) ↔ body = .truncated)

end Promises

/-! ## From responses to results -/

section Results

variable {α : Type} {c : Call α} {responder : Http.Responder} {status : Nat} {body : Http.Body}

/-- At most one request is sent. -/
theorem Call.length_sent_le (c : Call α) (responder : Http.Responder) :
    (c.sent responder).length ≤ 1 := by
  rw [Call.sent]
  split
  · exact Nat.zero_le 1
  · split
    · exact Nat.le_refl 1
    · exact Nat.le_refl 1
    · exact Nat.zero_le 1

/-- What is answered was sent. -/
theorem Call.sent_of_gets (h : c.Gets responder status body) :
    ∃ request, c.sent responder = [request] ∧ responder request = .response status body := by
  obtain ⟨request, hrequest, hreply⟩ := h
  refine ⟨request, ?_, hreply⟩
  simp only [Call.sent, hrequest, hreply]

theorem Call.result_of_gets (h : c.Gets responder status body) :
    c.result responder = c.read status body := by
  obtain ⟨request, hrequest, hreply⟩ := h
  exact Call.result_of_response hrequest hreply

/-- A value comes of a response that is read as one. -/
theorem Call.result_eq_ok_iff_gets {a : α} :
    c.result responder = .ok a ↔
      ∃ status body, c.Gets responder status body ∧ c.read status body = .ok a := by
  rw [Call.result_eq_ok_iff]
  constructor
  · rintro ⟨request, status, body, hrequest, hreply, hread⟩
    exact ⟨status, body, ⟨request, hrequest, hreply⟩, hread⟩
  · rintro ⟨status, body, ⟨request, hrequest, hreply⟩, hread⟩
    exact ⟨request, status, body, hrequest, hreply, hread⟩

/-- Only requests that are unfit keep a call from being prepared. -/
def Call.Prepares (c : Call α) : Prop := ∀ e, c.request = .error e → ∃ fault, e = .request fault

/-- So it is with every request that a client prepares. -/
theorem Call.prepares_of_eq {client : Client} {method : Http.Method} {url : Url}
    {token requestBody : Option String}
    (h : c.request = client.prepare method url token requestBody) : c.Prepares :=
  fun _ he => Client.fault_of_prepare_eq_error (h.symm.trans he)

/-- Where a request is fit to be sent, whatever is answered arrives. -/
theorem Call.gets_of_eq {client : Client} {method : Http.Method} {url : Url}
    {token requestBody : Option String}
    (h : c.request = client.prepare method url token requestBody)
    (htoken : token.all Http.isHeaderValue = true) (hscheme : isSendable url.scheme = true)
    (status : Nat) (body : Http.Body) :
    c.Gets (fun _ => .response status body) status body :=
  ⟨_, h.trans (Client.prepare_of_fit htoken hscheme), rfl⟩

/-- A failure that is not one of the request comes of a response that is read as one. -/
theorem Call.gets_of_result_eq_error (hprepare : c.Prepares) {e : Failure}
    (h : c.result responder = .error e) (he : ∀ fault, e ≠ .request fault) :
    ∃ status body, c.Gets responder status body ∧ c.read status body = .error e := by
  rcases Call.result_eq_error h with
    hunprepared | ⟨request, hrequest, ⟨-, rfl⟩ | ⟨status, body, hreply, hread⟩⟩
  · obtain ⟨fault, rfl⟩ := hprepare e hunprepared
    exact absurd rfl (he fault)
  · exact absurd rfl (he _)
  · exact ⟨status, body, ⟨request, hrequest, hreply⟩, hread⟩

/-- What every call promises, once its reading of refusals is known. -/
theorem Call.accounts (hprepare : c.Prepares)
    (hrefuse : ∀ status body, Http.isSuccess status = false →
      c.read status body = .error (.api status (apiMessage status body))) :
    c.Accounts responder where
  sent := c.length_sent_le responder
  answered _ _ := Call.sent_of_gets
  unanswered hsilent := by
    rcases hrequest : c.request with e | request
    · obtain ⟨fault, rfl⟩ := hprepare e hrequest
      refine ⟨fault, ?_⟩
      simp only [Call.result, hrequest]
    · exact ⟨_, Call.result_of_no_response hrequest fun status body hreply =>
        hsilent status body ⟨request, hrequest, hreply⟩⟩
  refused status body hgets hstatus := by
    have hfailure : Http.isSuccess status = false := by
      rw [← Bool.not_eq_true, isSuccess_iff]
      exact hstatus
    refine ⟨apiMessage status body, fun _ => quotes_iff, ?_⟩
    rw [Call.result_of_gets hgets, hrefuse status body hfailure]

/-- A refusal is told with what quotes the service. -/
theorem Call.Accounts.result_of_quotes (h : c.Accounts responder) {message : String}
    (hgets : c.Gets responder status body) (hstatus : ¬ (200 ≤ status ∧ status ≤ 299))
    (hquotes : Quotes status body message) :
    c.result responder = .error (.api status message) := by
  obtain ⟨_, hquoted, hresult⟩ := h.refused status body hgets hstatus
  rw [(hquoted message).mp hquotes]
  exact hresult

/-- A call that looks at the status alone. -/
theorem Call.byStatus {c : Call Nat} (hprepare : c.Prepares) (hread : c.read = readStatus) :
    c.ByStatus responder where
  toAccounts := Call.accounts hprepare fun status body h => by
    rw [hread, readStatus_of_not_success h]
  success status := by
    rw [Call.result_eq_ok_iff_gets, hread]
    constructor
    · rintro ⟨answered, body, hgets, hok⟩
      obtain ⟨hsuccess, rfl⟩ := readStatus_eq_ok_iff.mp hok
      obtain ⟨hlow, hhigh⟩ := (isSuccess_iff answered).mp hsuccess
      exact ⟨hlow, hhigh, body, hgets⟩
    · rintro ⟨hlow, hhigh, body, hgets⟩
      have hsuccess : Http.isSuccess status = true := (isSuccess_iff status).mpr ⟨hlow, hhigh⟩
      exact ⟨status, body, hgets, readStatus_of_success hsuccess⟩

end Results

/-! ## Calls that read bodies -/

section Bodies

variable {α β : Type} {d : Json.Decoder β} {Says : Json.Tree → β → Prop} {status : Nat}
  {body : Http.Body}

/-- What becomes of what was read: a value, or the failure that the token is not valid. -/
structure Judges (accept : β → Except Failure α) (Yields : β → α → Prop) : Prop where
  ok_iff : ∀ b a, accept b = .ok a ↔ Yields b a
  error_iff : ∀ b e, accept b = .error e ↔ e = .invalidToken ∧ ∀ a, ¬ Yields b a

/-- The body of a success broke off, cannot be read, or says what is read of it. -/
theorem readBody_cases (hd : Json.Reads d Says) (h : Http.isSuccess status = true)
    (body : Http.Body) :
    (body = .truncated ∧ readBody d status body = .error (.request .brokenOff)) ∨
      (∃ text e, body.text? = some text ∧ Json.ofString d text = .error e ∧
        readBody d status body = .error (.api status (parseErrorMark ++ e.message))) ∨
      ∃ t b, body.Holds t ∧ Says t b ∧ readBody d status body = .ok b := by
  cases body with
  | truncated => exact Or.inl ⟨rfl, readBody_of_broken_off h rfl⟩
  | complete bytes =>
    have hbody : (Http.Body.complete bytes).text? = some (Http.textOfBytes bytes) := rfl
    have hread := readBody_of_text (d := d) h hbody
    cases hdecode : Json.ofString d (Http.textOfBytes bytes) with
    | error e =>
      rw [hdecode, error_mapError] at hread
      exact Or.inr (Or.inl ⟨_, e, hbody, hdecode, hread⟩)
    | ok b =>
      rw [hdecode, ok_mapError] at hread
      obtain ⟨t, hholds, hsaid⟩ := hd.holds_iff.mp ⟨_, hbody, hdecode⟩
      exact Or.inr (Or.inr ⟨t, b, hholds, hsaid, hread⟩)

variable {c : Call α} {responder : Http.Responder} {accept : β → Except Failure α}
  {Yields : β → α → Prop} (hd : Json.Reads d Says)
  (hread : ∀ status body, c.read status body = readBody d status body >>= accept)
  (hjudges : Judges accept Yields)
include hd hread

/-- What a call comes to on a success. -/
theorem Call.result_cases (hgets : c.Gets responder status body)
    (h : Http.isSuccess status = true) :
    (body = .truncated ∧ c.result responder = .error (.request .brokenOff)) ∨
      (∃ text e, body.text? = some text ∧ Json.ofString d text = .error e ∧
        c.result responder = .error (.api status (parseErrorMark ++ e.message))) ∨
      ∃ t b, body.Holds t ∧ Says t b ∧ c.result responder = accept b := by
  rw [Call.result_of_gets hgets, hread]
  rcases readBody_cases hd h body with
    ⟨rfl, hbody⟩ | ⟨text, e, htext, hdecode, hbody⟩ | ⟨t, b, hholds, hsaid, hbody⟩
  · rw [hbody]
    exact Or.inl ⟨rfl, rfl⟩
  · rw [hbody]
    exact Or.inr (Or.inl ⟨text, e, htext, hdecode, rfl⟩)
  · rw [hbody]
    exact Or.inr (Or.inr ⟨t, b, hholds, hsaid, rfl⟩)

/-- What the body of a success says is judged. -/
theorem Call.result_of_holds {t : Json.Tree} {b : β} (hgets : c.Gets responder status body)
    (h : Http.isSuccess status = true) (hholds : body.Holds t) (hsaid : Says t b) :
    c.result responder = accept b := by
  have hdecoded := hd.holds_iff.mpr ⟨t, hholds, hsaid⟩
  rw [Call.result_of_gets hgets, hread, readBody_eq_ok_iff.mpr ⟨h, hdecoded⟩, ok_bind]

include hjudges

/-- A value comes of a complete success that says what yields it. -/
theorem Call.result_eq_ok_iff_holds {a : α} :
    c.result responder = .ok a ↔ ∃ status body t b, c.Gets responder status body ∧
      200 ≤ status ∧ status ≤ 299 ∧ body.Holds t ∧ Says t b ∧ Yields b a := by
  constructor
  · intro h
    obtain ⟨status, body, hgets, hok⟩ := Call.result_eq_ok_iff_gets.mp h
    rw [hread] at hok
    obtain ⟨b, hb, haccept⟩ := bind_eq_ok_iff.mp hok
    obtain ⟨hsuccess, hdecoded⟩ := readBody_eq_ok_iff.mp hb
    obtain ⟨hlow, hhigh⟩ := (isSuccess_iff status).mp hsuccess
    obtain ⟨t, hholds, hsaid⟩ := hd.holds_iff.mp hdecoded
    exact ⟨status, body, t, b, hgets, hlow, hhigh, hholds, hsaid,
      (hjudges.ok_iff b a).mp haccept⟩
  · rintro ⟨status, body, t, b, hgets, hlow, hhigh, hholds, hsaid, hyields⟩
    have hsuccess : Http.isSuccess status = true := (isSuccess_iff status).mpr ⟨hlow, hhigh⟩
    rw [Call.result_of_holds hd hread hgets hsuccess hholds hsaid]
    exact (hjudges.ok_iff b a).mpr hyields

/-- A token is not valid if what a complete success says yields no value. -/
theorem Call.result_eq_invalid_iff (hprepare : c.Prepares) :
    c.result responder = .error .invalidToken ↔ ∃ status body t b,
      c.Gets responder status body ∧ 200 ≤ status ∧ status ≤ 299 ∧ body.Holds t ∧ Says t b ∧
        ∀ a, ¬ Yields b a := by
  constructor
  · intro h
    obtain ⟨status, body, hgets, hfailed⟩ :=
      Call.gets_of_result_eq_error hprepare h fun fault => by simp
    -- a refusal is quoted before anything is judged
    have hsuccess : Http.isSuccess status = true := by
      by_contra hrefused
      rw [hread, readBody_of_not_success (Bool.not_eq_true _ ▸ hrefused)] at hfailed
      exact absurd hfailed (by simp [bind, Except.bind])
    obtain ⟨hlow, hhigh⟩ := (isSuccess_iff status).mp hsuccess
    rcases Call.result_cases hd hread hgets hsuccess with
      ⟨-, hbroken⟩ | ⟨text, e, -, -, hunread⟩ | ⟨t, b, hholds, hsaid, hjudged⟩
    · exact absurd (h.symm.trans hbroken) (by simp)
    · exact absurd (h.symm.trans hunread) (by simp)
    · exact ⟨status, body, t, b, hgets, hlow, hhigh, hholds, hsaid,
        ((hjudges.error_iff b _).mp (hjudged.symm.trans h)).2⟩
  · rintro ⟨status, body, t, b, hgets, hlow, hhigh, hholds, hsaid, hnone⟩
    have hsuccess : Http.isSuccess status = true := (isSuccess_iff status).mpr ⟨hlow, hhigh⟩
    rw [Call.result_of_holds hd hread hgets hsuccess hholds hsaid]
    exact (hjudges.error_iff b _).mpr ⟨rfl, hnone⟩

/-- On a success the service is quoted only if its answer cannot be read. -/
theorem Call.result_eq_api_iff (hgets : c.Gets responder status body)
    (h : Http.isSuccess status = true) (message : String) :
    c.result responder = .error (.api status message) ↔
      ∃ text e, body.text? = some text ∧ Json.ofString d text = .error e ∧
        message = parseErrorMark ++ e.message := by
  rcases Call.result_cases hd hread hgets h with
    ⟨rfl, hbroken⟩ | ⟨text, e, htext, hdecode, hunread⟩ | ⟨t, b, hholds, hsaid, hjudged⟩
  · rw [hbroken]
    simp [Http.Body.text?]
  · rw [hunread, htext]
    simp [hdecode, eq_comm]
  · obtain ⟨text, htext, hdecode⟩ := hd.holds_iff.mpr ⟨t, hholds, hsaid⟩
    rw [hjudged, hjudges.error_iff, htext]
    simp [hdecode]

/-- This is so if the answer is complete and says nothing. -/
theorem Call.exists_api_iff (hgets : c.Gets responder status body)
    (h : Http.isSuccess status = true) :
    (∃ message, c.result responder = .error (.api status message)) ↔
      body ≠ .truncated ∧ ∀ t b, body.Holds t → ¬ Says t b := by
  simp only [Call.result_eq_api_iff hd hread hjudges hgets h]
  cases body with
  | truncated => simp [Http.Body.text?]
  | complete bytes =>
    have hbody : (Http.Body.complete bytes).text? = some (Http.textOfBytes bytes) := rfl
    rw [← hd.unread_iff hbody, hbody]
    constructor
    · rintro ⟨_, text, e, htext, hdecode, -⟩
      obtain rfl := Option.some.inj htext
      exact ⟨by simp, e, hdecode⟩
    · rintro ⟨-, e, hdecode⟩
      exact ⟨_, _, e, rfl, hdecode, rfl⟩

/-- On a success the request is at fault only if the answer broke off. -/
theorem Call.result_eq_request_iff (hgets : c.Gets responder status body)
    (h : Http.isSuccess status = true) :
    (∃ fault, c.result responder = .error (.request fault)) ↔ body = .truncated := by
  have hcomplete : ∀ text, body.text? = some text → body ≠ .truncated := by
    rintro text htext rfl
    exact absurd htext (by simp [Http.Body.text?])
  rcases Call.result_cases hd hread hgets h with
    ⟨rfl, hbroken⟩ | ⟨text, e, htext, -, hunread⟩ | ⟨t, b, ⟨text, htext, -⟩, -, hjudged⟩
  · rw [hbroken]
    simp
  · rw [hunread]
    simp [hcomplete text htext]
  · rw [hjudged]
    simp [hcomplete text htext, hjudges.error_iff]

/-- A call that reads the body of a success and judges what it says. -/
theorem Call.byBody (hprepare : c.Prepares) : c.ByBody responder d Says Yields where
  toAccounts := Call.accounts hprepare fun status body h => by
    rw [hread, readBody_of_not_success h]
    rfl
  success _ := Call.result_eq_ok_iff_holds hd hread hjudges
  invalid := Call.result_eq_invalid_iff hd hread hjudges hprepare
  unreadable status _ hgets hlow hhigh :=
    Call.exists_api_iff hd hread hjudges hgets ((isSuccess_iff status).mpr ⟨hlow, hhigh⟩)
  worded status _ hgets hlow hhigh :=
    Call.result_eq_api_iff hd hread hjudges hgets ((isSuccess_iff status).mpr ⟨hlow, hhigh⟩)
  brokenOff status _ hgets hlow hhigh :=
    Call.result_eq_request_iff hd hread hjudges hgets ((isSuccess_iff status).mpr ⟨hlow, hhigh⟩)

end Bodies

/-! ## The calls -/

/-- What was read is the value itself. -/
theorem judges_ok {α : Type} : Judges (Except.ok : α → Except Failure α) Eq where
  ok_iff b a := by simp
  error_iff b e := by simp

/-- A valid token with a named owner yields the owner, and nothing else does. -/
theorem judges_owner :
    Judges
      (fun check : TokenCheck => match check.owner with
        | some name => .ok name
        | none => .error Failure.invalidToken)
      fun check name => check.valid = true ∧ check.userName = some name where
  ok_iff check name := by
    obtain ⟨valid, userName⟩ := check
    cases valid <;> cases userName <;> simp [TokenCheck.owner]
  error_iff check e := by
    obtain ⟨valid, userName⟩ := check
    cases valid <;> cases userName <;> simp [TokenCheck.owner, eq_comm]

/-- **What comes of a call.**  One request at most is sent. Pinning and unpinning succeed with
any status from 200 to 299 and no matter what body; the other calls succeed if the body of such a
response arrives complete and says what they ask for, which is what they then give. What else comes
of a call tells apart that it was not answered, that its answer broke off or says nothing that was
asked for, that the token is not valid, and that the service refused, which then is quoted. -/
theorem outcome_of_call (client : Client) (responder : Http.Responder) :
    (∀ token request, (client.submitPin token request).ByStatus responder) ∧
    (∀ token, (client.unpin token).ByStatus responder) ∧
    (∀ userName, (client.currentPin userName).ByBody responder Service.currentPin TellsPin Eq) ∧
    (∀ userName count,
      (client.recentListens userName count).ByBody responder Service.recentListens TellsListens
        Eq) ∧
    ∀ token, (client.validateToken token).ByBody responder TokenCheck.decode TellsCheck
      fun check name => check.valid = true ∧ check.userName = some name := by
  have hbind : ∀ {α : Type} (d : Json.Decoder α) (status : Nat) (body : Http.Body),
      readBody d status body = readBody d status body >>= Except.ok := by
    intro α d status body
    cases readBody d status body <;> rfl
  refine ⟨?_, ?_, ?_, ?_, ?_⟩
  · intro token request
    exact Call.byStatus (Call.prepares_of_eq rfl) rfl
  · intro token
    exact Call.byStatus (Call.prepares_of_eq rfl) rfl
  · intro userName
    have hrequest : (client.currentPin userName).request =
        client.prepare .get (client.endpoint [userName, "pins", "current"]) none none := rfl
    exact Call.byBody reads_currentPin (hbind _) judges_ok (Call.prepares_of_eq hrequest)
  · intro userName count
    have hrequest : (client.recentListens userName count).request =
        client.prepare .get ((client.endpoint ["user", userName, "listens"]).addPair "count"
          (toString (askedListens count))) none none := rfl
    exact Call.byBody reads_recentListens (hbind _) judges_ok (Call.prepares_of_eq hrequest)
  · intro token
    exact Call.byBody reads_tokenCheck (fun _ _ => rfl) judges_owner (Call.prepares_of_eq rfl)

/-! ## Some answers -/

/-- A pin of a track of which nothing is known. -/
def plainPin : PinnedRecording := ⟨1, "track", none, some "a blurb", 1700000000, 1700600000, none⟩

/-- An answer with that pin. -/
def pinAnswer : Json.Tree := .ofMembers [("pinned_recording", plainPin.toJson)]

/-- It tells the pin. -/
theorem tellsPin_pinAnswer : TellsPin pinAnswer (some plainPin) := by
  have hpin : OrNull (fun t pin => PinnedRecording.decode t = .ok pin) plainPin.toJson
      (some plainPin) :=
    .value (PinnedRecording.restores.ne_null plainPin) (PinnedRecording.restores.read plainPin)
  exact .member (Json.Members.haveNames_ofList _) rfl hpin

/-- An answer to which a token is valid. -/
def tokenAnswer : Json.Tree := .ofMembers [("valid", .bool true), ("user_name", .ofString "alice")]

/-- It says whose token it is. -/
theorem tellsCheck_tokenAnswer : TellsCheck tokenAnswer ⟨true, some "alice"⟩ := by
  have hname : OrNull (fun t name => t = .ofString name) (.ofString "alice") (some "alice") :=
    .value (restores_text.ne_null "alice") rfl
  exact .named (Json.Members.haveNames_ofList _) rfl rfl hname

/-- An answer that names an error. -/
def refusal : Json.Tree := .ofMembers [("error", .ofString "Invalid token")]

/-- A blank body has the standard phrase of the status, if there is one, and else that for all
others. -/
theorem quotes_blank {status : Nat} {phrase : String} (hphrase : Phrase status phrase) :
    Quotes status (.complete []) phrase := by
  have hunnamed : ∀ t message, (Http.Body.complete []).Holds t → ¬ NamesError t message := by
    apply (reads_errorText.unread_iff rfl).mp
    exact ⟨_, rfl⟩
  exact .silent rfl hunnamed (by decide) hphrase

/-- A pin, a token that is valid, an error that is named, and blank bodies with either phrase. -/
theorem outcome_of_call_plainClient :
    (plainClient.currentPin "alice").result (fun _ => .response 200 (.ofTree pinAnswer)) =
      .ok (some plainPin) ∧
    (plainClient.validateToken "token").result (fun _ => .response 200 (.ofTree tokenAnswer)) =
      .ok "alice" ∧
    (plainClient.unpin "token").result (fun _ => .response 401 (.ofTree refusal)) =
      .error (.api 401 "Invalid token") ∧
    (plainClient.unpin "token").result (fun _ => .response 502 (.complete [])) =
      .error (.api 502 "Bad Gateway") ∧
    (plainClient.unpin "token").result (fun _ => .response 599 (.complete [])) =
      .error (.api 599 "Unknown error") := by
  have hheader : (some "token").all Http.isHeaderValue = true := by decide +kernel
  have hunpin : (plainClient.unpin "token").request = plainClient.prepare .post
      (plainClient.endpoint ["pin", "unpin"]) (some "token") none := rfl
  have hrefused := Call.gets_of_eq hunpin hheader (by decide +kernel)
  refine ⟨?_, ?_, ?_, ?_, ?_⟩
  · obtain ⟨-, -, hcall, -, -⟩ :=
      outcome_of_call plainClient fun _ => .response 200 (.ofTree pinAnswer)
    have hrequest : (plainClient.currentPin "alice").request = plainClient.prepare .get
        (plainClient.endpoint ["alice", "pins", "current"]) none none := rfl
    have hgets := Call.gets_of_eq hrequest rfl (by decide +kernel) 200 (.ofTree pinAnswer)
    have hholds : (Http.Body.ofTree pinAnswer).Holds pinAnswer := by
      apply Http.Body.holds_ofTree
      exact ⟨⟨_, rfl⟩, PinnedRecording.restores.isWritable plainPin, trivial⟩
    exact ((hcall "alice").success (some plainPin)).mpr
      ⟨200, _, _, _, hgets, by decide, by decide, hholds, tellsPin_pinAnswer, rfl⟩
  · obtain ⟨-, -, -, -, hcall⟩ :=
      outcome_of_call plainClient fun _ => .response 200 (.ofTree tokenAnswer)
    have hrequest : (plainClient.validateToken "token").request = plainClient.prepare .get
        (plainClient.endpoint ["validate-token"]) (some "token") none := rfl
    have hgets := Call.gets_of_eq hrequest hheader (by decide +kernel) 200 (.ofTree tokenAnswer)
    have hholds : (Http.Body.ofTree tokenAnswer).Holds tokenAnswer := by
      apply Http.Body.holds_ofTree
      exact ⟨⟨_, rfl⟩, trivial, ⟨_, rfl⟩, ⟨_, rfl⟩, trivial⟩
    exact ((hcall "token").success "alice").mpr
      ⟨200, _, _, _, hgets, by decide, by decide, hholds, tellsCheck_tokenAnswer, rfl, rfl⟩
  · obtain ⟨-, hcall, -⟩ := outcome_of_call plainClient fun _ => .response 401 (.ofTree refusal)
    have hholds : (Http.Body.ofTree refusal).Holds refusal := by
      apply Http.Body.holds_ofTree
      exact ⟨⟨_, rfl⟩, ⟨_, rfl⟩, trivial⟩
    have hnames : NamesError refusal "Invalid token" :=
      .member (Json.Members.haveNames_ofList _) rfl rfl
    exact (hcall "token").result_of_quotes (hrefused 401 _) (by decide) (.named hholds hnames)
  · obtain ⟨-, hcall, -⟩ := outcome_of_call plainClient fun _ => .response 502 (.complete [])
    have hlisted : (502, "Bad Gateway") ∈ Http.reasons := by decide +kernel
    exact (hcall "token").result_of_quotes (hrefused 502 _) (by decide)
      (quotes_blank (.standard hlisted))
  · obtain ⟨-, hcall, -⟩ := outcome_of_call plainClient fun _ => .response 599 (.complete [])
    have hcodes : 599 ∉ Http.reasons.map Prod.fst := by decide +kernel
    have hunlisted : ∀ phrase, (599, phrase) ∉ Http.reasons := by
      intro phrase hmem
      exact hcodes (List.mem_map_of_mem hmem)
    exact (hcall "token").result_of_quotes (hrefused 599 _) (by decide)
      (quotes_blank (.unknown hunlisted))

end PinBoard.Service
