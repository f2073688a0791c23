import PinBoard.Proofs.Pin.Submission
import PinBoard.Proofs.Service.Reading
import PinBoard.Server.Error

/-!
# Pins that the service refuses

Any response to the pin request whose status is no success becomes a failure of the call. The viewer
is told of it by one alert, unless the service named an error without a text: what is shown is then
empty, and an error that says nothing is dropped.
-/

namespace PinBoard

open Service

/-- What is shown of a failure of the service is its wording. -/
theorem ServerError.shown_ofFailure (e : Failure) : (ServerError.ofFailure e).shown = e.message :=
  rfl

/-- **Refused pins and their alerts.**  Where the response to the pin request is no success, what
is shown of the failure is empty if and only if the service named an error without a text. Whoever
may pin is told by exactly one alert in every other case, and in that one the log stays as it is. -/
theorem alert_of_refused_pin (client : Client) (token : String) (request : PinRequest)
    (responder : Http.Responder) {sent : Http.Request} {status : Nat} {body : Http.Body}
    (hsent : (client.submitPin token request).request = .ok sent)
    (hreply : responder sent = .response status body) (hstatus : status < 200 ∨ 299 < status) :
    ∃ e, (client.submitPin token request).result responder = .error e ∧
      ((ServerError.ofFailure e).shown = "" ↔ NamesEmptyError body) ∧
      ∀ s : Flow.State, s.viewer.MayPin →
        (¬ NamesEmptyError body →
          (s.submit (.error (ServerError.ofFailure e).shown)).1.log.alerts = s.log.alerts ++
            [⟨s.log.nextId, .danger, pinFailedTitle, (ServerError.ofFailure e).shown⟩]) ∧
        (NamesEmptyError body →
          (s.submit (.error (ServerError.ofFailure e).shown)).1.log = s.log) := by
  have hfailure : Http.isSuccess status = false := by
    rw [← Bool.not_eq_true, isSuccess_iff]
    omega
  have hshown : (ServerError.ofFailure (.api status (apiMessage status body))).shown = "" ↔
      NamesEmptyError body := by
    rw [ServerError.shown_ofFailure]
    exact apiMessage_eq_empty_iff status body
  refine ⟨.api status (apiMessage status body), ?_, hshown, ?_⟩
  · rw [Call.result_of_response hsent hreply]
    exact readStatus_of_not_success hfailure
  · intro s hpin
    obtain ⟨own, hown⟩ := s.viewer.mayPin_iff.mp hpin
    rw [Flow.State.submit_of_pinToken s _ hown]
    simp only [report_ofReply, settledAlerts]
    constructor
    · intro hnamed
      rw [if_neg (mt hshown.mp hnamed)]
    · intro hnamed
      rw [if_pos (hshown.mpr hnamed)]
      simp

/-! ## One response of each kind -/

/-- The request by which that client pins a recording. -/
def plainPin : Http.Request :=
  ⟨.post, plainClient.endpoint ["pin"], some (tokenHeader "t"), defaultUserAgent,
    some "application/json", some (PinRequest.untilDefault "m" none).toJson.toText⟩

/-- It is what the client sends. -/
theorem plainClient_submitPin :
    (plainClient.submitPin "t" (.untilDefault "m" none)).request = .ok plainPin := by
  have htoken : (some "t").all Http.isHeaderValue = true := by decide +kernel
  have hscheme : isSendable (plainClient.endpoint ["pin"]).scheme = true := by decide +kernel
  exact Client.prepare_of_fit htoken hscheme

/-- A service that is down without a word: the viewer is told the phrase of the status. -/
theorem alert_of_refused_pin_blank :
    (503 < 200 ∨ 299 < 503) ∧ ¬ NamesEmptyError (.complete []) ∧
      ∃ e, (plainClient.submitPin "t" (.untilDefault "m" none)).result
          (fun _ => .response 503 (.complete [])) = .error e ∧
        ((Flow.State.start ⟨some "t", true⟩ none).submit
          (.error (ServerError.ofFailure e).shown)).1.log.alerts =
            [⟨0, .danger, pinFailedTitle, (ServerError.ofFailure e).shown⟩] := by
  have hnamed : ¬ NamesEmptyError (.complete []) := by
    rw [← apiMessage_eq_empty_iff 503]
    decide +kernel
  obtain ⟨e, he, -, halert⟩ := alert_of_refused_pin plainClient "t" (.untilDefault "m" none)
    (fun _ => .response 503 (.complete [])) plainClient_submitPin rfl (Or.inr (by decide))
  refine ⟨Or.inr (by decide), hnamed, e, he, ?_⟩
  exact (halert (Flow.State.start ⟨some "t", true⟩ none) (by decide)).1 hnamed

/-- **A refused pin can be silent**: the service names an error without a text, and the owner who
pinned is told nothing. -/
theorem silent_refused_pin :
    ∃ e, (plainClient.submitPin "t" (.untilDefault "m" none)).result
        (fun _ => .response 500 (.complete (Text.Utf8.encode "\x7b\"error\":\"\"\x7d"))) = .error e ∧
      (ServerError.ofFailure e).shown = "" ∧
      ((Flow.State.start ⟨some "t", true⟩ none).submit
        (.error (ServerError.ofFailure e).shown)).1.log.alerts = [] := by
  have hmessage : apiMessage 500 (.complete (Text.Utf8.encode "\x7b\"error\":\"\"\x7d")) = "" := by
    rw [apiMessage_eq_empty_iff]
    exact ⟨_, rfl, by decide +kernel⟩
  refine ⟨.api 500 "", ?_, rfl, by decide⟩
  rw [Call.result_of_response plainClient_submitPin rfl]
  exact (readStatus_of_not_success rfl).trans (by rw [hmessage])

end PinBoard
