import PinBoard.Pin.Flow

/-!
# What a submission does

Whether the call is made is decided by the viewer alone; what is sent, what is reported and what
becomes of the blurb is then decided by the state and the reply. The two lemmas on `State.submit`
say all of it, so nothing behind them opens a definition of the submission again.
-/

namespace PinBoard

/-! ## Who may pin -/

/-- The viewer owns the profile and holds a token that is not empty. -/
def Viewer.MayPin (v : Viewer) : Prop :=
  v.ownsProfile = true ∧ ∃ token, v.token = some token ∧ token ≠ ""

/-- The token to act with is the viewer's own, and it is there for an owner with a token only. -/
theorem Viewer.pinToken_eq_some_iff (v : Viewer) (token : String) :
    v.pinToken = some token ↔ v.ownsProfile = true ∧ v.token = some token ∧ token ≠ "" := by
  rw [Viewer.pinToken]
  by_cases howns : v.ownsProfile = true
  · rw [if_pos howns, Option.filter_eq_some_iff]
    simp [howns]
  · rw [if_neg howns]
    simp [howns]

/-- A viewer who may pin acts with the token they hold. -/
theorem Viewer.mayPin_iff (v : Viewer) : v.MayPin ↔ ∃ token, v.pinToken = some token := by
  simp only [Viewer.pinToken_eq_some_iff, Viewer.MayPin, exists_and_left]

/-- A viewer who may not pin has no token to act with. -/
theorem Viewer.pinToken_eq_none_iff (v : Viewer) : v.pinToken = none ↔ ¬ v.MayPin := by
  rw [Viewer.mayPin_iff, ← Option.isSome_iff_exists, Option.not_isSome_iff_eq_none]

instance (v : Viewer) : Decidable v.MayPin :=
  decidable_of_iff (v.pinToken.isSome = true)
    (by rw [Viewer.mayPin_iff, Option.isSome_iff_exists])

/-! ## What is sent and what is reported -/

/-- The identifier among the additional identifiers of a recording, empty where anything on the
way to it is missing. -/
def nestedMsid : Option Listen → String
  | some ⟨_, _, _, ⟨_, _, _, some ⟨some msid, _, _, _⟩⟩⟩ => msid
  | _ => ""

/-- What a request names is the nested identifier. -/
theorem getD_pinnableMsid (recording : Option Listen) :
    (recording.bind Listen.pinnableMsid).getD "" = nestedMsid recording := by
  rcases recording with _ | ⟨_, _, _, ⟨_, _, _, _ | ⟨_ | msid, _, _, _⟩⟩⟩ <;> rfl

/-- The alerts that a settled call gives rise to: one for a pin that was made, one for an error
that says something. -/
def settledAlerts (id : UInt64) (recording : Option Listen) : PinReply → List Alert
  | .ok status =>
    if status = 200 then [⟨id, .success, pinnedTitle, pinnedMessage recording⟩] else []
  | .error message => if message = "" then [] else [⟨id, .danger, pinFailedTitle, message⟩]

/-- The log behind a settled call is the log before it and the alerts of the call. -/
theorem report_ofReply (reply : PinReply) (recording : Option Listen) (log : AlertLog) :
    (PinOutcome.ofReply reply).report recording log =
      ⟨log.nextId + UInt64.ofNat (settledAlerts log.nextId recording reply).length,
        log.alerts ++ settledAlerts log.nextId recording reply⟩ := by
  rcases reply with message | status
  · rw [PinOutcome.ofReply, PinOutcome.report, AlertLog.report, settledAlerts]
    by_cases hm : message = ""
    · rw [if_pos (by rw [hm]; rfl), if_pos hm]
      simp
    · rw [if_neg (by rwa [String.isEmpty_iff]), if_neg hm]
      rfl
  · rw [PinOutcome.ofReply, settledAlerts]
    by_cases hs : status = 200
    · rw [if_pos hs, if_pos hs]
      rfl
    · rw [if_neg hs, if_neg hs]
      simp [PinOutcome.report]

/-- The blurb behind a settled call: a reply that is no error clears it. -/
theorem blurbAfter_ofReply (reply : PinReply) (b : Blurb) :
    (PinOutcome.ofReply reply).blurbAfter b = if reply.isOk then .empty else b := by
  rcases reply with message | status
  · rfl
  · rw [PinOutcome.ofReply]
    by_cases hs : status = 200
    · rw [if_pos hs]
      rfl
    · rw [if_neg hs]
      rfl

namespace Flow

/-! ## The submission as a whole -/

/-- **A viewer who may not pin sends nothing**, and nothing changes. -/
theorem State.submit_of_not_mayPin (s : State) (reply : PinReply) (h : ¬ s.viewer.MayPin) :
    s.submit reply = (s, ⟨.skipped, []⟩) := by
  have hcall : (Submission.start s.viewer s.recording s.blurb).call = none := by
    rw [Submission.start, pinCall?, (Viewer.pinToken_eq_none_iff s.viewer).mpr h, Option.map_none]
  simp only [State.submit, Submission.outcome, hcall]
  rfl

/-- **A viewer who may pin sends one call**, and its reply settles the rest. -/
theorem State.submit_of_pinToken (s : State) (reply : PinReply) {token : String}
    (h : s.viewer.pinToken = some token) :
    s.submit reply =
      ({ s with
          blurb := (PinOutcome.ofReply reply).blurbAfter s.blurb
          log := (PinOutcome.ofReply reply).report s.recording s.log },
        ⟨.ofReply reply, [⟨token, ⟨nestedMsid s.recording, s.blurb.content, none⟩⟩]⟩) := by
  have hcall : (Submission.start s.viewer s.recording s.blurb).call =
      some ⟨token, ⟨nestedMsid s.recording, s.blurb.content, none⟩⟩ := by
    rw [Submission.start, pinCall?, h, Option.map_some, PinRequest.untilDefault, getD_pinnableMsid]
  simp only [State.submit, Submission.outcome, hcall]
  rfl

end Flow

end PinBoard
