import PinBoard.Pin.Overlap
import PinBoard.Proofs.Pin.Flow
import Mathlib.Data.List.Perm.Basic

/-!
# Runs of overlapping submissions

Submissions settle in any order, and each of them knows only the blurb of its start. What a run
leaves behind is nevertheless told by its history: the text is that of the last accepted edit since
a call last settled without an error, the calls are those of the starts, in their order and with
their texts, and the viewer is told of a pin as often as a submission came to one. One lemma says
what a single step does to all of these, and the run lemma takes the last step off.
-/

namespace PinBoard.Overlap

/-! ## Histories -/

/-- The steps of a run, each with the state in which it is taken. -/
def State.history (s : State) : List Step → List (State × Step)
  | [] => []
  | step :: rest => (s, step) :: (s.step step).history rest

/-- A run with one step more takes that step in the state it had led to. -/
theorem State.run_concat (s : State) (steps : List Step) (step : Step) :
    s.run (steps ++ [step]) = (s.run steps).step step := by
  unfold State.run
  rw [List.foldl_concat]

/-- So does its history. -/
theorem State.history_concat (s : State) (steps : List Step) (step : Step) :
    s.history (steps ++ [step]) = s.history steps ++ [(s.run steps, step)] := by
  induction steps generalizing s with
  | nil => rfl
  | cons first rest ih =>
    show (s, first) :: (s.step first).history (rest ++ [step]) = _
    rw [ih]
    rfl

/-! ## Starts -/

/-- What a submission captures at its start. -/
structure Start where
  viewer : Viewer
  recording : Option Listen
  blurb : Blurb

/-- The submission that is started. -/
def Start.submission (b : Start) : Submission := .start b.viewer b.recording b.blurb

/-- What the step captures, if it starts a submission. -/
def State.start? (s : State) : Step → Option Start
  | .submit viewer recording => some ⟨viewer, recording, s.dialog.blurb⟩
  | .edit _ | .settle _ _ => none

/-- The submissions that were started, in order. -/
def starts (h : List (State × Step)) : List Start :=
  h.filterMap fun e => e.1.start? e.2

/-- The calls of a start: one for the owner of a profile whose token is not empty, with the text of
that moment. -/
def Start.calls (b : Start) : List PinCall :=
  match b.viewer.token with
  | none => []
  | some token =>
    if b.viewer.ownsProfile = true ∧ token ≠ "" then
      [⟨token, nestedMsid b.recording, if b.blurb.text = "" then none else some b.blurb.text, none⟩]
    else []

/-- These are the calls that the submission makes. -/
theorem Start.calls_eq (b : Start) : b.submission.call.toList = b.calls := by
  show (pinCall? b.viewer b.recording b.blurb).toList = b.calls
  rw [pinCall?, PinRequest.untilDefault, getD_pinnableMsid, Flow.content_eq, Start.calls]
  rcases htoken : b.viewer.token with _ | token
  · have hnone : b.viewer.pinToken = none := by
      rw [b.viewer.pinToken_eq_none_iff]
      rintro ⟨-, token, hsome, -⟩
      rw [htoken] at hsome
      exact absurd hsome (Option.some_ne_none token).symm
    rw [hnone]
    rfl
  · by_cases hmay : b.viewer.ownsProfile = true ∧ token ≠ ""
    · rw [(b.viewer.pinToken_eq_some_iff token).mpr ⟨hmay.1, htoken, hmay.2⟩]
      simp only [if_pos hmay]
      rfl
    · have hnone : b.viewer.pinToken = none := by
        rw [b.viewer.pinToken_eq_none_iff]
        rintro ⟨howns, other, hsome, hother⟩
        rw [htoken] at hsome
        rw [← Option.some.inj hsome] at hother
        exact hmay ⟨howns, hother⟩
      rw [hnone]
      simp only [if_neg hmay]
      rfl

/-- The gate of a start: without the call the submission comes to nothing. -/
theorem Start.outcome (b : Start) (reply : PinReply) :
    b.submission.outcome reply = if b.viewer.MayPin then .ofReply reply else .skipped := by
  unfold Submission.outcome Start.submission Submission.start pinCall?
  by_cases hmay : b.viewer.MayPin
  · obtain ⟨token, htoken⟩ := b.viewer.mayPin_iff.mp hmay
    rw [if_pos hmay, htoken]
    rfl
  · rw [if_neg hmay, (b.viewer.pinToken_eq_none_iff).mpr hmay]
    rfl

/-! ## Settlements -/

/-- A submission that settles, with the reply to its call. -/
structure Settlement where
  submission : Submission
  reply : PinReply

/-- What the submission comes to. -/
def Settlement.outcome (t : Settlement) : PinOutcome := t.submission.outcome t.reply

/-- Whether a call settled without an error. -/
def Settlement.isOk (t : Settlement) : Bool := t.submission.call.isSome && t.reply.isOk

/-- The submission that a step settles. -/
def State.settled? (s : State) : Step → Option Settlement
  | .settle place reply => s.underWay[place]?.map fun submission => ⟨submission, reply⟩
  | .edit _ | .submit _ _ => none

/-- The submissions that settled, in the order in which they did. -/
def settlements (h : List (State × Step)) : List Settlement :=
  h.filterMap fun e => e.1.settled? e.2

/-- The outcomes that clear the blurb are those of calls that settled without an error. -/
theorem Settlement.clearsBlurb_outcome (t : Settlement) : t.outcome.clearsBlurb = t.isOk := by
  obtain ⟨⟨recording, blurb, call⟩, reply⟩ := t
  unfold Settlement.outcome Settlement.isOk Submission.outcome
  rcases call with _ | call
  · rfl
  · rcases reply with message | status
    · rfl
    · show (PinOutcome.ofReply (.ok status)).clearsBlurb = true
      rw [PinOutcome.ofReply]
      split
      · rfl
      · rfl

/-- **A blurb that is handed back** is taken over only where it is empty, so it makes no difference
from which moment it is: the dialog is left as if the outcome had met its own blurb. -/
theorem blurb_settle (d : PinDialog) (submission : Submission) (outcome : PinOutcome) :
    (d.settle submission outcome).blurb = outcome.blurbAfter d.blurb := by
  rw [PinDialog.settle, Submission.handedBack, PinOutcome.blurbAfter, PinOutcome.blurbAfter]
  by_cases hclears : outcome.clearsBlurb = true
  · rw [if_pos hclears, if_pos hclears, if_pos hclears]
  · rw [if_neg hclears, if_neg hclears]

/-! ## The text -/

/-- The text that an edit leaves, if it is accepted. -/
def acceptedText? (raw : String) : Option String :=
  if Text.units (Text.collapse raw) ≤ 250 then some (Text.collapse raw) else none

/-- What a step writes. -/
def Step.written? : Step → Option String
  | .edit raw => some raw
  | .submit _ _ | .settle _ _ => none

/-- The edits since a call last settled without an error. -/
def editsSince (h : List (State × Step)) : List String :=
  (h.rtakeWhile fun e => !(e.1.settled? e.2).any (·.isOk)).filterMap fun e => e.2.written?

/-- The text that these edits alone leave: that of the last accepted one, or none. -/
def keptText (h : List (State × Step)) : String :=
  ((editsSince h).filterMap acceptedText?).getLast?.getD ""

/-- One more step clears the text, replaces it by its own, or leaves it. -/
theorem keptText_concat (h : List (State × Step)) (s : State) (step : Step) :
    keptText (h ++ [(s, step)]) =
      if (s.settled? step).any (·.isOk) then ""
      else (step.written?.bind acceptedText?).getD (keptText h) := by
  unfold keptText editsSince
  rw [List.rtakeWhile_concat]
  by_cases hok : (s.settled? step).any (·.isOk) = true
  · rw [if_pos hok, if_neg (by simpa using hok)]
    rfl
  · rw [if_neg hok, if_pos (by simpa using hok), List.filterMap_append, List.filterMap_append]
    rcases hwritten : step.written? with _ | raw
    · simp [hwritten]
    · rcases haccepted : acceptedText? raw with _ | text
      · simp [hwritten, haccepted]
      · simp [hwritten, haccepted]

/-- A step that edits changes the dialog only. -/
theorem State.step_edit (s : State) (raw : String) :
    s.step (.edit raw) = { s with dialog := s.dialog.edit raw } := rfl

/-- What a step does to the text: the same three things. -/
theorem State.text_step (s : State) (step : Step) :
    (s.step step).dialog.blurb.text =
      if (s.settled? step).any (·.isOk) then ""
      else (step.written?.bind acceptedText?).getD s.dialog.blurb.text := by
  cases step with
  | edit raw =>
    rw [State.step_edit, PinDialog.edit, Flow.text_edit, State.settled?, Option.any_none,
      if_neg Bool.false_ne_true, Step.written?, Option.bind_some, acceptedText?]
    split
    · rfl
    · rfl
  | submit viewer recording => rfl
  | settle place reply =>
    rcases hplace : s.underWay[place]? with _ | submission
    · simp only [State.step, State.settled?, hplace]
      rfl
    · simp only [State.step, State.settled?, hplace, State.settle, blurb_settle,
        PinOutcome.blurbAfter]
      have hclears := Settlement.clearsBlurb_outcome ⟨submission, reply⟩
      rw [Settlement.outcome] at hclears
      rw [hclears]
      by_cases hok : (⟨submission, reply⟩ : Settlement).isOk = true
      · simp [hok]
        rfl
      · simp [hok, Step.written?]

/-- The kept text is empty or that of an accepted edit, so it fits. -/
theorem units_keptText_le (h : List (State × Step)) : Text.units (keptText h) ≤ 250 := by
  unfold keptText
  rcases hlast : ((editsSince h).filterMap acceptedText?).getLast? with _ | text
  · exact Nat.zero_le _
  · obtain ⟨raw, -, htext⟩ := List.mem_filterMap.mp (List.mem_of_getLast? hlast)
    unfold acceptedText? at htext
    by_cases hfits : Text.units (Text.collapse raw) ≤ 250
    · rw [if_pos hfits] at htext
      rw [← Option.some.inj htext]
      exact hfits
    · rw [if_neg hfits] at htext
      exact absurd htext (Option.some_ne_none text).symm

/-! ## The alerts -/

/-- The alerts of success in a log. -/
def successes (log : AlertLog) : List Alert :=
  log.alerts.filter fun a => decide (a.kind = .success)

/-- A pin that was made adds one alert of success, and no other outcome does. -/
theorem successes_report (outcome : PinOutcome) (recording : Option Listen) (log : AlertLog) :
    successes (outcome.report recording log) = successes log ++
      if outcome = .pinned then [⟨log.nextId, .success, pinnedTitle, pinnedMessage recording⟩]
      else [] := by
  unfold successes
  cases outcome with
  | pinned =>
    show (log.alerts ++ [_]).filter _ = _
    rw [List.filter_append]
    rfl
  | failed message =>
    rw [PinOutcome.report, AlertLog.report]
    split
    · simp
    · show (log.alerts ++ [_]).filter _ = _
      rw [List.filter_append]
      simp
  | skipped => simp [PinOutcome.report]
  | unhandledStatus status => simp [PinOutcome.report]

/-! ## One step -/

/-- A step that settles a submission takes it from those under way. -/
theorem State.step_of_settled {s : State} {step : Step} {t : Settlement}
    (h : s.settled? step = some t) :
    ∃ place, s.underWay[place]? = some t.submission ∧
      s.step step = s.settle place t.submission t.reply := by
  cases step with
  | settle place reply =>
    obtain ⟨submission, hplace, rfl⟩ := Option.map_eq_some_iff.mp h
    refine ⟨place, hplace, ?_⟩
    simp only [State.step, hplace]
  | edit raw => exact absurd h (Option.some_ne_none t).symm
  | submit viewer recording => exact absurd h (Option.some_ne_none t).symm

/-- What a settlement does to the state, given what was captured at the starts so far. -/
structure State.Settles (s : State) (starts : List Start) (t : Settlement) (next : State) :
    Prop where
  /-- The submission is one of those that were started. Its viewer decides whether the reply
  counts, and the blurb that it hands back, which is made of the one of its start, is taken over if
  the outcome clears the blurb. -/
  origin : ∃ b ∈ starts, t.submission = b.submission ∧
    t.outcome = (if b.viewer.MayPin then .ofReply t.reply else .skipped) ∧
    next.dialog.blurb =
      if t.outcome.clearsBlurb then t.outcome.blurbAfter b.blurb else s.dialog.blurb
  /-- A submission that was skipped or failed leaves the blurb as it is by then. -/
  left : (t.outcome = .skipped ∨ ∃ message, t.outcome = .failed message) →
    next.dialog.blurb = s.dialog.blurb
  /-- Nothing is left of it once a call settled without an error. -/
  cleared : t.isOk = true → next.dialog.blurb = .empty
  /-- No call is made. -/
  sent : next.sent = s.sent
  /-- The viewer is told once of a pin, with one alert of success, and of nothing else. -/
  told : next.told = s.told + if t.outcome = .pinned then 1 else 0
  alerts : successes next.log = successes s.log ++
    if t.outcome = .pinned then
      [⟨s.log.nextId, .success, pinnedTitle, pinnedMessage t.submission.recording⟩]
    else []

/-- What the history of a run tells of the state behind it. -/
structure State.Follows (s : State) (h : List (State × Step)) : Prop where
  /-- The text is what the edits alone left since a call last settled without an error. -/
  text : s.dialog.blurb.text = keptText h
  /-- Each start made its calls, and nothing else made any. -/
  sent : s.sent = (starts h).flatMap Start.calls
  /-- Each submission that was started settled once or is under way. -/
  account : ((starts h).map Start.submission).Perm
    ((settlements h).map Settlement.submission ++ s.underWay)
  /-- The viewer was told of each pin once, and each has its alert. -/
  told : s.told = (settlements h).countP fun t => decide (t.outcome = .pinned)
  alerts : (successes s.log).length = s.told

/-- Settling does what `State.Settles` says. -/
theorem State.settles_step {s : State} {h : List (State × Step)} (hs : s.Follows h) {step : Step}
    {t : Settlement} (ht : s.settled? step = some t) : s.Settles (starts h) t (s.step step) := by
  obtain ⟨place, hplace, hstep⟩ := State.step_of_settled ht
  have hblurb : (s.step step).dialog.blurb = t.outcome.blurbAfter s.dialog.blurb := by
    rw [hstep]
    exact blurb_settle s.dialog t.submission t.outcome
  have hstarted : t.submission ∈ (starts h).map Start.submission :=
    hs.account.mem_iff.mpr (List.mem_append_right _ (List.mem_of_getElem? hplace))
  obtain ⟨b, hb, hsubmission⟩ := List.mem_map.mp hstarted
  constructor
  · refine ⟨b, hb, hsubmission.symm, ?_, ?_⟩
    · rw [Settlement.outcome, ← hsubmission, b.outcome]
    · rw [hstep]
      show (s.dialog.settle t.submission t.outcome).blurb = _
      rw [← hsubmission, PinDialog.settle]
      split_ifs
      · rfl
      · rfl
  · intro houtcome
    have hkeeps : t.outcome.clearsBlurb = false := by
      rcases houtcome with hskipped | ⟨message, hfailed⟩
      · rw [hskipped]
        rfl
      · rw [hfailed]
        rfl
    rw [hblurb, PinOutcome.blurbAfter, hkeeps]
    rfl
  · intro hok
    rw [hblurb, PinOutcome.blurbAfter, t.clearsBlurb_outcome, if_pos hok]
  · rw [hstep]
    rfl
  · rw [hstep]
    show (if t.outcome = .pinned then s.told + 1 else s.told) = _
    split_ifs
    · rfl
    · rfl
  · rw [hstep]
    exact successes_report t.outcome t.submission.recording s.log

/-- The calls of a step are those of its start. -/
theorem State.sent_step (s : State) (step : Step) :
    (s.step step).sent = s.sent ++ (s.start? step).toList.flatMap Start.calls := by
  cases step with
  | edit raw =>
    rw [State.step_edit, State.start?, Option.toList_none, List.flatMap_nil, List.append_nil]
  | submit viewer recording =>
    have hcalls := Start.calls_eq ⟨viewer, recording, s.dialog.blurb⟩
    show s.sent ++ (Submission.start viewer recording s.dialog.blurb).call.toList = _
    rw [State.start?, Option.toList_some, List.flatMap_singleton, ← hcalls]
    rfl
  | settle place reply =>
    rw [State.start?, Option.toList_none, List.flatMap_nil, List.append_nil]
    rcases hplace : s.underWay[place]? with _ | submission
    · simp only [State.step, hplace]
    · simp only [State.step, hplace, State.settle]

/-- What was under way or is started is settled or under way behind the step. -/
theorem State.underWay_step (s : State) (step : Step) :
    (s.underWay ++ (s.start? step).toList.map Start.submission).Perm
      ((s.settled? step).toList.map Settlement.submission ++ (s.step step).underWay) := by
  cases step with
  | edit raw =>
    rw [State.step_edit, State.start?, State.settled?, Option.toList_none, List.map_nil,
      List.append_nil]
    exact List.Perm.refl _
  | submit viewer recording => exact List.Perm.refl _
  | settle place reply =>
    rw [State.start?, State.settled?, Option.toList_none, List.map_nil, List.append_nil]
    rcases hplace : s.underWay[place]? with _ | submission
    · simp only [State.step, hplace]
      exact List.Perm.refl _
    · simp only [State.step, hplace, State.settle]
      show s.underWay.Perm (submission :: s.underWay.eraseIdx place)
      obtain ⟨hlt, rfl⟩ := List.getElem?_eq_some_iff.mp hplace
      exact (List.getElem_cons_eraseIdx_perm hlt).symm

/-- A step that settles nothing tells nobody and leaves the alerts alone. -/
theorem State.quiet_step {s : State} {step : Step} (h : s.settled? step = none) :
    (s.step step).told = s.told ∧ (s.step step).log = s.log := by
  cases step with
  | edit raw =>
    rw [State.step_edit]
    exact ⟨rfl, rfl⟩
  | submit viewer recording => exact ⟨rfl, rfl⟩
  | settle place reply =>
    have hplace : s.underWay[place]? = none := Option.map_eq_none_iff.mp h
    have hstep : s.step (.settle place reply) = s := by
      simp only [State.step, hplace]
    rw [hstep]
    exact ⟨rfl, rfl⟩

/-- **One more step** keeps what a history tells. -/
theorem State.follows_step {s : State} {h : List (State × Step)} (hs : s.Follows h) (step : Step) :
    (s.step step).Follows (h ++ [(s, step)]) := by
  have hstarts : starts (h ++ [(s, step)]) = starts h ++ (s.start? step).toList := by
    unfold starts
    rw [List.filterMap_append]
    rcases hstart : s.start? step with _ | b
    · simp [hstart]
    · simp [hstart]
  have hsettlements : settlements (h ++ [(s, step)]) =
      settlements h ++ (s.settled? step).toList := by
    unfold settlements
    rw [List.filterMap_append]
    rcases hsettled : s.settled? step with _ | t
    · simp [hsettled]
    · simp [hsettled]
  have htold : (s.step step).told =
        s.told + (s.settled? step).toList.countP (fun t => decide (t.outcome = .pinned)) ∧
      (successes (s.step step).log).length = (successes s.log).length +
        (s.settled? step).toList.countP (fun t => decide (t.outcome = .pinned)) := by
    rcases hsettled : s.settled? step with _ | t
    · obtain ⟨htold, hlog⟩ := State.quiet_step hsettled
      rw [htold, hlog]
      exact ⟨rfl, rfl⟩
    · have hsettles := State.settles_step hs hsettled
      rw [hsettles.told, hsettles.alerts, List.length_append, Option.toList_some,
        List.countP_singleton]
      by_cases hpinned : t.outcome = .pinned
      · rw [if_pos hpinned, if_pos hpinned, if_pos (decide_eq_true hpinned)]
        exact ⟨rfl, rfl⟩
      · rw [if_neg hpinned, if_neg hpinned, if_neg (by simpa using hpinned)]
        exact ⟨rfl, rfl⟩
  constructor
  · rw [s.text_step, keptText_concat, hs.text]
  · rw [s.sent_step, hstarts, List.flatMap_append, hs.sent]
  · rw [hstarts, hsettlements, List.map_append, List.map_append, List.append_assoc]
    -- what was started is accounted for before the step, and the step moves its part on
    have hbefore := hs.account.append_right ((s.start? step).toList.map Start.submission)
    rw [List.append_assoc] at hbefore
    exact hbefore.trans ((s.underWay_step step).append_left _)
  · rw [hsettlements, List.countP_append, ← hs.told]
    exact htold.1
  · rw [htold.1, htold.2, hs.alerts]

/-! ## Whole runs -/

/-- The state behind a run is what its history tells. -/
theorem State.follows_run (steps : List Step) :
    (State.start.run steps).Follows (State.start.history steps) := by
  induction steps using List.reverseRecOn with
  | nil => exact ⟨rfl, rfl, List.Perm.nil, rfl, rfl⟩
  | append_singleton steps step ih =>
    rw [State.run_concat, State.history_concat]
    exact State.follows_step ih step

/-- **Overlapping submissions.**  Behind any run, and so behind each of its steps, the text is what
the edits alone left since a call last settled without an error, and fits; each start of a viewer
who may pin made one call, with the text of that moment, and no other call was made; each submission
that was started settled once or is under way; the viewer was told of each pin once, and each has
its alert.  Whatever settles next does what `State.Settles` says: whoever was skipped or failed
leaves newer edits alone. -/
theorem overlap_of_run (steps : List Step) :
    (State.start.run steps).Follows (State.start.history steps) ∧
    (State.start.run steps).dialog.blurb.length ≤ 250 ∧
    ∀ (step : Step) (t : Settlement), (State.start.run steps).settled? step = some t →
      (State.start.run steps).Settles (starts (State.start.history steps)) t
        (State.start.run (steps ++ [step])) := by
  have hfollows := State.follows_run steps
  refine ⟨hfollows, ?_, fun step t ht => ?_⟩
  · rw [Blurb.length, hfollows.text]
    exact units_keptText_le _
  · rw [State.run_concat]
    exact State.settles_step hfollows ht

/-- Two submissions of an owner with an edit behind each; the later one comes back first. -/
def crossing : List Step :=
  [.edit "a", .submit ⟨some "t", true⟩ none, .edit "b", .submit ⟨some "t", true⟩ none,
   .settle 1 (.ok 200), .edit "c"]

/-- The edit behind the pin is still there once the earlier submission failed. -/
theorem overlap_of_run_crossing :
    (State.start.run crossing).settled? (.settle 0 (.error "down")) =
        some ⟨⟨none, ⟨"a", by decide⟩, some ⟨"t", ⟨"", some "a", none⟩⟩⟩, .error "down"⟩ ∧
      (State.start.run crossing).dialog.blurb.text = "c" ∧
      (State.start.run (crossing ++ [.settle 0 (.error "down")])).dialog.blurb =
        (State.start.run crossing).dialog.blurb := by
  obtain ⟨hfollows, -, hsettles⟩ := overlap_of_run crossing
  have hsettled : (State.start.run crossing).settled? (.settle 0 (.error "down")) =
      some ⟨⟨none, ⟨"a", by decide⟩, some ⟨"t", ⟨"", some "a", none⟩⟩⟩, .error "down"⟩ := by
    have hunderWay : (State.start.run crossing).underWay =
        [⟨none, ⟨"a", by decide⟩, some ⟨"t", ⟨"", some "a", none⟩⟩⟩] := by decide +kernel
    rw [State.settled?, hunderWay]
    rfl
  refine ⟨hsettled, ?_, ?_⟩
  · rw [hfollows.text]
    decide +kernel
  · exact (hsettles _ _ hsettled).left (Or.inr ⟨"down", rfl⟩)

end PinBoard.Overlap
