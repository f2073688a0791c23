import PinBoard.Proofs.Pin.Submission
import PinBoard.Proofs.Text.Collapse
import Mathlib.Data.List.DropRight

/-!
# Runs of the pin flow

What a run leaves behind is told by its steps alone. The text of the blurb is that of the last
accepted edit since the blurb was last cleared, and every submission acts on the viewer, the
recording, the blurb and the log of its moment. Each is carried by one lemma on a single step and an
induction on the run that takes the last step off.
-/

namespace PinBoard.Flow

/-! ## The states of a run -/

/-- The state that a run leads to. -/
def State.after (s : State) (steps : List Step) : State :=
  steps.foldl (fun s step => (s.step step).1) s

/-- The states that a run goes through, the one it starts in included. -/
def State.trail (s : State) (steps : List Step) : List State :=
  s :: (s.run steps).map (·.1)

@[simp] theorem State.after_nil (s : State) : s.after [] = s := rfl

@[simp] theorem State.after_cons (s : State) (step : Step) (rest : List Step) :
    s.after (step :: rest) = (s.step step).1.after rest := rfl

/-- A run with one step more takes that step in the state it had led to. -/
theorem State.after_concat (s : State) (steps : List Step) (step : Step) :
    s.after (steps ++ [step]) = ((s.after steps).step step).1 := by
  rw [State.after, List.foldl_concat]
  rfl

/-- The entry of a step is what the step does in the state that the steps before it lead to. -/
theorem State.getElem?_run (s : State) (steps : List Step) (i : Nat) :
    (s.run steps)[i]? = steps[i]?.map (s.after (steps.take i)).step := by
  induction steps generalizing s i with
  | nil => rfl
  | cons step rest ih =>
    cases i with
    | zero => rfl
    | succ i =>
      rw [State.run, List.getElem?_cons_succ, ih, List.getElem?_cons_succ, List.take_succ_cons,
        State.after_cons]

/-- The state behind the first `n` steps. -/
theorem State.getElem?_trail (s : State) (steps : List Step) {n : Nat} (hn : n ≤ steps.length) :
    (s.trail steps)[n]? = some (s.after (steps.take n)) := by
  cases n with
  | zero => rfl
  | succ n =>
    have hlt : n < steps.length := hn
    rw [State.trail, List.getElem?_cons_succ, List.getElem?_map, State.getElem?_run,
      List.getElem?_eq_getElem hlt, Option.map_some, Option.map_some, List.take_add_one,
      List.getElem?_eq_getElem hlt, Option.toList_some, State.after_concat]

/-! ## The viewer at each step -/

/-- The viewer behind a step. -/
def Step.viewerAfter (v : Viewer) : Step → Viewer
  | .viewer w => w
  | _ => v

/-- The steps of a run, each with the viewer of its moment. -/
def withViewers (v : Viewer) : List Step → List (Viewer × Step)
  | [] => []
  | step :: rest => (v, step) :: withViewers (step.viewerAfter v) rest

/-- A step changes the viewer if it is about the viewer, and not otherwise. -/
theorem State.viewer_step (s : State) (step : Step) :
    (s.step step).1.viewer = step.viewerAfter s.viewer := by
  cases step <;> simp only [State.step, State.submit, Step.viewerAfter]

/-- The viewer of the step that comes last is the one that the steps before it lead to. -/
theorem withViewers_concat (s : State) (steps : List Step) (step : Step) :
    withViewers s.viewer (steps ++ [step]) =
      withViewers s.viewer steps ++ [((s.after steps).viewer, step)] := by
  induction steps generalizing s with
  | nil => rfl
  | cons first rest ih =>
    rw [List.cons_append, withViewers, withViewers, ← State.viewer_step, ih, State.after_cons,
      List.cons_append]

/-! ## The text of the blurb -/

/-- An edit is accepted if its collapsed text has at most 250 UTF-16 code units; otherwise the text
stays. -/
theorem text_edit (b : Blurb) (raw : String) :
    (b.edit raw).text =
      if Text.units (Text.collapse raw) ≤ 250 then Text.collapse raw else b.text := by
  rw [Blurb.edit]
  by_cases hfits : Text.units (Text.collapse raw) ≤ maxBlurbLength
  · rw [dif_pos hfits, if_pos (show _ ≤ 250 from hfits)]
  · rw [dif_neg hfits, if_neg (show ¬ _ ≤ 250 from hfits)]

/-- A step that clears the blurb: a reset, or a submission of a viewer who may pin whose call
comes back without an error. -/
def Clears : Viewer × Step → Prop
  | (_, .reset) => True
  | (v, .submit (.ok _)) => v.MayPin
  | _ => False

instance : DecidablePred Clears := fun t =>
  match t with
  | (_, .reset) => inferInstanceAs (Decidable True)
  | (v, .submit (.ok _)) => inferInstanceAs (Decidable v.MayPin)
  | (_, .submit (.error _)) | (_, .edit _) | (_, .viewer _) | (_, .recording _) | (_, .push _ _ _)
  | (_, .dismiss _) | (_, .report _ _) => inferInstanceAs (Decidable False)

/-- The collapsed text of an edit that is accepted: it has at most 250 UTF-16 code units. -/
def Step.accepted? : Step → Option String
  | .edit raw => if Text.units (Text.collapse raw) ≤ 250 then some (Text.collapse raw) else none
  | _ => none

/-- The text of the last accepted edit since the blurb was last cleared, or no text. -/
def keptText (v : Viewer) (steps : List Step) : String :=
  ((((withViewers v steps).rtakeWhile fun t => ¬ Clears t).filterMap
    fun t => t.2.accepted?).getLast?).getD ""

/-- One more step clears the text, replaces it by its own, or leaves it. -/
theorem keptText_concat (s : State) (steps : List Step) (step : Step) :
    keptText s.viewer (steps ++ [step]) =
      if Clears ((s.after steps).viewer, step) then ""
      else step.accepted?.getD (keptText s.viewer steps) := by
  rw [keptText, withViewers_concat, List.rtakeWhile_concat]
  by_cases hc : Clears ((s.after steps).viewer, step)
  · rw [if_pos hc, if_neg (by simpa using hc)]
    rfl
  · rw [if_neg hc, if_pos (by simpa using hc), List.filterMap_append]
    rcases ha : step.accepted? with _ | text
    · simp [ha, keptText]
    · simp [ha]

/-- What a step does to the text: the same three things. -/
theorem State.text_step (s : State) (step : Step) :
    (s.step step).1.blurb.text =
      if Clears (s.viewer, step) then "" else step.accepted?.getD s.blurb.text := by
  cases step with
  | edit raw =>
    rw [if_neg (show ¬ Clears (s.viewer, .edit raw) from id), Step.accepted?, State.step,
      text_edit]
    by_cases hfits : Text.units (Text.collapse raw) ≤ 250
    · rw [if_pos hfits, if_pos hfits, Option.getD_some]
    · rw [if_neg hfits, if_neg hfits, Option.getD_none]
  | submit reply =>
    rw [State.step]
    -- who may pin clears the text with a status; who may not clears nothing, whatever the reply
    by_cases hpin : s.viewer.MayPin
    · obtain ⟨token, htoken⟩ := s.viewer.mayPin_iff.mp hpin
      rw [State.submit_of_pinToken s reply htoken]
      simp only [blurbAfter_ofReply]
      rcases reply with message | status
      · rfl
      · rw [if_pos (show Clears (s.viewer, .submit (.ok status)) from hpin)]
        rfl
    · rw [State.submit_of_not_mayPin s reply hpin]
      rcases reply with message | status
      · rfl
      · rw [if_neg (show ¬ Clears (s.viewer, .submit (.ok status)) from hpin)]
        rfl
  | reset => rfl
  | viewer | recording | push | dismiss | report => rfl

/-- After a run that started with an empty blurb the text is the kept one. -/
theorem State.text_after (viewer : Viewer) (recording : Option Listen) (steps : List Step) :
    ((State.start viewer recording).after steps).blurb.text = keptText viewer steps := by
  -- from the last step backwards: both sides say what the last step makes of the text before it
  induction steps using List.reverseRecOn with
  | nil => rfl
  | append_singleton steps step ih =>
    have hkept := keptText_concat (State.start viewer recording) steps step
    rw [State.after_concat, State.text_step, ih]
    exact hkept.symm

/-- The kept text is empty or the collapsed text of an edit that was accepted. -/
theorem keptText_eq_empty_or (viewer : Viewer) (steps : List Step) :
    keptText viewer steps = "" ∨
      ∃ step ∈ steps, step.accepted? = some (keptText viewer steps) := by
  induction steps using List.reverseRecOn with
  | nil => exact Or.inl rfl
  | append_singleton steps step ih =>
    -- the kept text does not depend on the recording, so any run with these steps will do
    have hkept := keptText_concat (State.start viewer none) steps step
    rw [show (State.start viewer none).viewer = viewer from rfl] at hkept
    by_cases hc : Clears (((State.start viewer none).after steps).viewer, step)
    · rw [if_pos hc] at hkept
      exact Or.inl hkept
    · rw [if_neg hc] at hkept
      rcases ha : step.accepted? with _ | text
      · rw [ha, Option.getD_none] at hkept
        rw [hkept]
        refine ih.imp id fun ⟨earlier, hmem, htext⟩ => ?_
        exact ⟨earlier, List.mem_append_left _ hmem, htext⟩
      · rw [ha, Option.getD_some] at hkept
        exact Or.inr ⟨step, List.mem_append_right _ List.mem_cons_self, by rw [ha, hkept]⟩

/-- The text of an accepted edit fits and has no blank pair. -/
theorem Step.fits_of_accepted {step : Step} {text : String} (h : step.accepted? = some text) :
    Text.units text ≤ 250 ∧ Text.HasNoBlankPair text.toList := by
  cases step with
  | edit raw =>
    rw [Step.accepted?] at h
    by_cases hfits : Text.units (Text.collapse raw) ≤ 250
    · rw [if_pos hfits, Option.some.injEq] at h
      rw [← h]
      exact ⟨hfits, Text.hasNoBlankPair_collapse raw⟩
    · rw [if_neg hfits] at h
      exact absurd h (Option.some_ne_none text).symm
  | reset | viewer | recording | submit | push | dismiss | report =>
    exact absurd h (Option.some_ne_none text).symm

/-- The kept text fits and has no blank pair. -/
theorem keptText_fits (viewer : Viewer) (steps : List Step) :
    Text.units (keptText viewer steps) ≤ 250 ∧
      Text.HasNoBlankPair (keptText viewer steps).toList := by
  rcases keptText_eq_empty_or viewer steps with hempty | ⟨step, -, haccepted⟩
  · rw [hempty]
    exact ⟨Nat.zero_le _, List.isChain_nil⟩
  · exact Step.fits_of_accepted haccepted

/-- The text to send is there unless nothing was written. -/
theorem content_eq (b : Blurb) : b.content = if b.text = "" then none else some b.text := by
  rw [Blurb.content, Blurb.isEmpty]
  simp only [String.isEmpty_iff]

/-- The length counts each character once, and once more if it stands outside of the basic plane. -/
theorem length_eq_count (b : Blurb) :
    b.length = b.text.toList.length + b.text.toList.countP fun c => decide (0x10000 ≤ c.toNat) := by
  show Text.unitsOf b.text.toList = _
  induction b.text.toList with
  | nil => rfl
  | cons c rest ih =>
    rw [Text.unitsOf, Text.charUnits, ih, List.length_cons, List.countP_cons]
    by_cases hplane : c.toNat < 0x10000
    · rw [if_pos hplane, if_neg (by simpa using hplane)]
      omega
    · rw [if_neg hplane, if_pos (by simpa using hplane)]
      omega

/-- **The text in every state of a run.**  After `n` steps it is the text of the last accepted edit
since the blurb was last cleared.  Its length counts code units of UTF-16, two for a character
outside of the basic plane; it therefore fits, what is left of the limit and its length make up the
limit, it has no two blanks side by side, and there is a text to send unless it is empty. -/
theorem blurb_of_run (viewer : Viewer) (recording : Option Listen) (steps : List Step) {n : Nat}
    (hn : n ≤ steps.length) :
    ∃ s, ((State.start viewer recording).trail steps)[n]? = some s ∧
      s.blurb.text = keptText viewer (steps.take n) ∧
      s.blurb.length = s.blurb.text.toList.length +
        s.blurb.text.toList.countP (fun c => decide (0x10000 ≤ c.toNat)) ∧
      s.blurb.length ≤ 250 ∧ s.blurb.length + s.blurb.remaining = 250 ∧
      Text.HasNoBlankPair s.blurb.text.toList ∧
      (s.blurb.content = none ↔ s.blurb.text = "") := by
  refine ⟨_, State.getElem?_trail _ steps hn, State.text_after viewer recording _, ?_⟩
  generalize hs : (State.start viewer recording).after (steps.take n) = s
  have htext : s.blurb.text = keptText viewer (steps.take n) := by
    rw [← hs, State.text_after]
  obtain ⟨hunits, hpair⟩ := keptText_fits viewer (steps.take n)
  rw [← htext] at hunits hpair
  refine ⟨length_eq_count s.blurb, hunits, ?_, hpair, ?_⟩
  · rw [Blurb.remaining, maxBlurbLength]
    exact Nat.add_sub_of_le hunits
  · rw [content_eq]
    simp

/-- The text of an edit after a pin that was made is still there once the next pin fails. -/
theorem blurb_of_run_failed_pin :
    4 ≤ [Step.edit "a", .submit (.ok 202), .edit "b \t", .submit (.error "down")].length ∧
      ∃ s, ((State.start ⟨some "t", true⟩ none).trail
          [Step.edit "a", .submit (.ok 202), .edit "b \t", .submit (.error "down")])[4]? = some s ∧
        s.blurb.text = "b " ∧ s.blurb.length = 2 := by
  obtain ⟨s, hs, hkept, hlength, -⟩ := blurb_of_run ⟨some "t", true⟩ none
    [Step.edit "a", .submit (.ok 202), .edit "b \t", .submit (.error "down")] (n := 4) (by decide)
  have htext : s.blurb.text = "b " := hkept.trans (by decide +kernel)
  refine ⟨by decide, s, hs, htext, ?_⟩
  rw [hlength, htext]
  decide

/-! ## The submissions of a run -/

/-- What a submission makes of a state, given the reply to its call if it is made. -/
structure State.Submits (s : State) (reply : PinReply) (next : State) (submitted : Submitted) :
    Prop where
  /-- The call is made once for a viewer who may pin, and not at all for any other. -/
  once : submitted.calls.length = if s.viewer.MayPin then 1 else 0
  /-- Without the call nothing changes. -/
  skipped : ¬ s.viewer.MayPin → submitted.outcome = .skipped ∧ next = s
  /-- The call carries the viewer's token, the nested identifier and the text as it is, without an
  end. -/
  sent : ∀ call ∈ submitted.calls, s.viewer.token = some call.token ∧
    call.request = ⟨nestedMsid s.recording, if s.blurb.text = "" then none else some s.blurb.text,
      none⟩
  /-- A status settles the call, and with 200 the pin is made. -/
  settled : s.viewer.MayPin → ∀ status, reply = .ok status →
    submitted.outcome = if status = 200 then .pinned else .unhandledStatus status
  /-- An error is what the call fails with. -/
  failed : s.viewer.MayPin → ∀ message, reply = .error message →
    submitted.outcome = .failed message
  /-- The log grows by the alerts of the call. -/
  alerts : s.viewer.MayPin →
    next.log.alerts = s.log.alerts ++ settledAlerts s.log.nextId s.recording reply
  /-- The blurb is cleared unless the call came back with an error. -/
  blurb : s.viewer.MayPin → next.blurb = if reply.isOk then .empty else s.blurb
  /-- Viewer and recording stay. -/
  kept : next.viewer = s.viewer ∧ next.recording = s.recording

/-- Submitting does so in every state. -/
theorem State.submits_submit (s : State) (reply : PinReply) :
    s.Submits reply (s.submit reply).1 (s.submit reply).2 := by
  by_cases hpin : s.viewer.MayPin
  · obtain ⟨token, htoken⟩ := s.viewer.mayPin_iff.mp hpin
    obtain ⟨-, hown, -⟩ := (s.viewer.pinToken_eq_some_iff token).mp htoken
    rw [State.submit_of_pinToken s reply htoken]
    refine ⟨?_, fun h => absurd hpin h, ?_, ?_, ?_, fun _ => ?_, fun _ => ?_, rfl, rfl⟩
    · rw [if_pos hpin]
      rfl
    · intro call hcall
      rw [List.mem_singleton.mp hcall, ← content_eq]
      exact ⟨hown, rfl⟩
    · rintro - status rfl
      rfl
    · rintro - message rfl
      rfl
    · rw [report_ofReply]
    · rw [blurbAfter_ofReply]
  · rw [State.submit_of_not_mayPin s reply hpin]
    refine ⟨?_, fun _ => ⟨rfl, rfl⟩, ?_, fun h => absurd h hpin, fun h => absurd h hpin,
      fun h => absurd h hpin, fun h => absurd h hpin, rfl, rfl⟩
    · rw [if_neg hpin]
      rfl
    · intro call hcall
      exact absurd hcall List.not_mem_nil

/-- **The submissions of a run.**  A submission acts on the state of its moment: who may pin sends
one call with the text as it stands, and calls, outcome, alerts and blurb agree with each other
and with the reply.  A text that is sent fits and has no blank pair. -/
theorem submission_of_run (viewer : Viewer) (recording : Option Listen) (steps : List Step) {i : Nat}
    {reply : PinReply} (hi : steps[i]? = some (.submit reply)) :
    ∃ s next submitted, ((State.start viewer recording).trail steps)[i]? = some s ∧
      ((State.start viewer recording).run steps)[i]? = some (next, .submitted submitted) ∧
      s.Submits reply next submitted ∧
      ∀ call ∈ submitted.calls, ∀ text ∈ call.request.blurbContent,
        Text.units text ≤ 250 ∧ Text.HasNoBlankPair text.toList := by
  obtain ⟨hlt, -⟩ := List.getElem?_eq_some_iff.mp hi
  have hsubmits := ((State.start viewer recording).after (steps.take i)).submits_submit reply
  refine ⟨_, _, _, State.getElem?_trail _ steps (Nat.le_of_lt hlt), ?_, hsubmits, ?_⟩
  · rw [State.getElem?_run, hi]
    rfl
  · intro call hcall text htext
    rw [(hsubmits.sent call hcall).2, State.text_after] at htext
    by_cases hempty : keptText viewer (steps.take i) = ""
    · simp [hempty] at htext
    · rw [if_neg hempty, Option.mem_some_iff] at htext
      rw [← htext]
      exact keptText_fits viewer (steps.take i)

/-- A pin of an owner, made after a viewer without a token tried. -/
theorem submission_of_run_owner :
    [Step.submit (.ok 200), .viewer ⟨some "t", true⟩, .submit (.ok 200)][2]? =
        some (.submit (.ok 200)) ∧
      ∃ s next submitted, ((State.start ⟨none, true⟩ none).trail
          [Step.submit (.ok 200), .viewer ⟨some "t", true⟩, .submit (.ok 200)])[2]? = some s ∧
        ((State.start ⟨none, true⟩ none).run
          [Step.submit (.ok 200), .viewer ⟨some "t", true⟩, .submit (.ok 200)])[2]? =
            some (next, .submitted submitted) ∧
        s.Submits (.ok 200) next submitted := by
  obtain ⟨s, next, submitted, hs, hnext, hsubmits, -⟩ := submission_of_run ⟨none, true⟩ none
    [Step.submit (.ok 200), .viewer ⟨some "t", true⟩, .submit (.ok 200)] (i := 2) rfl
  exact ⟨rfl, s, next, submitted, hs, hnext, hsubmits⟩

end PinBoard.Flow
