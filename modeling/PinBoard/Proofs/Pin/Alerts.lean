import PinBoard.Proofs.Pin.Flow
import Mathlib.Algebra.Group.Nat.Defs
import Mathlib.Data.List.Pairwise

/-!
# The alerts of a run

Steps of three kinds give notice of something: a push, an error that says something, and the call of
a submission. The log behind a run is told by its notices and its dismissals alone: the notices
stand in the order in which they came, each under its place in that order, and without those whose
number was dismissed after they came. The step lemma says what one step does to a log, and the run
lemma takes the last step off.
-/

namespace PinBoard

/-! ## Notices -/

/-- What an alert says, before it has a number. -/
structure Notice where
  kind : AlertKind
  title : String
  message : String
  deriving DecidableEq, Repr

/-- The alert of a notice under a number. -/
def Notice.alert (n : Notice) (id : UInt64) : Alert := ⟨id, n.kind, n.title, n.message⟩

/-- The notice of an error; one that says nothing gives none. -/
def errorNotice? (title message : String) : Option Notice :=
  if message = "" then none else some ⟨.danger, title, message⟩

/-- The notice of a call that settled. -/
def replyNotice? (recording : Option Listen) : PinReply → Option Notice
  | .ok status =>
    if status = 200 then some ⟨.success, pinnedTitle, pinnedMessage recording⟩ else none
  | .error message => errorNotice? pinFailedTitle message

/-- The log once notice was given, if it was. -/
def AlertLog.note (log : AlertLog) : Option Notice → AlertLog
  | none => log
  | some n => ⟨log.nextId + 1, log.alerts ++ [n.alert log.nextId]⟩

/-- An error is noted in the log. -/
theorem AlertLog.report_eq (log : AlertLog) (message : String) (title : Option String) :
    log.report message title = log.note (errorNotice? (title.getD defaultErrorTitle) message) := by
  unfold AlertLog.report errorNotice?
  by_cases hmessage : message = ""
  · rw [if_pos (String.isEmpty_iff.mpr hmessage), if_pos hmessage]
    rfl
  · rw [if_neg (mt String.isEmpty_iff.mp hmessage), if_neg hmessage]
    rfl

/-- So is what a call came to. -/
theorem AlertLog.report_ofReply (log : AlertLog) (recording : Option Listen) (reply : PinReply) :
    (PinOutcome.ofReply reply).report recording log = log.note (replyNotice? recording reply) := by
  rcases reply with message | status
  · exact log.report_eq message (some pinFailedTitle)
  · rw [PinOutcome.ofReply, replyNotice?]
    by_cases hstatus : status = 200
    · rw [if_pos hstatus, if_pos hstatus]
      rfl
    · rw [if_neg hstatus, if_neg hstatus]
      rfl

/-! ## Dismissals -/

/-- A number that is dismissed takes the alerts that have it out. -/
theorem AlertLog.dismiss_eq (log : AlertLog) (id : UInt64) :
    log.dismiss id = ⟨log.nextId, log.alerts.filter fun a => decide (a.id ≠ id)⟩ := rfl

/-- Where numbers increase, one alert at most has a given one. -/
theorem filter_of_increasing {alerts before behind : List Alert} {a : Alert}
    (h : alerts.Pairwise fun a b => a.id < b.id) (hsplit : alerts = before ++ a :: behind) :
    (alerts.filter fun b => decide (b.id ≠ a.id)) = before ++ behind := by
  subst hsplit
  rw [List.pairwise_append, List.pairwise_cons] at h
  obtain ⟨-, ⟨hbehind, -⟩, hbefore⟩ := h
  have hkeepBefore : ∀ b ∈ before, decide (b.id ≠ a.id) = true := fun b hb =>
    decide_eq_true (UInt64.ne_of_lt (hbefore b hb a List.mem_cons_self))
  have hkeepBehind : ∀ b ∈ behind, decide (b.id ≠ a.id) = true := fun b hb =>
    decide_eq_true (UInt64.ne_of_lt (hbehind b hb)).symm
  rw [List.filter_append, List.filter_cons_of_neg (by simp), List.filter_eq_self.mpr hkeepBefore,
    List.filter_eq_self.mpr hkeepBehind]

/-- A number that is not on show dismisses nothing. -/
theorem AlertLog.dismiss_of_not_shown {log : AlertLog} {id : UInt64}
    (h : ∀ a ∈ log.alerts, a.id ≠ id) : log.dismiss id = log := by
  rw [AlertLog.dismiss_eq, List.filter_eq_self.mpr fun a ha => decide_eq_true (h a ha)]

namespace Flow

/-! ## Notices and dismissals of a run -/

/-- The notice that a step gives. -/
def State.notice? (s : State) : Step → Option Notice
  | .push kind title message => some ⟨kind, title, message⟩
  | .report message title => errorNotice? (title.getD defaultErrorTitle) message
  | .submit reply => if s.viewer.MayPin then replyNotice? s.recording reply else none
  | .edit _ | .reset | .viewer _ | .recording _ | .dismiss _ => none

/-- The number that a step dismisses. -/
def Step.dismissed? : Step → Option UInt64
  | .dismiss id => some id
  | _ => none

/-- The notices of a run in the order in which they came, each with the steps behind it. -/
def State.notices (s : State) : List Step → List (Notice × List Step)
  | [] => []
  | step :: rest =>
    ((s.notice? step).map fun n => (n, rest)).toList ++ (s.step step).1.notices rest

/-- The numbers that a run gives away. -/
def State.issued (s : State) : List Step → List UInt64
  | [] => []
  | step :: rest =>
    ((s.notice? step).map fun _ => s.log.nextId).toList ++ (s.step step).1.issued rest

/-- What is left of the notice at a place: an alert that has the place as its number, unless that
was dismissed in the steps behind it. -/
def standingAt : (Notice × List Step) × Nat → Option Alert
  | ((n, behind), k) =>
    if UInt64.ofNat k ∈ behind.filterMap Step.dismissed? then none
    else some (n.alert (UInt64.ofNat k))

/-- The alerts that are left of notices. -/
def standing (notices : List (Notice × List Step)) : List Alert :=
  notices.zipIdx.filterMap standingAt

/-! ## One step -/

/-- A step that dismisses nothing notes what it gives notice of. -/
theorem State.log_step (s : State) {step : Step} (h : step.dismissed? = none) :
    (s.step step).1.log = s.log.note (s.notice? step) := by
  cases step with
  | submit reply =>
    show (s.submit reply).1.log = _
    rw [State.notice?]
    by_cases hpin : s.viewer.MayPin
    · obtain ⟨token, htoken⟩ := s.viewer.mayPin_iff.mp hpin
      rw [State.submit_of_pinToken s reply htoken, if_pos hpin]
      exact s.log.report_ofReply s.recording reply
    · rw [State.submit_of_not_mayPin s reply hpin, if_neg hpin]
      rfl
  | report message title => exact s.log.report_eq message title
  | dismiss id => exact absurd h (Option.some_ne_none id)
  | edit raw =>
    rw [State.step, State.notice?]
    rfl
  | push | reset | viewer | recording => rfl

/-- One step more stands behind all notices so far, and may give a notice with nothing behind it. -/
theorem State.notices_concat (s : State) (steps : List Step) (step : Step) :
    s.notices (steps ++ [step]) =
      (s.notices steps).map (fun e => (e.1, e.2 ++ [step])) ++
        (((s.after steps).notice? step).map fun n => (n, [])).toList := by
  induction steps generalizing s with
  | nil => simp [State.notices]
  | cons first rest ih =>
    have hfirst : ((s.notice? first).map fun n => (n, rest ++ [step])).toList =
        ((s.notice? first).map fun n => (n, rest)).toList.map fun e => (e.1, e.2 ++ [step]) := by
      rcases s.notice? first with _ | n <;> rfl
    rw [List.cons_append, State.notices, ih, hfirst, State.notices, List.map_append,
      List.append_assoc, State.after_cons]

/-- One step more gives away the next number if it gives notice. -/
theorem State.issued_concat (s : State) (steps : List Step) (step : Step) :
    s.issued (steps ++ [step]) = s.issued steps ++
      (((s.after steps).notice? step).map fun _ => (s.after steps).log.nextId).toList := by
  induction steps generalizing s with
  | nil => simp [State.issued]
  | cons first rest ih =>
    rw [List.cons_append, State.issued, ih, State.issued, List.append_assoc, State.after_cons]

/-! ## What is left of notices -/

/-- A notice whose number was dismissed is gone. -/
theorem standingAt_of_mem {n : Notice} {behind : List Step} {k : Nat}
    (h : UInt64.ofNat k ∈ behind.filterMap Step.dismissed?) :
    standingAt ((n, behind), k) = none := if_pos h

/-- Any other one stands. -/
theorem standingAt_of_not_mem {n : Notice} {behind : List Step} {k : Nat}
    (h : UInt64.ofNat k ∉ behind.filterMap Step.dismissed?) :
    standingAt ((n, behind), k) = some (n.alert (UInt64.ofNat k)) := if_neg h

/-- What stands has its place as its number. -/
theorem id_of_standingAt {e : (Notice × List Step) × Nat} {a : Alert} (h : standingAt e = some a) :
    a.id = UInt64.ofNat e.2 := by
  obtain ⟨⟨n, behind⟩, k⟩ := e
  by_cases hgone : UInt64.ofNat k ∈ behind.filterMap Step.dismissed?
  · rw [standingAt_of_mem hgone] at h
    exact absurd h (Option.some_ne_none a).symm
  · rw [standingAt_of_not_mem hgone] at h
    rw [← Option.some.inj h]
    rfl

/-- A step behind notices takes out the alert of the number that it dismisses. -/
theorem standing_behind_dismiss (notices : List (Notice × List Step)) (id : UInt64) :
    standing (notices.map fun e => (e.1, e.2 ++ [Step.dismiss id])) =
      (standing notices).filter fun a => decide (a.id ≠ id) := by
  unfold standing
  rw [List.zipIdx_map, List.filterMap_map, List.filter_filterMap]
  congr 1
  funext e
  obtain ⟨⟨n, behind⟩, k⟩ := e
  show standingAt ((n, behind ++ [Step.dismiss id]), k) =
    (standingAt ((n, behind), k)).filter fun a => decide (a.id ≠ id)
  have hmem : UInt64.ofNat k ∈ (behind ++ [Step.dismiss id]).filterMap Step.dismissed? ↔
      UInt64.ofNat k ∈ behind.filterMap Step.dismissed? ∨ UInt64.ofNat k = id := by
    simp [Step.dismissed?]
  by_cases hgone : UInt64.ofNat k ∈ behind.filterMap Step.dismissed?
  · rw [standingAt_of_mem hgone, standingAt_of_mem (hmem.mpr (Or.inl hgone))]
    rfl
  · rw [standingAt_of_not_mem hgone]
    by_cases hid : UInt64.ofNat k = id
    · rw [standingAt_of_mem (hmem.mpr (Or.inr hid)), Option.filter_some,
        if_neg fun h => of_decide_eq_true (p := (n.alert (UInt64.ofNat k)).id ≠ id) h hid]
    · rw [standingAt_of_not_mem fun h => (hmem.mp h).elim hgone hid, Option.filter_some,
        if_pos (decide_eq_true (p := (n.alert (UInt64.ofNat k)).id ≠ id) hid)]

/-- Any other step behind them leaves them alone. -/
theorem standing_behind_other (notices : List (Notice × List Step)) {step : Step}
    (h : step.dismissed? = none) :
    standing (notices.map fun e => (e.1, e.2 ++ [step])) = standing notices := by
  unfold standing
  rw [List.zipIdx_map, List.filterMap_map]
  congr 1
  funext e
  obtain ⟨⟨n, behind⟩, k⟩ := e
  show standingAt ((n, behind ++ [step]), k) = standingAt ((n, behind), k)
  simp [standingAt, h]

/-- A notice with nothing behind it stands at the end, under the number of those before it. -/
theorem standing_concat (notices : List (Notice × List Step)) (n : Notice) :
    standing (notices ++ [(n, [])]) =
      standing notices ++ [n.alert (UInt64.ofNat notices.length)] := by
  unfold standing
  rw [List.zipIdx_append, List.filterMap_append]
  simp [standingAt]

/-- The alerts that are left have numbers below the number of the notices. -/
theorem exists_place_of_mem_standing {notices : List (Notice × List Step)} {a : Alert}
    (h : a ∈ standing notices) : ∃ k < notices.length, a.id = UInt64.ofNat k := by
  obtain ⟨e, hmem, ha⟩ := List.mem_filterMap.mp h
  exact ⟨e.2, List.snd_lt_of_mem_zipIdx hmem, id_of_standingAt ha⟩

/-- Places that fit into 64 bits are in the order of their numbers. -/
theorem ofNat_lt_ofNat {j k : Nat} (hjk : j < k) (hk : k < 2 ^ 64) :
    UInt64.ofNat j < UInt64.ofNat k := by
  rw [UInt64.lt_iff_toNat_lt, UInt64.toNat_ofNat_of_lt' (hjk.trans hk),
    UInt64.toNat_ofNat_of_lt' hk]
  exact hjk

/-- So the numbers increase from alert to alert. -/
theorem pairwise_standing {notices : List (Notice × List Step)} (hfew : notices.length < 2 ^ 64) :
    (standing notices).Pairwise fun a b => a.id < b.id := by
  have hplaces : notices.zipIdx.Pairwise fun e f => e.2 < f.2 := by
    have hrange : (notices.zipIdx.map Prod.snd).Pairwise (· < ·) := by
      rw [List.zipIdx_map_snd]
      exact List.pairwise_lt_range'
    exact List.pairwise_map.mp hrange
  unfold standing
  rw [List.pairwise_filterMap]
  refine hplaces.imp_of_mem fun {e f} he hf hlt a ha b hb => ?_
  rw [id_of_standingAt ha, id_of_standingAt hb]
  exact ofNat_lt_ofNat hlt ((List.snd_lt_of_mem_zipIdx hf).trans hfew)

/-! ## The log behind a run -/

/-- **The log behind a run** has what is left of the notices, and counts all of them. -/
theorem State.log_after (viewer : Viewer) (recording : Option Listen) (steps : List Step) :
    ((State.start viewer recording).after steps).log =
      ⟨UInt64.ofNat ((State.start viewer recording).notices steps).length,
        standing ((State.start viewer recording).notices steps)⟩ := by
  -- from the last step backwards: it stands behind all notices of the steps before it
  induction steps using List.reverseRecOn with
  | nil => rfl
  | append_singleton steps step ih =>
    rw [State.after_concat, State.notices_concat]
    generalize (State.start viewer recording).after steps = s at ih ⊢
    generalize (State.start viewer recording).notices steps = notices at ih ⊢
    rcases hstep : step.dismissed? with _ | id
    · rw [s.log_step hstep, ih]
      rcases s.notice? step with _ | n
      · simp [AlertLog.note, standing_behind_other notices hstep]
      · rw [Option.map_some, Option.toList_some, standing_concat,
          standing_behind_other notices hstep]
        simp [AlertLog.note]
    · have hdismiss : step = .dismiss id := by
        cases step with
        | dismiss other => rw [Option.some.inj hstep]
        | edit | reset | viewer | recording | submit | push | report =>
          exact absurd hstep (Option.some_ne_none id).symm
      subst hdismiss
      show s.log.dismiss id = _
      rw [ih, AlertLog.dismiss_eq]
      simp [State.notice?, standing_behind_dismiss]

/-- The numbers that a run gives away are the places of its notices. -/
theorem State.issued_eq (viewer : Viewer) (recording : Option Listen) (steps : List Step) :
    (State.start viewer recording).issued steps =
      (List.range ((State.start viewer recording).notices steps).length).map UInt64.ofNat := by
  induction steps using List.reverseRecOn with
  | nil => rfl
  | append_singleton steps step ih =>
    rw [State.issued_concat, State.notices_concat, ih, State.log_after]
    rcases ((State.start viewer recording).after steps).notice? step with _ | n
    · simp
    · simp [List.range_succ]

/-- A part of a run gives no more notices than the run. -/
theorem length_notices_take_le (s : State) (steps : List Step) (n : Nat) :
    (s.notices (steps.take n)).length ≤ (s.notices steps).length := by
  induction steps generalizing s n with
  | nil => rw [List.take_nil]
  | cons first rest ih =>
    cases n with
    | zero => exact Nat.zero_le _
    | succ n =>
      have hrest := ih (s.step first).1 n
      rw [List.take_succ_cons, State.notices, State.notices, List.length_append,
        List.length_append]
      rcases s.notice? first with _ | m
      · simpa using hrest
      · simpa using hrest

/-- What a log tells of the notices behind it. -/
structure Tells (log : AlertLog) (notices : List (Notice × List Step)) : Prop where
  /-- It shows what is left of them. -/
  shown : log.alerts = standing notices
  /-- The next number is how many there were. -/
  count : log.nextId.toNat = notices.length
  /-- The numbers on show increase and were given away. -/
  increasing : log.alerts.Pairwise fun a b => a.id < b.id
  below : ∀ a ∈ log.alerts, a.id < log.nextId

/-- The log of fewer than `2 ^ 64` notices tells of them. -/
theorem tells_of_eq {log : AlertLog} {notices : List (Notice × List Step)}
    (h : log = ⟨UInt64.ofNat notices.length, standing notices⟩)
    (hfew : notices.length < 2 ^ 64) : Tells log notices := by
  subst h
  refine ⟨rfl, UInt64.toNat_ofNat_of_lt' hfew, pairwise_standing hfew, fun a ha => ?_⟩
  obtain ⟨k, hk, hid⟩ := exists_place_of_mem_standing ha
  rw [hid]
  exact ofNat_lt_ofNat hk hfew

/-! ## The steps of a run -/

/-- What a step does to the log and answers. -/
structure State.Keeps (s : State) (step : Step) (next : State) (answer : Answer) : Prop where
  /-- A notice comes to the end under the next number, which is not given away again. -/
  noted : ∀ n, s.notice? step = some n →
    next.log.alerts = s.log.alerts ++ [n.alert s.log.nextId] ∧ s.log.nextId < next.log.nextId
  /-- The number is answered to a push. -/
  pushed : ∀ kind title message, step = .push kind title message → answer = .pushed s.log.nextId
  /-- A step without a notice that dismisses nothing leaves the log alone. -/
  silent : s.notice? step = none → step.dismissed? = none → next.log = s.log
  /-- A dismissal takes exactly the alert of its number out, if that is on show, and says whether
  it was. -/
  dismissed : ∀ id, step = .dismiss id → ∃ found, answer = .dismissed found ∧
    (found = true ↔ ∃ a ∈ s.log.alerts, a.id = id) ∧
    (found = true → ∃ before a behind, s.log.alerts = before ++ a :: behind ∧ a.id = id ∧
      next.log = ⟨s.log.nextId, before ++ behind⟩) ∧
    (found = false → next = s)
  /-- A number that was not given away yet dismisses nothing. -/
  early : ∀ id, step = .dismiss id → s.log.nextId ≤ id → next = s

/-- **A step on a log that tells of its notices** does so. -/
theorem State.keeps_step {s : State} {notices : List (Notice × List Step)}
    (h : Tells s.log notices) (step : Step)
    (hroom : (s.notice? step).isSome → notices.length + 1 < 2 ^ 64) :
    s.Keeps step (s.step step).1 (s.step step).2 := by
  have hshows : ∀ id, s.log.shows id = true ↔ ∃ a ∈ s.log.alerts, a.id = id := by
    intro id
    unfold AlertLog.shows
    simp
  have hgone : ∀ id, s.log.shows id = false → (s.step (.dismiss id)).1 = s := by
    intro id hid
    have hnone : ∀ a ∈ s.log.alerts, a.id ≠ id := fun a ha heq =>
      Bool.false_ne_true (hid.symm.trans ((hshows id).mpr ⟨a, ha, heq⟩))
    show { s with log := s.log.dismiss id } = s
    rw [AlertLog.dismiss_of_not_shown hnone]
  constructor
  · intro n hn
    have hother : step.dismissed? = none := by
      cases step with
      | dismiss id => exact absurd hn (Option.some_ne_none n).symm
      | edit | reset | viewer | recording | submit | push | report => rfl
    have hlt : s.log.nextId < s.log.nextId + 1 := by
      have hroom := hroom (Option.isSome_iff_exists.mpr ⟨n, hn⟩)
      rw [UInt64.lt_iff_toNat_lt, UInt64.toNat_add, h.count]
      simp only [UInt64.reduceToNat]
      omega
    rw [s.log_step hother, hn]
    exact ⟨rfl, hlt⟩
  · rintro kind title message rfl
    rfl
  · intro hnone hother
    rw [s.log_step hother, hnone]
    rfl
  · rintro id rfl
    refine ⟨s.log.shows id, rfl, hshows id, fun hshown => ?_, hgone id⟩
    obtain ⟨a, ha, rfl⟩ := (hshows id).mp hshown
    obtain ⟨before, behind, hsplit⟩ := List.append_of_mem ha
    refine ⟨before, a, behind, hsplit, rfl, ?_⟩
    show s.log.dismiss a.id = _
    rw [AlertLog.dismiss_eq, filter_of_increasing h.increasing hsplit]
  · rintro id rfl hid
    apply hgone
    by_contra hshown
    obtain ⟨a, ha, rfl⟩ := (hshows id).mp ((Bool.not_eq_false _).mp hshown)
    exact absurd (h.below a ha) (UInt64.not_lt.mpr hid)

/-- The number that a step of a run gives away counts with those of the whole run. -/
theorem length_notices_lt (viewer : Viewer) (recording : Option Listen) {steps : List Step}
    {i : Nat} {step : Step} (hi : steps[i]? = some step)
    (hnotice : ((((State.start viewer recording).after (steps.take i)).notice? step).isSome)) :
    ((State.start viewer recording).notices (steps.take i)).length + 1 ≤
      ((State.start viewer recording).notices steps).length := by
  have htake : steps.take (i + 1) = steps.take i ++ [step] := by
    rw [List.take_add_one, hi, Option.toList_some]
  have hle := length_notices_take_le (State.start viewer recording) steps (i + 1)
  rw [htake, State.notices_concat] at hle
  obtain ⟨n, hn⟩ := Option.isSome_iff_exists.mp hnotice
  rw [hn] at hle
  simpa using hle

/-- **The alerts of a run** of fewer than `2 ^ 64` notices.  After `n` steps the log shows the
notices of those steps in their order, each under its place, without those whose number was
dismissed behind them; so the numbers on show increase, and each of them was given away.  No number
is given away twice.  Every step does to the log what `State.Keeps` says: a notice comes to the end,
a dismissal takes out the alert of its number and no other, and one that is too early does
nothing. -/
theorem alerts_of_run (viewer : Viewer) (recording : Option Listen) (steps : List Step)
    (hfew : ((State.start viewer recording).notices steps).length < 2 ^ 64) :
    (∀ n ≤ steps.length, ∃ s, ((State.start viewer recording).trail steps)[n]? = some s ∧
      Tells s.log ((State.start viewer recording).notices (steps.take n))) ∧
    ((State.start viewer recording).issued steps).Pairwise (· < ·) ∧
    ∀ (i : Nat) (step : Step), steps[i]? = some step → ∃ (s next : State) (answer : Answer),
      ((State.start viewer recording).trail steps)[i]? = some s ∧
      ((State.start viewer recording).run steps)[i]? = some (next, answer) ∧
      s.Keeps step next answer := by
  have htells : ∀ n, Tells ((State.start viewer recording).after (steps.take n)).log
      ((State.start viewer recording).notices (steps.take n)) := fun n =>
    tells_of_eq (State.log_after viewer recording _)
      ((length_notices_take_le _ steps n).trans_lt hfew)
  refine ⟨fun n hn => ⟨_, State.getElem?_trail _ steps hn, htells n⟩, ?_, fun i step hi => ?_⟩
  · rw [State.issued_eq, List.pairwise_map]
    refine List.pairwise_lt_range.imp_of_mem fun {j k} _ hk hjk => ?_
    exact ofNat_lt_ofNat hjk ((List.mem_range.mp hk).trans hfew)
  · obtain ⟨hlt, -⟩ := List.getElem?_eq_some_iff.mp hi
    refine ⟨_, _, _, State.getElem?_trail _ steps (Nat.le_of_lt hlt), ?_,
      State.keeps_step (htells i) step fun hnotice =>
        (length_notices_lt viewer recording hi hnotice).trans_lt hfew⟩
    rw [State.getElem?_run, hi]
    rfl

/-- Two alerts of one text, and dismissals of numbers that are early, on show and gone. -/
def dismissals : List Step :=
  [.dismiss 1, .push .info "a" "b", .push .info "a" "b", .dismiss 0, .dismiss 0]

/-- What is left of these is the second alert, which was dismissed too early to go. -/
theorem alerts_of_run_dismissals :
    ((State.start ⟨none, false⟩ none).notices dismissals).length < 2 ^ 64 ∧
      ∃ s, ((State.start ⟨none, false⟩ none).trail dismissals)[5]? = some s ∧
        s.log.alerts = [⟨1, .info, "a", "b"⟩] ∧ s.log.nextId.toNat = 2 := by
  have hfew : ((State.start ⟨none, false⟩ none).notices dismissals).length < 2 ^ 64 := by decide
  obtain ⟨hlogs, -, -⟩ := alerts_of_run ⟨none, false⟩ none dismissals hfew
  obtain ⟨s, hs, htells⟩ := hlogs 5 (by decide)
  refine ⟨hfew, s, hs, htells.shown.trans ?_, htells.count.trans ?_⟩
  · decide
  · decide

end Flow

end PinBoard
