import PinBoard.Proofs.Pin.Submission
import Mathlib.Data.List.Forall2

/-!
# Runs that differ in tokens

The token of the viewer goes into the call and nowhere else. Two runs whose viewers differ in
nothing but the token that they hold, if they hold one, are compared step by step: a single step
keeps their states alike and gives answers that are alike, and from that, by induction on both runs
at once, so does the whole of them.
-/

namespace PinBoard

/-! ## Viewers that differ in the token -/

/-- The viewer holds a token that is not empty. -/
def Viewer.HoldsToken (v : Viewer) : Prop := ∃ token, v.token = some token ∧ token ≠ ""

/-- Two viewers that differ in no more than what their token is. -/
structure Viewer.Alike (v w : Viewer) : Prop where
  owns : v.ownsProfile = w.ownsProfile
  token : v.HoldsToken ↔ w.HoldsToken

/-- Of two such viewers both may pin, or neither. -/
theorem Viewer.Alike.mayPin_iff {v w : Viewer} (h : v.Alike w) : v.MayPin ↔ w.MayPin := by
  show v.ownsProfile = true ∧ v.HoldsToken ↔ w.ownsProfile = true ∧ w.HoldsToken
  rw [h.owns, h.token]

namespace Flow

/-! ## Steps, states and answers that do -/

/-- Two steps that are the same but for the token of a viewer. -/
inductive Step.Alike : Step → Step → Prop
  | viewer {v w : Viewer} (h : v.Alike w) : Step.Alike (.viewer v) (.viewer w)
  | same (step : Step) : Step.Alike step step

/-- Two states that are the same but for the token of the viewer. -/
structure State.Alike (s t : State) : Prop where
  viewer : s.viewer.Alike t.viewer
  recording : s.recording = t.recording
  blurb : s.blurb = t.blurb
  log : s.log = t.log

/-- Two submissions that came to the same and made the same calls but for the token in them. -/
structure Submitted.Alike (x y : Submitted) : Prop where
  outcome : x.outcome = y.outcome
  calls : List.Forall₂ (fun c d => c.request = d.request) x.calls y.calls

/-- Two answers that are the same but for the token in a call. -/
inductive Answer.Alike : Answer → Answer → Prop
  | submitted {x y : Submitted} (h : x.Alike y) : Answer.Alike (.submitted x) (.submitted y)
  | same (answer : Answer) : Answer.Alike answer answer

/-- Two entries of runs that tell the token by a call at most. -/
structure SameButToken (x y : State × Answer) : Prop where
  state : x.1.Alike y.1
  answer : x.2.Alike y.2

/-! ## A single step -/

section Step

variable {s t : State} (h : s.Alike t)
include h

/-- A submission makes the same of both states, and its calls differ in the token alone. -/
theorem State.Alike.submit (reply : PinReply) :
    (s.submit reply).1.Alike (t.submit reply).1 ∧
      (s.submit reply).2.Alike (t.submit reply).2 := by
  by_cases hpin : s.viewer.MayPin
  · -- both have a token to act with, and apart from it both submissions are computed from the same
    obtain ⟨token, htoken⟩ := s.viewer.mayPin_iff.mp hpin
    obtain ⟨token', htoken'⟩ := t.viewer.mayPin_iff.mp (h.viewer.mayPin_iff.mp hpin)
    rw [State.submit_of_pinToken s reply htoken, State.submit_of_pinToken t reply htoken',
      h.recording, h.blurb, h.log]
    exact ⟨⟨h.viewer, rfl, rfl, rfl⟩, rfl, .cons rfl .nil⟩
  · have hpin' : ¬ t.viewer.MayPin := fun hpin' => hpin (h.viewer.mayPin_iff.mpr hpin')
    rw [State.submit_of_not_mayPin s reply hpin, State.submit_of_not_mayPin t reply hpin']
    exact ⟨h, rfl, .nil⟩

/-- **One step.**  Alike steps lead from alike states to alike states, with alike answers. -/
theorem State.Alike.step {step step' : Step} (hstep : step.Alike step') :
    SameButToken (s.step step) (t.step step') := by
  cases hstep with
  | viewer hnext => exact ⟨⟨hnext, h.recording, h.blurb, h.log⟩, .same .nothing⟩
  | same =>
    cases step with
    | submit reply =>
      obtain ⟨hstate, hsubmitted⟩ := h.submit reply
      exact ⟨hstate, .submitted hsubmitted⟩
    | viewer v => exact ⟨⟨⟨rfl, Iff.rfl⟩, h.recording, h.blurb, h.log⟩, .same .nothing⟩
    | recording r => exact ⟨⟨h.viewer, rfl, h.blurb, h.log⟩, .same .nothing⟩
    | reset => exact ⟨⟨h.viewer, h.recording, rfl, h.log⟩, .same .nothing⟩
    | edit raw =>
      simp only [State.step, h.blurb]
      exact ⟨⟨h.viewer, h.recording, rfl, h.log⟩, .same .nothing⟩
    -- what these three do and tell is computed from the log, which is one and the same
    | push kind title message =>
      simp only [State.step, h.log]
      exact ⟨⟨h.viewer, h.recording, h.blurb, rfl⟩, .same _⟩
    | dismiss id =>
      simp only [State.step, h.log]
      exact ⟨⟨h.viewer, h.recording, h.blurb, rfl⟩, .same _⟩
    | report message title =>
      simp only [State.step, h.log]
      exact ⟨⟨h.viewer, h.recording, h.blurb, rfl⟩, .same .nothing⟩

/-! ## Whole runs -/

/-- Alike steps make runs from alike states that are alike in every entry. -/
theorem State.Alike.run {steps steps' : List Step} (hsteps : List.Forall₂ Step.Alike steps steps') :
    List.Forall₂ SameButToken (s.run steps) (t.run steps') := by
  induction hsteps generalizing s t with
  | nil => exact .nil
  | cons hstep hrest ih =>
    have hnext := h.step hstep
    exact .cons hnext (ih hnext.state)

end Step

/-- **The token reaches nothing but the call.**  Two runs from the start whose steps differ in the
tokens of their viewers alone, each of which is there and not empty in both runs or in neither, have
after every step the same text and the same alerts, give the same answers, and make the same calls
but for the token in them. -/
theorem token_of_run {viewer viewer' : Viewer} (recording : Option Listen)
    {steps steps' : List Step} (hviewer : viewer.Alike viewer')
    (hsteps : List.Forall₂ Step.Alike steps steps') :
    List.Forall₂ SameButToken ((State.start viewer recording).run steps)
      ((State.start viewer' recording).run steps') := by
  apply State.Alike.run _ hsteps
  exact ⟨hviewer, rfl, rfl, rfl⟩

/-- Two owners with tokens of their own, one of whom lets go of it before the second submission as
the other's turns empty. -/
theorem token_of_run_owners :
    (Viewer.mk (some "t") true).Alike ⟨some "u", true⟩ ∧
      List.Forall₂ Step.Alike
        [.edit "a", .submit (.ok 200), .viewer ⟨none, true⟩, .submit (.error "down")]
        [.edit "a", .submit (.ok 200), .viewer ⟨some "", true⟩, .submit (.error "down")] ∧
      List.Forall₂ SameButToken
        ((State.start ⟨some "t", true⟩ none).run
          [.edit "a", .submit (.ok 200), .viewer ⟨none, true⟩, .submit (.error "down")])
        ((State.start ⟨some "u", true⟩ none).run
          [.edit "a", .submit (.ok 200), .viewer ⟨some "", true⟩, .submit (.error "down")]) := by
  have hviewer : (Viewer.mk (some "t") true).Alike ⟨some "u", true⟩ :=
    ⟨rfl, ⟨fun _ => ⟨"u", rfl, by decide⟩, fun _ => ⟨"t", rfl, by decide⟩⟩⟩
  have hlost : (Viewer.mk none true).Alike ⟨some "", true⟩ := by
    refine ⟨rfl, ?_, ?_⟩
    · rintro ⟨token, htoken, -⟩
      exact nomatch htoken
    · rintro ⟨token, htoken, hne⟩
      exact absurd (Option.some.inj htoken).symm hne
  have hsteps : List.Forall₂ Step.Alike
      [.edit "a", .submit (.ok 200), .viewer ⟨none, true⟩, .submit (.error "down")]
      [.edit "a", .submit (.ok 200), .viewer ⟨some "", true⟩, .submit (.error "down")] :=
    .cons (.same _) (.cons (.same _) (.cons (.viewer hlost) (.cons (.same _) .nil)))
  exact ⟨hviewer, hsteps, token_of_run none hviewer hsteps⟩

end Flow

end PinBoard
