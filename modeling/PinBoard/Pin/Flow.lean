import PinBoard.Pin.Submission

/-!
# The pin flow

A run of steps over one blurb, one alert log, the viewer and the recording at hand.
-/

namespace PinBoard.Flow

/-! ## States and steps -/

/-- What a run carries along. -/
structure State where
  viewer : Viewer
  recording : Option Listen
  blurb : Blurb
  log : AlertLog

/-- The state in which nothing was written and nothing was reported. -/
def State.start (viewer : Viewer) (recording : Option Listen) : State :=
  ⟨viewer, recording, .empty, .empty⟩

/-- One step of a run. -/
inductive Step where
  | edit (raw : String)
  | reset
  | viewer (v : Viewer)
  | recording (r : Option Listen)
  /-- Submits the pin; the reply is what the call answers if it is made. -/
  | submit (reply : PinReply)
  | push (kind : AlertKind) (title message : String)
  | dismiss (id : UInt64)
  | report (message : String) (title : Option String)

/-- What a submission came to: its outcome and the calls it made. -/
structure Submitted where
  outcome : PinOutcome
  calls : List PinCall

/-- What a step answers. -/
inductive Answer where
  | nothing
  | pushed (id : UInt64)
  | dismissed (found : Bool)
  | submitted (s : Submitted)

/-! ## Running -/

/-- Submits the pin. -/
def State.submit (s : State) (reply : PinReply) : State × Submitted :=
  let submission := Submission.start s.viewer s.recording s.blurb
  let outcome := submission.outcome reply
  ({ s with blurb := submission.handedBack outcome, log := outcome.report s.recording s.log },
    ⟨outcome, submission.call.toList⟩)

/-- Takes a step. -/
def State.step (s : State) : Step → State × Answer
  | .edit raw => ({ s with blurb := s.blurb.edit raw }, .nothing)
  | .reset => ({ s with blurb := .empty }, .nothing)
  | .viewer v => ({ s with viewer := v }, .nothing)
  | .recording r => ({ s with recording := r }, .nothing)
  | .submit reply =>
    let (next, submitted) := s.submit reply
    (next, .submitted submitted)
  | .push kind title message =>
    ({ s with log := s.log.push kind title message }, .pushed s.log.nextId)
  | .dismiss id => ({ s with log := s.log.dismiss id }, .dismissed (s.log.shows id))
  | .report message title => ({ s with log := s.log.report message title }, .nothing)

/-- The states and answers of a run, step by step. -/
def State.run (s : State) : List Step → List (State × Answer)
  | [] => []
  | step :: rest =>
    let next := s.step step
    next :: next.1.run rest

end PinBoard.Flow
