import PinBoard.Pin.Dialog

/-!
# Overlapping submissions

A run over one pin dialog in which submissions settle in any order, while more of them are started
and the blurb is edited. A submission carries what it was started with and makes its call at once;
it meets the dialog again only when it settles.
-/

namespace PinBoard.Overlap

/-! ## States and steps -/

/-- What a run carries along: the dialog, the alerts, the submissions that were started and have
not settled, in the order of their start, the calls that were made, and how often it was told that a
pin was made. -/
structure State where
  dialog : PinDialog
  log : AlertLog
  underWay : List Submission
  sent : List PinCall
  told : Nat

/-- The state in which nothing was written and nothing was started. -/
def State.start : State := ⟨.closed, .empty, [], [], 0⟩

/-- One step of a run. -/
inductive Step where
  | edit (raw : String)
  | submit (viewer : Viewer) (recording : Option Listen)
  /-- Settles the submission at a place among those under way; the reply is what its call answers
  if it was made. -/
  | settle (place : Nat) (reply : PinReply)

/-! ## Running -/

/-- Starts a submission, which makes its call if it has one. -/
def State.submit (s : State) (viewer : Viewer) (recording : Option Listen) : State :=
  let (dialog, submission) := s.dialog.submit viewer recording
  { s with
    dialog := dialog
    underWay := s.underWay ++ [submission]
    sent := s.sent ++ submission.call.toList }

/-- Settles a submission, which is under way no longer. -/
def State.settle (s : State) (place : Nat) (submission : Submission) (reply : PinReply) : State :=
  let outcome := submission.outcome reply
  { s with
    dialog := s.dialog.settle submission outcome
    log := outcome.report submission.recording s.log
    underWay := s.underWay.eraseIdx place
    told := if outcome = .pinned then s.told + 1 else s.told }

/-- Takes a step; where nothing is under way nothing settles. -/
def State.step (s : State) : Step → State
  | .edit raw => { s with dialog := s.dialog.edit raw }
  | .submit viewer recording => s.submit viewer recording
  | .settle place reply =>
    match s.underWay[place]? with
    | none => s
    | some submission => s.settle place submission reply

/-- The state after a run. -/
def State.run (s : State) (steps : List Step) : State :=
  steps.foldl State.step s

end PinBoard.Overlap
