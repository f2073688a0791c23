import PinBoard.Pin.Submission

/-!
# The pin dialog

The dialog in which the owner of a profile pins a recording. It closes as soon as a submission is
started, and what was written outlives the closing. Several submissions may be under way at once;
each carries the blurb of its start, which counts no more when it settles.
-/

namespace PinBoard

/-- The dialog: whether it is on show, and the blurb. -/
structure PinDialog where
  isOpen : Bool
  blurb : Blurb
  deriving DecidableEq

namespace PinDialog

/-- The dialog that was never opened. -/
def closed : PinDialog := ⟨false, .empty⟩

/-- What a viewer does to the dialog. -/
inductive Action where
  | close
  | edit (raw : String)
  | submit
  deriving DecidableEq, Repr

/-- Shows the dialog. -/
def reveal (d : PinDialog) : PinDialog := { d with isOpen := true }

/-- Closes the dialog. -/
def close (d : PinDialog) : PinDialog := { d with isOpen := false }

/-- Edits the blurb. -/
def edit (d : PinDialog) (raw : String) : PinDialog := { d with blurb := d.blurb.edit raw }

/-- Starts a submission. -/
def submit (d : PinDialog) (viewer : Viewer) (recording : Option Listen) :
    PinDialog × Submission :=
  (d.close, .start viewer recording d.blurb)

/-- The dialog once a submission came to an outcome. The blurb that the submission hands back takes
the place of the one of the dialog only if the outcome clears it. -/
def settle (d : PinDialog) (submission : Submission) (outcome : PinOutcome) : PinDialog :=
  if outcome.clearsBlurb then { d with blurb := submission.handedBack outcome } else d

end PinDialog

end PinBoard
