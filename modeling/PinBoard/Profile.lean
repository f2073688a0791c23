import PinBoard.Browser

/-!
# Profiles

The page of one user: the pinned recording, the latest listens, and the dialog in which the owner
pins one of them. Pin and listens are asked for as soon as the page is up, and again when the page
turns to another user; until then it shows what it has.
-/

namespace PinBoard

/-- What was asked for: nothing yet, an error, or what it is. -/
abbrev Loaded (α : Type) := Option (Except ServerError α)

/-- The page of a user. -/
structure Profile where
  userName : String
  pin : Loaded (Option PinnedRecording)
  listens : Loaded (List Listen)
  /-- Whether pin and listens are still to be asked for. -/
  isDue : Bool
  dialog : PinDialog
  /-- The listen that the dialog is about. -/
  chosen : Option Listen

namespace Profile

/-- The page of a user of whom nothing was asked. -/
def fresh (userName : String) : Profile := ⟨userName, none, none, true, .closed, none⟩

/-- The page once it is turned to another user. -/
def turnTo (p : Profile) (userName : String) : Profile :=
  { p with userName := userName, isDue := p.isDue || p.userName ≠ userName }

/-- Whether the page is the user's own. -/
def isOwn (p : Profile) (b : Browser) : Bool := b.auth.owns p.userName

/-! ## Asking -/

/-- Asks for the pin. -/
def askPin (p : Profile) (b : Browser) (s : Surroundings) : Profile × Browser :=
  let (pin, b) := b.heedfulCall s fun server visit => server.currentPin visit p.userName
  ({ p with pin := some pin }, b)

/-- Asks for the listens. -/
def askListens (p : Profile) (b : Browser) (s : Surroundings) : Profile × Browser :=
  let (listens, b) := b.heedfulCall s fun server visit => server.recentListens visit p.userName
  ({ p with listens := some listens }, b)

/-- Asks for what is still to be asked for. -/
def load (p : Profile) (b : Browser) (s : Surroundings) : Profile × Browser :=
  if p.isDue then
    let (p, b) := p.askPin b s
    let (p, b) := p.askListens b s
    ({ p with isDue := false }, b)
  else (p, b)

/-! ## Acting -/

/-- What a viewer does on the page. -/
inductive Action where
  | unpin
  /-- Opens the dialog for a listen. -/
  | choose (l : Listen)
  | dialog (a : PinDialog.Action)
  deriving DecidableEq, Repr

/-- The title of the alert for a pin that was taken off. -/
def unpinnedTitle : String := "Recording unpinned"

/-- The text of the alert for a pin that was taken off. -/
def unpinnedMessage : String := "Your pinned recording was removed from your profile."

/-- The title of the alert for a pin that could not be taken off. -/
def unpinFailedTitle : String := "Error while unpinning recording"

/-- Takes the pin off and says what came of it. -/
def unpin (p : Profile) (b : Browser) (s : Surroundings) : Profile × Browser :=
  match b.heedfulCall s (·.unpin ·) with
  | (.ok _, b) =>
    p.askPin { b with log := b.log.push .success unpinnedTitle unpinnedMessage } s
  | (.error e, b) => (p, { b with log := b.log.report e.shown (some unpinFailedTitle) })

/-- What comes of something a viewer does. The pin is asked for again when it has changed. -/
def act (p : Profile) (b : Browser) (s : Surroundings) : Action → Profile × Browser
  | .unpin => p.unpin b s
  | .choose l => ({ p with chosen := some l, dialog := p.dialog.reveal }, b)
  | .dialog a =>
    let (dialog, b, outcome) := p.dialog.act b s (p.isOwn b) p.chosen a
    let p := { p with dialog := dialog }
    if outcome = some .pinned then p.askPin b s else (p, b)

end Profile

end PinBoard
