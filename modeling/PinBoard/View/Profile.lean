import PinBoard.Profile
import PinBoard.View.ListenList
import PinBoard.View.PinDialog
import PinBoard.View.PinnedCard

/-!
# The view of a profile

All that depends on the viewer is whether the profile is the viewer's own.
-/

namespace PinBoard.View

/-- A line that says that something is being asked for. -/
def loadingLine {α : Type} (what : String) : Node α :=
  .styled "p" "text-gray-500 font-mono animate-pulse" [.own ("Loading " ++ what ++ "...")]

/-- A line that says that something could not be had. -/
def failedLine {α : Type} (what : String) (e : ServerError) : Node α :=
  .styled "p" "text-red-400 font-mono text-sm"
    [.given ("Could not load " ++ what ++ ": " ++ e.shown)]

/-- What is said on a profile without a pin. -/
def noPinLine {α : Type} (isOwn : Bool) (userName : String) : Node α :=
  .styled "p" "text-gray-500 font-mono italic"
    [if isOwn then .own "Nothing pinned yet. Pick one of your listens below."
     else .given (userName ++ " has not pinned anything.")]

/-- The pin on a profile. -/
def pinSection {α : Type} (act : Profile.Action → α) (now : Int64) (isOwn : Bool) (p : Profile) :
    Node α :=
  match p.pin with
  | none => loadingLine "pin"
  | some (.ok (some pin)) => pinnedCard now isOwn (act .unpin) pin
  | some (.ok none) => noPinLine isOwn p.userName
  | some (.error e) => failedLine "pin" e

/-- The listens of a profile. -/
def listensSection {α : Type} (act : Profile.Action → α) (isOwn : Bool) (p : Profile) : Node α :=
  match p.listens with
  | none => loadingLine "listens"
  | some (.ok ls) => listenList isOwn (fun l => act (.choose l)) ls
  | some (.error e) => failedLine "listens" e

/-- A profile at a given second. -/
def profile {α : Type} (act : Profile.Action → α) (now : Int64) (isOwn : Bool) (p : Profile) :
    Node α :=
  .styled "div" "space-y-8 text-white w-full max-w-3xl mx-auto"
    ([.styled "div" "text-center"
        [.styled "h1" "text-4xl font-bold text-pin-accent mb-2" [.given p.userName],
         .styled "p" "text-gray-400 font-mono" [.own "Pinned recording and recent listens."]],
      .element "section" [] [] [pinSection act now isOwn p],
      .element "section" [] []
        [.styled "h2" "text-lg font-bold mb-3 text-white border-b border-white/10 pb-2"
          [.own "Recent listens"],
         listensSection act isOwn p]] ++
     pinDialog (fun a => act (.dialog a)) p.chosen p.dialog)

end PinBoard.View
