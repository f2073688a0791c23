import PinBoard.Pin.Recording
import PinBoard.View.Button
import PinBoard.View.ListenList

/-!
# The card of a pinned recording

The recording on show on a profile, what its owner says of it and how long it stays. The owner
can take it off.
-/

namespace PinBoard.View

/-- What the owner says of a pinned recording. -/
def blurb {α : Type} : Option String → List (Node α)
  | none => []
  | some text =>
    [.styled "blockquote" "mt-3 pl-3 border-l-2 border-pin-accent/50 italic text-gray-300"
      [.given text]]

/-- The days that are left, in words. -/
def daysLeft {α : Type} (days : Int64) : Node α :=
  if days = 1 then .own "1 day left" else .given (toString days.toInt ++ " days left")

/-- The button that takes the pin off, where it may be. -/
def unpinButton {α : Type} (canUnpin : Bool) (unpin : α) : List (Node α) :=
  if canUnpin then [plainButton .danger unpin "Unpin"] else []

/-- The card of a pinned recording as it is at a given second. -/
def pinnedCard {α : Type} (now : Int64) (canUnpin : Bool) (unpin : α) (p : PinnedRecording) :
    Node α :=
  let track := p.trackMetadata.getD .unknown
  .styled "div" "bg-pin-panel border border-pin-accent/40 p-5 rounded-lg"
    [.styled "div" "flex justify-between items-start gap-4"
      [.styled "div" "min-w-0"
        ([.styled "p" "text-xs font-mono uppercase tracking-widest text-pin-accent mb-1"
            [.own "Pinned recording"],
          .styled "h3" "text-xl font-bold text-white truncate"
            [.given (track.trackName.getD unknownTrack)],
          .styled "p" "text-gray-400 font-mono" [.given (track.artistName.getD unknownArtist)]] ++
         blurb p.blurbContent),
       .styled "div" "flex flex-col items-end gap-2 shrink-0"
        (.styled "span" "text-xs font-mono text-gray-500" [daysLeft (p.daysRemaining now)] ::
         unpinButton canUnpin unpin)]]

end PinBoard.View
