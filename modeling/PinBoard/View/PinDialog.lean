import PinBoard.Pin.Dialog
import PinBoard.View.Button
import PinBoard.View.Modal

/-!
# The view of the pin dialog

A modal that names the recording and takes the blurb. A recording of which nothing is known has
empty names here.
-/

namespace PinBoard.View

/-- How the field for the blurb is drawn. -/
def blurbFieldStyle : String :=
  "w-full p-2 rounded bg-pin-dark border border-white/10 focus:border-pin-accent " ++
    "focus:outline-none text-white resize-y"

/-- The field for the blurb. -/
def blurbField {α : Type} (act : PinDialog.Action → α) (text : String) : Node α :=
  .element "textarea"
    [.own "class" blurbFieldStyle, .own "id" "blurb-content", .own "name" "blurb-content",
     .own "placeholder" "Tell us why you love this recording!", .own "rows" "4",
     .own "spellcheck" "false", .given "value" text]
    [.input fun raw => act (.edit raw)] []

/-- How much of the blurb's limit is used. -/
def blurbCounter {α : Type} (length : Nat) : Node α :=
  .styled "small" "block text-right font-mono text-xs text-gray-500"
    [.given (toString length ++ " / " ++ toString maxBlurbLength)]

/-- What pinning will do. -/
def pinNotice {α : Type} (track artist : String) : Node α :=
  .styled "small" "block text-xs text-gray-500"
    [.own "Pinning this recording will replace any recording currently pinned.",
     .element "br" [] [] [],
     .styled "b" "text-gray-300" [.given (track ++ " by " ++ artist)],
     .own " will be unpinned from your profile in one week."]

/-- The body of the dialog. -/
def pinDialogBody {α : Type} (act : PinDialog.Action → α) (track artist : String) (b : Blurb) :
    Node α :=
  .styled "div" "space-y-3 text-gray-300"
    [.element "p" [] []
      [.own "Why are you pinning ", .styled "b" "text-white" [.given (track ++ " - " ++ artist)],
       .own "? (Optional)"],
     blurbField act b.text,
     blurbCounter b.length,
     pinNotice track artist]

/-- The dialog for a recording; nothing while it is closed. -/
def pinDialog {α : Type} (act : PinDialog.Action → α) (recording : Option Listen) (d : PinDialog) :
    List (Node α) :=
  if d.isOpen then
    let track := (recording.bind Listen.trackName).getD ""
    let artist := (recording.bind Listen.artistName).getD ""
    modal (act .close)
      [.styled "h4" "text-lg font-bold text-white" [.own "Pin This Recording to Your Profile"]]
      [pinDialogBody act track artist d.blurb]
      (some
        [plainButton .secondary (act .close) "Cancel", plainButton .primary (act .submit) "Pin"])
  else []

end PinBoard.View
