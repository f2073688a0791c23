import PinBoard.Alert
import PinBoard.Markup

/-!
# The stack of alerts

The alerts on show, oldest first, each with a button that dismisses it.
-/

namespace PinBoard.View

/-- How a kind of alert is drawn. -/
def alertStyle : AlertKind → String
  | .success => "border-green-500/50 bg-green-900/30 text-green-300"
  | .info => "border-sky-500/50 bg-sky-900/30 text-sky-300"
  | .warning => "border-yellow-500/50 bg-yellow-900/30 text-yellow-300"
  | .danger => "border-red-500/50 bg-red-900/30 text-red-300"

/-- The button that dismisses an alert. -/
def dismissButton {α : Type} (dismiss : α) : Node α :=
  .element "button"
    [.own "class" "text-gray-400 hover:text-white cursor-pointer", .own "type" "button",
     .own "aria-label" "Dismiss"]
    [.click (some dismiss)] [.own "×"]

/-- One alert. -/
def alert {α : Type} (dismiss : UInt64 → α) (a : Alert) : Node α :=
  .element "div"
    [.own "class" ("border rounded p-3 shadow-lg font-mono text-sm " ++ alertStyle a.kind),
     .own "role" "alert", .own "data-kind" a.kind.label] []
    [.styled "div" "flex justify-between items-start gap-2"
      [.element "div" [] []
        [.styled "p" "font-bold" [.given a.title],
         .styled "p" "text-gray-200 break-words" [.given a.message]],
       dismissButton (dismiss a.id)]]

/-- The alerts of a log. -/
def alertStack {α : Type} (dismiss : UInt64 → α) (log : AlertLog) : Node α :=
  .styled "div" "fixed top-4 right-4 z-[60] flex flex-col gap-2 w-80"
    (log.alerts.map (alert dismiss))

end PinBoard.View
