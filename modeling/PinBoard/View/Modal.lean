import PinBoard.Markup

/-!
# Modals

A window in front of the page. It is closed by a click beside it, by its close button or by the
Escape key; clicks inside go no further.
-/

namespace PinBoard.View

/-- How the backdrop is drawn. -/
def backdropStyle : String :=
  "fixed inset-0 bg-black/60 backdrop-blur-sm z-40 transition-opacity"

/-- How the room around the window is drawn. -/
def modalStyle : String :=
  "fixed inset-0 flex items-center justify-center z-50 pointer-events-none"

/-- How the window is drawn. -/
def windowStyle : String :=
  "bg-pin-panel border border-white/10 max-h-[85vh] overflow-hidden flex flex-col rounded-lg " ++
    "shadow-2xl max-w-lg w-full pointer-events-auto"

/-- The cross on the close button. -/
def closeIcon {α : Type} : Node α :=
  .element "svg"
    [.own "class" "w-6 h-6", .own "fill" "none", .own "viewBox" "0 0 24 24",
     .own "stroke" "currentColor"] []
    [.element "path"
      [.own "stroke-linecap" "round", .own "stroke-linejoin" "round", .own "stroke-width" "2",
       .own "d" "M6 18L18 6M6 6l12 12"] [] []]

/-- The close button. -/
def closeButton {α : Type} (close : α) : Node α :=
  .element "button"
    [.own "class" "text-gray-400 hover:text-white transition-colors ml-4 cursor-pointer",
     .own "type" "button", .own "aria-label" "Close"]
    [.click (some close)] [closeIcon]

/-- The row of actions under the body. -/
def modalFooter {α : Type} (footer : Option (List (Node α))) : List (Node α) :=
  match footer with
  | none => []
  | some row => [.styled "div" "flex justify-end gap-3 p-4 border-t border-white/10" row]

/-- The window of a modal. -/
def modalWindow {α : Type} (close : α) (header body : List (Node α))
    (footer : Option (List (Node α))) : Node α :=
  .element "div" [.own "class" windowStyle] [.shield]
    ([.styled "div" "flex items-center justify-between p-4 border-b border-white/10 bg-black/20"
        [.styled "div" "flex-1 min-w-0" header, closeButton close],
      .styled "div" "overflow-y-auto p-4" body] ++
     modalFooter footer)

/-- A modal. -/
def modal {α : Type} (close : α) (header body : List (Node α))
    (footer : Option (List (Node α))) : List (Node α) :=
  [.element "div" [.own "class" backdropStyle] [.click (some close)] [],
   .element "div" [.own "class" modalStyle, .own "role" "dialog"] [.key "Escape" close]
     [modalWindow close header body footer]]

end PinBoard.View
