import PinBoard.Markup

/-!
# Buttons

A button is drawn by its rank and never submits a form. A disabled one is drawn faint and does
nothing.
-/

namespace PinBoard.View

/-- The ranks of buttons. -/
inductive Rank where
  | primary
  | secondary
  | danger
  deriving DecidableEq, Repr

/-- How a rank is drawn. -/
def Rank.style : Rank → String
  | .primary =>
    "bg-pin-leaf hover:bg-pin-leaf/80 text-white font-bold px-5 py-2 transition-colors " ++
      "cursor-pointer"
  | .secondary =>
    "px-5 py-2 border border-white/10 text-gray-300 transition-colors hover:bg-white/5 " ++
      "hover:text-white cursor-pointer"
  | .danger =>
    "px-3 py-1 text-xs font-mono uppercase tracking-wider text-red-400 border " ++
      "border-red-500/30 hover:bg-red-500/10 transition-colors cursor-pointer"

/-- How a disabled button is drawn. -/
def disabledStyle (disabled : Bool) : String :=
  if disabled then "opacity-30 cursor-not-allowed pointer-events-none" else ""

/-- How a button is drawn, with a style of its own. -/
def buttonStyle (rank : Rank) (disabled : Bool) (style : String) : String :=
  rank.style ++ " " ++ disabledStyle disabled ++ " " ++ style ++ " rounded"

/-- The attribute of what is disabled. -/
def disabledFlag (disabled : Bool) : List Attribute :=
  if disabled then [.flag "disabled"] else []

/-- A button. -/
def button {α : Type} (rank : Rank) (disabled : Bool) (style : String) (action : α)
    (children : List (Node α)) : Node α :=
  .element "button"
    ([.given "class" (buttonStyle rank disabled style), .own "type" "button"] ++
      disabledFlag disabled)
    [.click (if disabled then none else some action)] children

/-- A button that is not disabled and has no style of its own. -/
def plainButton {α : Type} (rank : Rank) (action : α) (caption : String) : Node α :=
  button rank false "" action [.own caption]

end PinBoard.View
