import PinBoard.View.AlertStack
import PinBoard.View.LoginForm

/-!
# The frame of the pages

What stands around each page: the bar with the name of the program and the links, the footer, and
the alerts.
-/

namespace PinBoard.View

/-! ## The footer -/

/-- A link out of the program. -/
def outwardLink {α : Type} (href caption : String) : Node α :=
  .element "a"
    [.own "class" "hover:text-pin-accent transition-colors", .own "href" href,
     .own "target" "_blank"] [] [.own caption]

/-- How the row of links in the footer is drawn. -/
def footerStyle : String :=
  "flex justify-center gap-6 text-[10px] font-mono uppercase tracking-widest text-gray-500"

/-- The footer. -/
def footer {α : Type} : Node α :=
  .styled "footer" "py-4 text-center border-t border-white/5"
    [.styled "div" footerStyle
      [outwardLink "https://listenbrainz.org" "[ ListenBrainz ]",
       outwardLink "https://listenbrainz.org/settings/" "[ Get your user token ]"]]

/-! ## The bar -/

/-- How the sign of the program is drawn. -/
def signStyle : String :=
  "w-10 h-10 bg-pin-accent rounded-sm flex items-center justify-center " ++
    "group-hover:-rotate-12 transition-transform"

/-- The pin in the sign of the program. -/
def pinIcon {α : Type} : Node α :=
  .element "svg"
    [.own "class" "w-6 h-6 text-white", .own "fill" "none", .own "stroke" "currentColor",
     .own "viewBox" "0 0 24 24"] []
    [.element "path"
      [.own "stroke-linecap" "round", .own "stroke-linejoin" "round", .own "stroke-width" "2",
       .own "d" "M5 5a2 2 0 012-2h10a2 2 0 012 2v16l-7-3.5L5 21V5z"] [] []]

/-- How the links in the bar are drawn. -/
def barStyle : String :=
  "flex items-center gap-8 bg-pin-panel/50 px-6 py-2 rounded-full border border-white/5"

/-- The bar with its links. -/
def bar {α : Type} (links : List (Node α)) : Node α :=
  .styled "header" "flex justify-between items-center py-6 border-b border-white/5"
    [.styled "div" "flex items-center gap-3 group cursor-default"
      [.styled "div" signStyle [pinIcon],
       .styled "h1" "text-2xl font-bold tracking-tighter uppercase text-white"
        [.own programName]],
     .styled "nav" barStyle links]

/-! ## The frame -/

/-- How the frame is drawn. -/
def frameStyle : String :=
  "relative z-10 flex flex-col h-screen max-w-5xl mx-auto px-4 sm:px-6 lg:px-8"

/-- The frame around what a page shows. -/
def frame {α : Type} (dismiss : UInt64 → α) (log : AlertLog) (content : List (Node α)) :
    List (Node α) :=
  [.styled "div" frameStyle (content ++ [footer]), alertStack dismiss log]

end PinBoard.View
