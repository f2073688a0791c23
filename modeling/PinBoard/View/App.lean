import PinBoard.App
import PinBoard.View.Frame
import PinBoard.View.Profile

/-!
# The view of the program

The login page stands alone; the other pages stand in the frame, with a link to the profile of the
user in the bar.
-/

namespace PinBoard.View

/-- How the link in the bar is drawn. -/
def profileLinkStyle : String :=
  "nav-link text-white font-medium border-b-2 border-transparent hover:border-pin-accent pb-0.5"

/-- How the button that logs out is drawn. -/
def logOutStyle : String :=
  "nav-link text-red-400 hover:text-red-300 text-xs uppercase tracking-widest font-mono " ++
    "cursor-pointer"

/-- How the room for the page is drawn. -/
def mainStyle : String :=
  "px-4 sm:px-6 lg:px-8 flex-grow flex flex-col relative overflow-y-auto w-full py-8"

/-- The link to the profile of the user; it is marked on that very page. -/
def profileLink (path userName : String) : Node App.Action :=
  let href := Route.path (.profile userName)
  if href = path then
    .element "a"
      [.given "href" href, .own "class" (profileLinkStyle ++ " border-pin-accent"),
       .own "aria-current" "page"]
      [.follow (.goTo href)] [.given userName]
  else
    .element "a" [.given "href" href, .own "class" profileLinkStyle] [.follow (.goTo href)]
      [.given userName]

/-- What is in the bar. -/
def barLinks (path : String) (auth : Auth) : List (Node App.Action) :=
  (auth.userName.map (profileLink path)).toList ++
    [.styled "div" "h-4 w-px bg-white/10" [],
     .element "button" [.own "class" logOutStyle] [.click (some .logOut)] [.own "Logout"]]

/-- A page in the frame. -/
def framed (a : App) (page : List (Node App.Action)) : List (Node App.Action) :=
  frame .dismiss a.browser.log
    [bar (barLinks a.path a.browser.auth), .styled "main" mainStyle page]

/-- The program at a given second. -/
def app (now : Int64) (a : App) : List (Node App.Action) :=
  match a.content with
  | .login f => [loginForm .login f]
  | .home => framed a []
  | .profile p => framed a [profile .profile now (p.isOwn a.browser) p]

end PinBoard.View
