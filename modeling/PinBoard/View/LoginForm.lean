import PinBoard.LoginForm
import PinBoard.View.Button

/-!
# The view of the login form

A field for the token, where a token is to be had, what went wrong last, and the button.
-/

namespace PinBoard.View

/-- The name of the program. -/
def programName : String := "PinBeet"

/-- How the panel of the form is drawn. -/
def loginPanelStyle : String :=
  "p-8 bg-pin-panel border border-white/10 rounded-lg shadow-2xl w-full max-w-md relative z-10"

/-- How the field for the token is drawn. -/
def tokenFieldStyle : String :=
  "w-full bg-pin-dark border border-white/10 rounded p-3 text-white focus:outline-none " ++
    "focus:border-pin-accent transition-all font-mono"

/-- How the button is drawn. -/
def loginButtonStyle : String :=
  "w-full bg-pin-leaf hover:bg-pin-leaf/80 text-white font-bold py-3 rounded transition-colors " ++
    "cursor-pointer"

/-- How the error is drawn. -/
def loginErrorStyle : String :=
  "p-3 bg-red-500/10 border border-red-500/50 rounded text-red-400 text-sm font-mono"

/-- The heading of the form. -/
def loginHeading {α : Type} : Node α :=
  .styled "div" "flex flex-col items-center mb-8"
    [.styled "h1" "text-2xl font-bold tracking-tighter uppercase text-white" [.own programName],
     .styled "p" "text-sm text-pin-leaf font-mono mt-2 tracking-widest"
       [.own "PIN WHAT YOU LOVE"]]

/-- The field for the token; the Enter key submits it. -/
def tokenField {α : Type} (act : LoginForm.Action → α) (token : String) : Node α :=
  .element "input"
    [.own "class" tokenFieldStyle, .given "value" token, .own "type" "password",
     .own "placeholder" "Paste your user token"]
    [.input fun token => act (.type token), .key "Enter" (act .submit)] []

/-- Where a token is to be had. -/
def tokenHint {α : Type} : Node α :=
  .styled "p" "text-xs text-gray-500 mt-2"
    [.own "Find it on ",
     .element "a"
       [.own "class" "underline hover:text-pin-accent",
        .own "href" "https://listenbrainz.org/settings/", .own "target" "_blank"] []
       [.own "your ListenBrainz settings page"],
     .own "."]

/-- What went wrong. -/
def loginError {α : Type} (error : String) : List (Node α) :=
  if error.isEmpty then [] else [.styled "div" loginErrorStyle [.given error]]

/-- The button that submits the token. -/
def loginButton {α : Type} (act : LoginForm.Action → α) (pending : Bool) : Node α :=
  .element "button"
    (.own "class" loginButtonStyle :: disabledFlag pending)
    [.click (some (act .submit))] [.own (if pending then "CHECKING TOKEN..." else "LOG IN")]

/-- The login form. -/
def loginForm {α : Type} (act : LoginForm.Action → α) (f : LoginForm) : Node α :=
  .styled "div" "flex flex-col items-center justify-center min-h-screen text-white"
    [.styled "div" loginPanelStyle
      [loginHeading,
       .styled "div" "space-y-6"
        (.element "div" [] []
          [.styled "label" "block text-xs font-mono text-gray-400 mb-1 uppercase tracking-wider"
            [.own "ListenBrainz user token"],
           tokenField act f.token,
           tokenHint] ::
         (loginError f.error ++ [loginButton act f.pending]))]]

end PinBoard.View
