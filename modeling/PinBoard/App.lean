import PinBoard.LoginForm
import PinBoard.Profile
import PinBoard.Route

/-!
# The program in the browser

A path, the page it leads to, and what the pages share. Something a viewer does takes effect at
once; then everything settles: what a page is about is asked for, and who may not be on a page is
led to another one.
-/

namespace PinBoard

/-- The page that is up. -/
inductive Content where
  | login (f : LoginForm)
  | home
  | profile (p : Profile)

/-- The program. -/
structure App where
  browser : Browser
  path : String
  content : Content

/-! ## Paths and pages -/

/-- The place that a path leads to; one that leads nowhere is taken for the home page. -/
def placeOf (path : String) : Route :=
  match Route.ofPath path with
  | .ok r => r
  | .error _ => .home

/-- The page of a place. A page that is up already stays up. -/
def Content.turnTo (c : Content) : Route → Content
  | .login =>
    match c with
    | .login f => .login f
    | _ => .login .empty
  | .home => .home
  | .profile userName =>
    match c with
    | .profile p => .profile (p.turnTo userName)
    | _ => .profile (.fresh userName)

namespace App

/-- Goes to a path, which is taken as it is printed. The history of a browser may bring it into
another form first: segments of one or two dots are resolved there, and backslashes become
slashes. -/
def goTo (a : App) (path : String) : App :=
  { a with path := path, content := a.content.turnTo (placeOf path) }

/-- The path that somebody is led to: without a session the login page, with one a profile, which
is the user's own unless another one was asked for. -/
def destination (auth : Auth) (path : String) : String :=
  match auth, placeOf path with
  | none, .login => path
  | none, _ => Route.path .login
  | some _, .profile _ => path
  | some account, _ => Route.path (.profile account.userName)

/-- Leads whoever is not on a page of theirs to one. -/
def redirect (a : App) : App :=
  let path := destination a.browser.auth a.path
  if path = a.path then a else a.goTo path

/-- Asks for what the page is about. -/
def load (a : App) (s : Surroundings) : App :=
  match a.content with
  | .profile p =>
    let (p, b) := p.load a.browser s
    { a with browser := b, content := .profile p }
  | _ => a

/-- Lets everything settle. A page that was up for a moment only has asked already, and what is
answered may end the session. -/
def settle (a : App) (s : Surroundings) : App :=
  ((((a.load s).redirect).load s).redirect)

/-- Starts the program at a path: the page is up and who is logged in is known. -/
def start (s : Surroundings) (jar : Option Jar) (path : String) : App :=
  (⟨(Browser.fresh jar).lookUp s, path, .home⟩ : App).goTo path

/-! ## Acting -/

/-- What a viewer does. -/
inductive Action where
  | login (a : LoginForm.Action)
  | goTo (path : String)
  | logOut
  | dismiss (id : UInt64)
  | profile (a : Profile.Action)
  deriving DecidableEq, Repr

/-- What comes of something a viewer does to the login form. -/
def actLogin (a : App) (s : Surroundings) (f : LoginForm) : LoginForm.Action → App
  | .type token => { a with content := .login (f.type token) }
  | .submit =>
    match f.submit? with
    | none => a
    | some (f, token) =>
      let (result, b) := a.browser.logIn s token
      { a with browser := b, content := .login (f.settle result) }

/-- What comes at once of something a viewer does; what is not on the page that is up cannot be
done. -/
def act (a : App) (s : Surroundings) : Action → App
  | .login action =>
    match a.content with
    | .login f => a.actLogin s f action
    | _ => a
  | .goTo path => a.goTo path
  | .logOut => { a with browser := a.browser.logOut s }
  | .dismiss id => { a with browser := a.browser.dismiss id }
  | .profile action =>
    match a.content with
    | .profile p =>
      let (p, b) := p.act a.browser s action
      { a with browser := b, content := .profile p }
    | _ => a

end App

end PinBoard
