import PinBoard.Text.Quoted
import PinBoard.Url.Basic

/-!
# Routes

The pages of the program and the paths under which they are found. A path is taken apart into
segments, which each page in turn is asked to match; the first that does is the one.
-/

namespace PinBoard

/-! ## Pages and places -/

/-- The pages. -/
inductive Page where
  | login
  | home
  | profile
  deriving DecidableEq, Repr

/-- A place in the program: a page and what it is about. -/
inductive Route where
  | login
  | home
  | profile (userName : String)
  deriving DecidableEq, Repr

/-- The name of a page in messages. -/
def Page.name : Page → String
  | .login => "LoginPage"
  | .home => "HomePage"
  | .profile => "ProfilePage"

/-- The pattern of a page's paths in messages. -/
def Page.pattern : Page → String
  | .login => "/login"
  | .home => "/"
  | .profile => "/user/:user_name"

/-- The page of a place. -/
def Route.page : Route → Page
  | .login => .login
  | .home => .home
  | .profile _ => .profile

/-- The path of a place. The name of a user may hold slashes, which are not encoded. -/
def Route.path : Route → String
  | .login => "/login"
  | .home => "/"
  | .profile userName =>
    "/user/" ++ String.ofList (Text.percentEncode Url.isEncodedInPath userName.toList)

/-- A place in words. -/
def Route.description (r : Route) : String :=
  match r with
  | .profile userName =>
    r.page.name ++ " \x7b user_name: " ++ Text.quoted userName ++ " \x7d"
  | _ => r.page.name

/-! ## Matching segments -/

/-- Why a page does not match. -/
inductive Mismatch where
  | word (expected found : String)
  | missing (field : String)
  | trailing (segments : List String)
  deriving DecidableEq, Repr

/-- The wording of a mismatch. -/
def Mismatch.message : Mismatch → String
  | .word expected found =>
    "Static segment '" ++ expected ++ "' did not match instead found '" ++ found ++ "'"
  | .missing field => "Dynamic segment '(" ++ field ++ ")' was missing"
  | .trailing segments => "Found additional trailing segments: " ++ "/".intercalate segments

/-- What segments are matched with. -/
abbrev Matcher := List String → Except Mismatch Route

/-- Matches a given word. -/
def Matcher.word (expected : String) (next : Matcher) : Matcher
  | [] => .error (.word expected "")
  | s :: rest => if s = expected then next rest else .error (.word expected s)

/-- Matches any segment. -/
def Matcher.field (field : String) (next : String → Matcher) : Matcher
  | [] => .error (.missing field)
  | s :: rest => next s rest

/-- Matches the end. -/
def Matcher.stop (r : Route) : Matcher
  | [] => .ok r
  | segments => .error (.trailing segments)

/-- What a page matches. -/
def Page.matcher : Page → Matcher
  | .login => .word "login" (.stop .login)
  | .home => .stop .home
  | .profile => .word "user" (.field "user_name:String" fun userName => .stop (.profile userName))

/-! ## Paths -/

/-- Why a path leads nowhere. -/
inductive Route.Error where
  /-- It does not begin with a slash. -/
  | relative
  /-- No page matches its segments. -/
  | unmatched (mismatches : List (Page × Mismatch))
  deriving DecidableEq, Repr

/-- The pages in the order in which they are asked. -/
def Page.all : List Page := [.login, .home, .profile]

/-- The wording of one page's mismatch, which is numbered. -/
def mismatchText (number : Nat) (page : Page) (m : Mismatch) : String :=
  toString number ++ ") Route '" ++ page.name ++ "' ('" ++ page.pattern ++
    "') did not match:\n" ++ m.message ++ "\n"

/-- The mismatches of an error. -/
def Route.Error.mismatches : Route.Error → List (Page × Mismatch)
  | .relative => []
  | .unmatched mismatches => mismatches

/-- The wording of an error. -/
def Route.Error.message (e : Route.Error) : String :=
  "Route did not match:\nAttempted Matches:\n" ++
    String.join (e.mismatches.zipIdx.map fun ((page, m), i) => mismatchText (i + 1) page m)

/-- The part of a path in front of a query or a fragment. -/
def pathOnly (cs : List Char) : List Char :=
  cs.takeWhile fun c => c ≠ '?' && c ≠ '#'

/-- A text without a slash at its end. -/
def dropSlash (cs : List Char) : List Char :=
  if cs.getLast? = some '/' then cs.dropLast else cs

/-- The text of a segment, which stays as it is unless it can be decoded. -/
def segmentOfChars (cs : List Char) : String :=
  let s := String.ofList cs
  (Text.percentDecode? s).getD s

/-- The segments of a path; none if it does not begin with a slash. -/
def segments? (path : String) : Option (List String) :=
  match pathOnly path.toList with
  | '/' :: rest =>
    some (((dropSlash ('/' :: rest)).splitOn '/').tail.map segmentOfChars)
  | _ => none

/-- The first page that matches, or why none does. -/
def firstMatch (segments : List String) :
    List Page → Except (List (Page × Mismatch)) Route
  | [] => .error []
  | page :: rest =>
    match page.matcher segments with
    | .ok r => .ok r
    | .error m => (firstMatch segments rest).mapError ((page, m) :: ·)

/-- The place that a path leads to. -/
def Route.ofPath (path : String) : Except Route.Error Route :=
  match segments? path with
  | none => .error .relative
  | some segments => (firstMatch segments Page.all).mapError .unmatched

end PinBoard
