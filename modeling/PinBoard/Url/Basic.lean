import PinBoard.Text.Percent

/-!
# Addresses

An address with a hierarchical path: its parts in the form in which they are written. A path is
kept as its segments, so the root is one empty segment.
-/

namespace PinBoard

/-- An address, part by part, each as it is written. -/
structure Url where
  scheme : String
  username : String
  password : Option String
  host : Option String
  port : Option Nat
  path : List String
  query : Option String
  fragment : Option String
  deriving DecidableEq, Repr

namespace Url

/-! ## Schemes -/

/-- The port that a scheme stands for. -/
def defaultPort (scheme : String) : Option Nat :=
  match scheme with
  | "http" | "ws" => some 80
  | "https" | "wss" => some 443
  | "ftp" => some 21
  | _ => none

/-- A scheme whose addresses always name a host, with a backslash as good as a slash. -/
def isSpecialScheme (scheme : String) : Bool :=
  scheme = "file" || (defaultPort scheme).isSome

/-! ## Which characters are encoded where -/

/-- Encoded in a fragment. -/
def isEncodedInFragment (c : Char) : Bool :=
  c = ' ' || c = '"' || c = '<' || c = '>' || c = '`'

/-- Encoded in a query. -/
def isEncodedInQuery (special : Bool) (c : Char) : Bool :=
  c = ' ' || c = '"' || c = '#' || c = '<' || c = '>' || (special && c = '\'')

/-- Encoded in a path. -/
def isEncodedInPath (c : Char) : Bool :=
  isEncodedInFragment c || c = '#' || c = '?' || c = '\x7b' || c = '\x7d'

/-- Encoded in a segment that is added to a path. -/
def isEncodedInSegment (special : Bool) (c : Char) : Bool :=
  isEncodedInPath c || c = '/' || c = '%' || (special && c = '\\')

/-- Encoded in the name and the password of a user. -/
def isEncodedInUser (c : Char) : Bool :=
  isEncodedInPath c || ['/', ':', ';', '=', '@', '[', '\\', ']', '^', '|'].contains c

/-! ## Written form -/

/-- The name and the password of a user in front of a host. -/
def userText (u : Url) : String :=
  match u.username, u.password with
  | "", none => ""
  | name, none => name ++ "@"
  | name, some password => name ++ ":" ++ password ++ "@"

/-- The host with all that belongs to it. -/
def authorityText (u : Url) : String :=
  match u.host with
  | none => ""
  | some host =>
    "//" ++ u.userText ++ host ++ ((u.port.map fun p => ":" ++ toString p).getD "")

/-- The path. Without a host a path that begins with an empty segment is marked, so that it is not
taken for a host. -/
def pathText (u : Url) : String :=
  let path := String.join (u.path.map ("/" ++ ·))
  if u.host.isNone && u.path.head? = some "" && 1 < u.path.length then "/." ++ path else path

/-- The written form of an address. -/
def toText (u : Url) : String :=
  u.scheme ++ ":" ++ u.authorityText ++ u.pathText ++
    ((u.query.map ("?" ++ ·)).getD "") ++ ((u.fragment.map ("#" ++ ·)).getD "")

end Url

end PinBoard
