import PinBoard.Url.Basic

/-!
# Extending an address

Segments and a query pair are added to an address that has been read. A segment is encoded as a
whole, so nothing in it can end it; tabs and line breaks are dropped, and `.` and `..` add
nothing.
-/

namespace PinBoard.Url

/-! ## Segments -/

/-- A tab or a line break, which no address contains. -/
def isIgnored (c : Char) : Bool :=
  c = '\t' || c = '\n' || c = '\r'

/-- The written form of a segment. -/
def segmentText (special : Bool) (s : String) : String :=
  String.ofList
    (Text.percentEncode (isEncodedInSegment special) (s.toList.filter fun c => !isIgnored c))

/-- A path without the empty segment at its end. -/
def dropEmptyEnd (path : List String) : List String :=
  if path.getLast? = some "" then path.dropLast else path

/-- A path with the place of a new segment made at its end: the root's empty segment gives way. -/
def openPath (path : List String) : List String :=
  if path = [""] then [] else path

/-- Adds a written segment. One that has become `..` by the loss of its tabs takes the segment
before it away, and one that has become `.` is empty. -/
def addWritten (path : List String) (segment : String) : List String :=
  if segment = ".." then (openPath path).dropLast ++ [""]
  else if segment = "." then openPath path ++ [""]
  else openPath path ++ [segment]

/-- Adds a segment to a path; `.` and `..` add nothing. -/
def addSegment (special : Bool) (path : List String) (s : String) : List String :=
  if s = "." || s = ".." then path else addWritten path (segmentText special s)

/-- Adds segments to the path of an address, in place of an empty one at its end. -/
def extend (u : Url) (segments : List String) : Url :=
  { u with
    path := segments.foldl (addSegment (isSpecialScheme u.scheme)) (dropEmptyEnd u.path) }

/-! ## Users -/

/-- The address without the name and the password of a user. They stay where the name does not
stand for a text. -/
def withoutUser (u : Url) : Url :=
  if u.host.isSome && (Text.percentDecode? u.username).isSome then
    { u with username := "", password := none }
  else u

/-! ## Queries -/

/-- Adds a pair to the query of an address. Neither part may hold a character that needs
encoding. -/
def addPair (u : Url) (name value : String) : Url :=
  let pair := name ++ "=" ++ value
  { u with
    query := some (match u.query with
      | none => pair
      | some "" => pair
      | some query => query ++ "&" ++ pair) }

end PinBoard.Url
