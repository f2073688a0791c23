import PinBoard.Url.Domain
import PinBoard.Url.Error
import PinBoard.Url.Ipv6
import PinBoard.Url.Segment

/-!
# Reading addresses

Reads an address that stands on its own. One whose path is no hierarchy, such as that of a mail
address, is an address all right but has nothing that could be extended.
-/

namespace PinBoard.Url

/-! ## Pieces -/

/-- What stands before the first character that meets a condition, and the rest from there on. -/
def cutAt (stop : Char → Bool) (cs : List Char) : List Char × List Char :=
  (cs.takeWhile (!stop ·), cs.dropWhile (!stop ·))

/-- A character at which the part of an address that names the host ends. -/
def endsAuthority (special : Bool) (c : Char) : Bool :=
  c = '/' || c = '?' || c = '#' || (special && c = '\\')

/-- A character that separates the segments of a path. -/
def isSlash (special : Bool) (c : Char) : Bool :=
  c = '/' || (special && c = '\\')

/-- Takes blanks and controls off both ends of a text and ignored characters out of it. -/
def clean (s : String) : List Char :=
  let isEdge (c : Char) : Bool := c.toNat ≤ 0x20
  let cs := s.toList.dropWhile isEdge
  (cs.reverse.dropWhile isEdge).reverse.filter fun c => !isIgnored c

/-- A character that a scheme may have behind its first letter. -/
def isSchemeChar (c : Char) : Bool :=
  c.isAlphanum || c = '+' || c = '-' || c = '.'

/-- The scheme in front of a colon, in lower case, and what follows the colon. -/
def scheme? (cs : List Char) : Option (String × List Char) :=
  match cutAt (· = ':') cs with
  | (first :: more, ':' :: rest) =>
    if first.isAlpha && more.all isSchemeChar then
      some (String.ofList ((first :: more).map Char.toLower), rest)
    else none
  | _ => none

/-! ## Users -/

/-- The name and the password of a user, as they are written. -/
structure User where
  name : String
  password : Option String

/-- Reads the name and the password of a user. -/
def User.ofChars (cs : List Char) : User :=
  let (name, behind) := cutAt (· = ':') cs
  let encode (cs : List Char) : String := String.ofList (Text.percentEncode isEncodedInUser cs)
  let password := behind.drop 1
  ⟨encode name, if password.isEmpty then none else some (encode password)⟩

/-- Whether there is anything of a user. -/
def User.isNobody (u : User) : Bool :=
  u.name.isEmpty && u.password.isNone

/-- Reads the user in front of a host, and what follows. The last at sign counts; with nothing in
front of it the host has to begin behind it. -/
def cutUser (special : Bool) (cs : List Char) : Except Error (User × List Char) :=
  let (authority, rest) := cutAt (endsAuthority special) cs
  if authority.contains '@' then
    let behind := (authority.reverse.takeWhile (· ≠ '@')).reverse
    let info := authority.take (authority.length - behind.length - 1)
    if info.isEmpty && behind.isEmpty && !rest.isEmpty then .error .emptyHost
    else .ok (User.ofChars info, behind ++ rest)
  else .ok (⟨"", none⟩, cs)

/-! ## Hosts -/

/-- What stands before the end of a host: a colon outside of brackets, or the end of the
authority. -/
def cutHost (special : Bool) (bracketed : Bool) : List Char → List Char × List Char
  | [] => ([], [])
  | c :: rest =>
    if (c = ':' && !bracketed) || endsAuthority special c then ([], c :: rest)
    else
      let (host, more) := cutHost special (if c = '[' then true else c ≠ ']' && bracketed) rest
      (c :: host, more)

/-- Reads an address between brackets. -/
def bracketedHost (cs : List Char) : Except Error String :=
  if 1 < cs.length && cs.getLast? = some ']' then do
    let groups ← ipv6 (cs.drop 1).dropLast
    .ok ("[" ++ ipv6Text groups ++ "]")
  else .error .ipv6

/-- A character that may not occur in a host that is no domain. -/
def isForbiddenInHost (c : Char) : Bool :=
  c.toNat = 0 ||
    [' ', '#', '/', ':', '<', '>', '?', '@', '[', '\\', ']', '^', '|'].contains c

/-- Reads a host that is no domain. -/
def opaqueHost (cs : List Char) : Except Error String :=
  if cs.head? = some '[' then bracketedHost cs
  else if cs.any isForbiddenInHost then .error .hostCharacter
  else .ok (String.ofList (Text.percentEncode (fun _ => false) cs))

/-- Reads a host that is a domain or an address. -/
def domainHost (cs : List Char) : Except Error String :=
  if cs.head? = some '[' then bracketedHost cs
  else
    match Text.percentDecode? (String.ofList cs) with
    | none => .error .domain
    | some decoded =>
      match domainToAscii? decoded.toList with
      | none => .error .domain
      | some domain =>
        if domain.isEmpty then .error .emptyHost
        else if endsInNumber domain then (ipv4 domain).map ipv4Text
        else .ok (String.ofList domain)

/-- Reads the port behind a host, and what follows. -/
def cutPort (scheme : String) : List Char → Except Error (Option Nat × List Char)
  | ':' :: cs =>
    let (digits, rest) := cutAt (fun c => !('0' ≤ c && c ≤ '9')) cs
    let value := Nat.ofDigitChars 10 digits 0
    if 65535 < value || (rest.head?.any fun c => !endsAuthority true c) then .error .port
    else .ok (if digits.isEmpty || defaultPort scheme = some value then none else some value, rest)
  | cs => .ok (none, cs)

/-! ## Paths -/

/-- The ways to write the segment that stands for the one above. -/
def doubleDots : List String :=
  ["..", "%2e%2e", "%2e%2E", "%2E%2e", "%2E%2E", "%2e.", "%2E.", ".%2e", ".%2E"]

/-- The ways to write the segment that stands for the same place. -/
def singleDots : List String := [".", "%2e", "%2E"]

/-- Cuts a text into segments. -/
def splitSegments (special : Bool) (cs : List Char) : List (List Char) :=
  cs.splitOnP (isSlash special)

/-- The written form of a segment of a path that is read. -/
def readSegment (cs : List Char) : String :=
  String.ofList (Text.percentEncode isEncodedInPath cs)

/-- Walks along a path. At its end a dot segment leaves an empty one. -/
def walk (path : List String) : List (List Char) → List String
  | [] => path
  | [last] =>
    let s := readSegment last
    if doubleDots.contains s then path.dropLast ++ [""]
    else if singleDots.contains s then path ++ [""]
    else path ++ [s]
  | piece :: rest =>
    let s := readSegment piece
    if doubleDots.contains s then walk path.dropLast rest
    else if singleDots.contains s then walk path rest
    else walk (path ++ [s]) rest

/-- Reads a path without its first slash. -/
def pathOf (special : Bool) (cs : List Char) : List String :=
  walk [] (splitSegments special cs)

/-- Reads the path behind a host. A special address always has one. -/
def pathBehindHost (special : Bool) (cs : List Char) : List String :=
  match cs with
  | [] => if special then [""] else []
  | c :: rest => if isSlash special c then pathOf special rest else pathOf special cs

/-! ## Queries and fragments -/

/-- Path, query and fragment as they stand behind each other. -/
structure Tail where
  path : List Char
  query : Option String
  fragment : Option String

/-- Takes query and fragment off a path. -/
def Tail.ofChars (special : Bool) (cs : List Char) : Tail :=
  let (front, fragment) := cutAt (· = '#') cs
  let (path, query) := cutAt (· = '?') front
  let encode (set : Char → Bool) (cs : List Char) : Option String :=
    if cs.isEmpty then none else some (String.ofList (Text.percentEncode set (cs.drop 1)))
  ⟨path, encode (isEncodedInQuery special) query, encode isEncodedInFragment fragment⟩

/-! ## Addresses of files -/

/-- A letter with a colon or a bar behind it, which names a drive. -/
def isDrive : List Char → Bool
  | [letter, mark] => letter.isAlpha && (mark = ':' || mark = '|')
  | _ => false

/-- Brings the drive at the beginning of a path to its usual form; the segments above it are out
of reach. -/
def filePath (pieces : List (List Char)) : List String :=
  match pieces.dropWhile List.isEmpty with
  | [] => [""]
  | first :: rest =>
    if isDrive first then
      let drive := String.ofList [first.headD 'C', ':']
      if rest.isEmpty then [drive] else drive :: walk [] rest
    else
      match (walk [] (first :: rest)).dropWhile String.isEmpty with
      | [] => [""]
      | path => path

/-- Reads the address of a file behind its scheme. -/
def ofFile (cs : List Char) : Except Error Url := do
  let make (host : String) (path : List Char → List String) (cs : List Char) : Url :=
    let tail := Tail.ofChars true cs
    ⟨"file", "", none, some host, none, path tail.path, tail.query, tail.fragment⟩
  let plain (cs : List Char) : List String := filePath (splitSegments true cs)
  match cs with
  | a :: b :: rest =>
    if isSlash true a && isSlash true b then
      let (name, behind) := cutAt (endsAuthority true) rest
      if name.isEmpty || isDrive name then .ok (make "" plain rest)
      else do
        let host ← domainHost name
        .ok (make (if host = "localhost" then "" else host) plain behind)
    else .ok (make "" plain cs)
  | _ => .ok (make "" plain cs)

/-! ## Addresses -/

/-- Reads an address that names a host, behind the slashes in front of it. -/
def withHost (scheme : String) (cs : List Char) : Except Error Url := do
  let special := isSpecialScheme scheme
  let (user, cs) ← cutUser special cs
  let (name, cs) := cutHost special false cs
  if name.isEmpty && (special || !user.isNobody || cs.head? = some ':') then .error .emptyHost
  else do
    let host ← if special then domainHost name else opaqueHost name
    let (port, cs) ← cutPort scheme cs
    let tail := Tail.ofChars special cs
    .ok ⟨scheme, user.name, user.password, some host, port, pathBehindHost special tail.path,
      tail.query, tail.fragment⟩

/-- Reads an address; `none` is one without a hierarchy. -/
def parse (s : String) : Except Error (Option Url) :=
  match scheme? (clean s) with
  | none => .error .relative
  | some (scheme, rest) =>
    if scheme = "file" then (ofFile rest).map some
    else if isSpecialScheme scheme then
      (withHost scheme (rest.dropWhile (isSlash true))).map some
    else
      match rest with
      | '/' :: '/' :: rest => (withHost scheme rest).map some
      | '/' :: rest =>
        let tail := Tail.ofChars false rest
        .ok (some ⟨scheme, "", none, none, none, pathOf false tail.path, tail.query,
          tail.fragment⟩)
      | _ => .ok none

end PinBoard.Url
