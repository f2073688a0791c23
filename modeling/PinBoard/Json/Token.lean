import PinBoard.Json.Tree
import PinBoard.Text.Utf8

/-!
# Tokens

Cuts a text into brackets, separators and leaves. The text is a list of characters in which
`none` marks bytes that are not UTF-8; such a mark spoils a string only for a reader who wants its
characters. The walk takes one symbol at a time and carries what it is inside of.
-/

namespace PinBoard.Json

/-- A text whose undecodable stretches are kept as `none`. -/
abbrev Source := List (Option Char)

/-- The source of a string. -/
def Source.ofString (s : String) : Source :=
  s.toList.map some

/-- The source of a sequence of bytes. -/
def Source.ofBytes (bytes : List UInt8) : Source :=
  Text.Utf8.decode bytes

/-! ## Tokens -/

/-- A piece of a text. -/
inductive Token where
  | openList
  | closeList
  | openObject
  | closeObject
  | comma
  | colon
  | null
  | bool (value : Bool)
  | number (spelling : Numeral)
  | string (text : Text)
  | broken (fault : Fault)

/-! ## Strings -/

/-- Where in an escape a string stands. -/
inductive Escape where
  /-- Outside of every escape. -/
  | outside
  /-- Behind a backslash. -/
  | begun
  /-- Inside four hexadecimal digits: how many are missing, and the number so far. -/
  | hex (missing : Nat) (value : Nat)
  /-- Behind a high surrogate, where a second escape has to begin. -/
  | high (value : Nat)
  /-- Behind a high surrogate and a backslash. -/
  | highBegun (value : Nat)
  /-- Inside the digits of the second escape. -/
  | low (high : Nat) (missing : Nat) (value : Nat)

/-- A string under way: its characters so far, latest first, the first reason why they cannot be
taken, and the escape it stands in. -/
structure Quote where
  taken : List (Option Char)
  spoilt : Option Error
  escape : Escape

/-- A string that has just begun. -/
def Quote.start : Quote := ⟨[], none, .outside⟩

/-- Takes a character. -/
def Quote.take (q : Quote) (c : Option Char) : Quote :=
  ⟨c :: q.taken, q.spoilt, .outside⟩

/-- Notes why the characters cannot be taken, unless a reason is known already. -/
def Quote.spoil (q : Quote) (e : Error) (escape : Escape) : Quote :=
  ⟨q.taken, q.spoilt.or (some e), escape⟩

/-- The string at its closing quote. -/
def Quote.text (q : Quote) : Text :=
  match q.spoilt, q.taken.reverse.mapM id with
  | some e, _ => .error e
  | none, some cs => .ok (String.ofList cs)
  | none, none => .error .notUnicode

/-- The string where it breaks off. -/
def Quote.fault (q : Quote) (e : Error) : Fault :=
  .string (q.spoilt.getD e) e

/-- The value of a hexadecimal digit. -/
def hexValue? (c : Char) : Option Nat :=
  if '0' ≤ c && c ≤ '9' then some (c.toNat - '0'.toNat)
  else if 'a' ≤ c && c ≤ 'f' then some (c.toNat - 'a'.toNat + 10)
  else if 'A' ≤ c && c ≤ 'F' then some (c.toNat - 'A'.toNat + 10)
  else none

/-- The character of a one-letter escape. -/
def escaped? : Char → Option Char
  | '"' => some '"'
  | '\\' => some '\\'
  | '/' => some '/'
  | 'b' => some '\x08'
  | 'f' => some '\x0c'
  | 'n' => some '\n'
  | 'r' => some '\r'
  | 't' => some '\t'
  | _ => none

/-- Ends a first group of four digits. -/
def Quote.endHex (q : Quote) (n : Nat) : Quote :=
  if 0xDC00 ≤ n && n ≤ 0xDFFF then q.spoil .loneSurrogate .outside
  else if 0xD800 ≤ n && n ≤ 0xDBFF then { q with escape := .high n }
  else q.take (some (Char.ofNat n))

/-- Ends the group of four digits behind a high surrogate. -/
def Quote.endLow (q : Quote) (high n : Nat) : Quote :=
  if 0xDC00 ≤ n && n ≤ 0xDFFF then
    q.take (some (Char.ofNat (0x10000 + (high - 0xD800) * 0x400 + (n - 0xDC00))))
  else q.spoil .loneSurrogate .outside

/-- What a symbol does to a string: it goes on, it ends, or it breaks. -/
inductive Quote.Step where
  | on (q : Quote)
  | ends (text : Text)
  | breaks (fault : Fault)

/-- A symbol outside of every escape. -/
def Quote.plain (q : Quote) : Option Char → Quote.Step
  | some '"' => .ends q.text
  | some '\\' => .on { q with escape := .begun }
  | some c => if c.toNat < 0x20 then .breaks (q.fault .controlCharacter) else .on (q.take (some c))
  | none => .on (q.take none)

/-- A symbol behind a backslash. -/
def Quote.behindBackslash (q : Quote) : Option Char → Quote.Step
  | some 'u' => .on { q with escape := .hex 4 0 }
  | some c =>
    match escaped? c with
    | some d => .on (q.take (some d))
    | none => .breaks (q.fault .invalidEscape)
  | none => .breaks (q.fault .invalidEscape)

/-- The number of bytes of a text; an undecodable stretch counts as one. -/
def bytesOf : Source → Nat
  | [] => 0
  | c :: rest => (c.map Char.utf8Size).getD 1 + bytesOf rest

/-- A symbol that is no hexadecimal digit where `missing` digits are due: the escape is wrong if
enough bytes follow to fill it, otherwise the text ends in it. -/
def Quote.noDigit (q : Quote) (missing : Nat) (s : Source) : Quote.Step :=
  .breaks (q.fault (if missing ≤ bytesOf s then .invalidEscape else .eofString))

/-- A digit inside a group of four: `go` tells how the group goes on, `done` how it ends. -/
def Quote.digit (q : Quote) (missing value : Nat) (s : Source)
    (go : Nat → Nat → Quote) (done : Nat → Quote) : Quote.Step :=
  match s with
  | some c :: _ =>
    match hexValue? c with
    | none => q.noDigit missing s
    | some d =>
      let value := value * 16 + d
      if missing ≤ 1 then .on (done value) else .on (go (missing - 1) value)
  | _ => q.noDigit missing s

/-- What the first symbol of a text does to a string. -/
def Quote.step (q : Quote) (c : Option Char) (rest : Source) : Quote.Step :=
  match q.escape with
  | .outside => q.plain c
  | .begun => q.behindBackslash c
  | .hex missing value =>
    q.digit missing value (c :: rest) (fun m v => { q with escape := .hex m v }) q.endHex
  | .high value =>
    if c = some '\\' then .on { q with escape := .highBegun value }
    else (q.spoil .unfinishedSurrogate .outside).plain c
  | .highBegun value =>
    if c = some 'u' then .on { q with escape := .low value 4 0 }
    else (q.spoil .unfinishedSurrogate .begun).behindBackslash c
  | .low high missing value =>
    q.digit missing value (c :: rest) (fun m v => { q with escape := .low high m v })
      (q.endLow high)

/-! ## Numbers -/

/-- Where in a numeral a number stands. -/
inductive NumberPlace where
  | sign
  | zero
  | whole
  | point
  | fraction
  | mark
  | markSign
  | exponent

/-- A number under way. -/
structure Count where
  place : NumberPlace
  negative : Bool
  whole : List Char
  fraction : List Char
  exponentNegative : Bool
  exponent : List Char

/-- A number that begins with a sign or a digit. -/
def Count.start (c : Char) : Count :=
  if c = '-' then ⟨.sign, true, [], [], false, []⟩
  else ⟨if c = '0' then .zero else .whole, false, [c], [], false, []⟩

/-- The numeral of a number that is complete; digits were collected latest first. -/
def Count.numeral (n : Count) : Numeral :=
  let fraction := match n.place with
    | .zero | .whole => none
    | _ => if n.fraction.isEmpty then none else some n.fraction.reverse
  let exponent := match n.place with
    | .exponent => some (n.exponentNegative, n.exponent.reverse)
    | _ => none
  ⟨n.negative, n.whole.reverse, fraction, exponent⟩

/-- What a symbol does to a number: it goes on, it is complete before the symbol, or it
breaks. -/
inductive Count.Step where
  | on (n : Count)
  | complete
  | breaks (fault : Fault)

/-- A digit. -/
def isDigit (c : Char) : Bool :=
  '0' ≤ c && c ≤ '9'

/-- A number that is wrong whoever looks at it. -/
def wrongNumber : Fault :=
  .number .invalidNumber .invalidNumber

/-- What a symbol does behind the digits of a number. -/
def Count.behindDigits (n : Count) (c : Char) : Count.Step :=
  if c = '.' && n.fraction.isEmpty then .on { n with place := .point }
  else if c = 'e' || c = 'E' then .on { n with place := .mark }
  else .complete

/-- What a character does to a number. -/
def Count.charStep (n : Count) (c : Char) : Count.Step :=
  match n.place with
  | .sign =>
    if isDigit c then
      .on { n with place := if c = '0' then .zero else .whole, whole := [c] }
    else .breaks wrongNumber
  | .zero => if isDigit c then .breaks wrongNumber else n.behindDigits c
  | .whole => if isDigit c then .on { n with whole := c :: n.whole } else n.behindDigits c
  | .point =>
    if isDigit c then .on { n with place := .fraction, fraction := [c] }
    else .breaks wrongNumber
  | .fraction =>
    if isDigit c then .on { n with fraction := c :: n.fraction }
    else n.behindDigits c
  | .mark =>
    if c = '+' then .on { n with place := .markSign }
    else if c = '-' then .on { n with place := .markSign, exponentNegative := true }
    else if isDigit c then .on { n with place := .exponent, exponent := [c] }
    else .breaks wrongNumber
  | .markSign =>
    if isDigit c then .on { n with place := .exponent, exponent := [c] }
    else .breaks wrongNumber
  | .exponent => if isDigit c then .on { n with exponent := c :: n.exponent } else .complete

/-- What a symbol does to a number. -/
def Count.step (n : Count) : Option Char → Count.Step
  | some c => n.charStep c
  | none =>
    match n.place with
    | .zero | .whole | .fraction | .exponent => .complete
    | _ => .breaks wrongNumber

/-- What the end of the text makes of a number: one that lacks digits looks unfinished to a reader
and wrong to one who passes over it. -/
def Count.atEnd (n : Count) : Token :=
  match n.place with
  | .zero | .whole | .fraction | .exponent => .number n.numeral
  | _ => .broken (.number .eofValue .invalidNumber)

/-! ## The walk -/

/-- What a walk over a text is inside of. -/
inductive Inside where
  | nothing
  | quote (q : Quote)
  | number (n : Count)
  /-- A literal: the letter that is due, those behind it, and what they spell. -/
  | word (next : Char) (due : List Char) (token : Token)

/-- The blanks between tokens. -/
def isSpace (c : Char) : Bool :=
  c = ' ' || c = '\n' || c = '\t' || c = '\r'

/-- What a step of the walk gives: tokens, and where it goes on unless a fault stopped it. -/
abbrev Walked := List Token × Option Inside

/-- A fault stops the walk: nothing behind it is looked at. -/
def stop (fault : Fault) : Walked :=
  ([.broken fault], none)

/-- A character outside of every leaf. -/
def openingStep (c : Char) : Walked :=
  if isSpace c then ([], some .nothing)
  else if c = '[' then ([.openList], some .nothing)
  else if c = ']' then ([.closeList], some .nothing)
  else if c = '\x7b' then ([.openObject], some .nothing)
  else if c = '\x7d' then ([.closeObject], some .nothing)
  else if c = ',' then ([.comma], some .nothing)
  else if c = ':' then ([.colon], some .nothing)
  else if c = '"' then ([], some (.quote Quote.start))
  else if c = 'n' then ([], some (.word 'u' ['l', 'l'] .null))
  else if c = 't' then ([], some (.word 'r' ['u', 'e'] (.bool true)))
  else if c = 'f' then ([], some (.word 'a' ['l', 's', 'e'] (.bool false)))
  else if c = '-' || isDigit c then ([], some (.number (Count.start c)))
  else stop .foreign

/-- A symbol outside of every leaf. -/
def outsideStep : Option Char → Walked
  | some c => openingStep c
  | none => stop .foreign

/-- A symbol inside of `i`, with `rest` behind it. A number ends before the symbol that follows
it, which is then looked at afresh. -/
def walkStep (i : Inside) (c : Option Char) (rest : Source) : Walked :=
  match i with
  | .nothing => outsideStep c
  | .quote q =>
    match q.step c rest with
    | .on q => ([], some (.quote q))
    | .ends text => ([.string text], some .nothing)
    | .breaks fault => stop fault
  | .word next due token =>
    if c = some next then
      match due with
      | [] => ([token], some .nothing)
      | d :: due => ([], some (.word d due token))
    else stop (.word .expectedIdent)
  | .number n =>
    match n.step c with
    | .on n => ([], some (.number n))
    | .breaks fault => stop fault
    | .complete =>
      let (out, next) := outsideStep c
      (.number n.numeral :: out, next)

/-- What the end of the text makes of what the walk is inside of. -/
def walkEnd : Inside → List Token
  | .nothing => []
  | .quote q => [.broken (q.fault .eofString)]
  | .word _ _ _ => [.broken (.word .eofValue)]
  | .number n => [n.atEnd]

/-- The tokens of the rest of a text that stands inside of `i`. -/
def tokensFrom (i : Inside) : Source → List Token
  | [] => walkEnd i
  | c :: rest =>
    match walkStep i c rest with
    | (out, some next) => out ++ tokensFrom next rest
    | (out, none) => out

/-- The tokens of a text, up to the first fault. -/
def tokens (s : Source) : List Token :=
  tokensFrom .nothing s

end PinBoard.Json
