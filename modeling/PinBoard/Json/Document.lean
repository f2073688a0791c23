import PinBoard.Json.Token

/-!
# From tokens to a tree

Builds the tree of a text from its tokens. The walk keeps a stack of the arrays and objects that
are open; a break closes none of them, so they all end where it stands.
-/

namespace PinBoard.Json

/-! ## Open arrays and objects -/

/-- An array or object under way: what it holds so far, latest first, and for an object the key
whose value is due. -/
inductive Frame where
  | list (items : List Tree)
  | object (members : List (Text × Tree)) (key : Text)

/-- The items of an array in order, with their ending. -/
def itemsOf (latestFirst : List Tree) (ending : Items) : Items :=
  latestFirst.foldl (fun rest item => .cons item rest) ending

/-- The members of an object in order, with their ending. -/
def membersOf (latestFirst : List (Text × Tree)) (ending : Members) : Members :=
  latestFirst.foldl (fun rest member => .cons member.1 member.2 rest) ending

/-- Puts a value into an open array or object as its last, with nothing behind it. -/
def Frame.finish (value : Tree) : Frame → Tree
  | .list items => .array (itemsOf (value :: items) .ended)
  | .object members key => .object (membersOf ((key, value) :: members) .ended)

/-- The whole tree when the text breaks at `value`. -/
def breakAt (value : Tree) (stack : List Frame) : Tree :=
  stack.foldl (fun inner frame => frame.finish inner) value

/-! ## The walk -/

/-- What the walk over the tokens waits for. -/
inductive Due where
  /-- A value. -/
  | value
  /-- The first item of an array or its end. -/
  | firstItem
  /-- The first key of an object or its end. -/
  | firstKey
  /-- A key behind a comma. -/
  | nextKey (members : List (Text × Tree))
  /-- An item behind a comma. -/
  | nextItem (items : List Tree)
  /-- The colon behind a key. -/
  | colon (members : List (Text × Tree)) (key : Text)
  /-- What follows a value. -/
  | after (value : Tree)

/-- What a token does: the walk goes on, or it is over. -/
inductive Built where
  | on (due : Due) (stack : List Frame)
  | over (document : Document)

/-- The walk is over because the text breaks at `value`. -/
def Built.breaks (value : Tree) (stack : List Frame) : Built :=
  .over ⟨breakAt value stack, false⟩

/-- A token where a value is due. -/
def valueStep (stack : List Frame) : Token → Built
  | .openList => .on .firstItem stack
  | .openObject => .on .firstKey stack
  | .null => .on (.after .null) stack
  | .bool b => .on (.after (.bool b)) stack
  | .number n => .on (.after (.number n)) stack
  | .string t => .on (.after (.string t)) stack
  | .broken fault => .breaks (.broken fault) stack
  | .closeList | .closeObject | .comma | .colon => .breaks (.broken .foreign) stack

/-- The tree of a token that stands where a key is due, as far as it tells its kind. -/
def notKey : Token → Tree
  | .openList => .array .ended
  | .openObject => .object .ended
  | .null => .null
  | .bool b => .bool b
  | .number n => .number n
  | .string t => .string t
  | .broken fault => .broken fault
  | .closeList | .closeObject | .comma | .colon => .broken .foreign

/-- A token where a key is due. -/
def keyStep (members : List (Text × Tree)) (stack : List Frame) : Token → Built
  | .string key => .on (.colon members key) stack
  | token => .breaks (.object (membersOf members (.noKey (notKey token)))) stack

/-- A token behind a value inside of an open array or object. -/
def afterStep (value : Tree) (stack : List Frame) : Frame → Token → Built
  | .list items, .comma => .on (.nextItem (value :: items)) stack
  | .list items, .closeList => .on (.after (.array (itemsOf (value :: items) .closed))) stack
  | .list items, _ => .breaks (.array (itemsOf (value :: items) .foreign)) stack
  | .object members key, .comma => .on (.nextKey ((key, value) :: members)) stack
  | .object members key, .closeObject =>
    .on (.after (.object (membersOf ((key, value) :: members) .closed))) stack
  | .object members key, _ =>
    .breaks (.object (membersOf ((key, value) :: members) .foreign)) stack

/-- What a token does to what is due. -/
def buildStep (stack : List Frame) : Due → Token → Built
  | .value, token => valueStep stack token
  | .firstItem, .closeList => .on (.after (.array .closed)) stack
  | .firstItem, token => valueStep (.list [] :: stack) token
  | .firstKey, .closeObject => .on (.after (.object .closed)) stack
  | .firstKey, token => keyStep [] stack token
  | .nextItem items, .closeList => .breaks (.array (itemsOf items .comma)) stack
  | .nextItem items, token => valueStep (.list items :: stack) token
  | .nextKey members, .closeObject => .breaks (.object (membersOf members .comma)) stack
  | .nextKey members, token => keyStep members stack token
  | .colon members key, .colon => .on .value (.object members key :: stack)
  | .colon members key, _ =>
    .breaks (.broken (.colon .expectedColon)) (.object members key :: stack)
  | .after value, token =>
    match stack with
    | frame :: stack => afterStep value stack frame token
    | [] => .over ⟨value, true⟩

/-- What the end of the text makes of what is due. -/
def buildEnd (stack : List Frame) : Due → Tree
  | .value => breakAt (.broken .ended) stack
  | .firstItem => breakAt (.array .ended) stack
  | .firstKey => breakAt (.object .ended) stack
  | .nextItem items => breakAt (.broken .ended) (.list items :: stack)
  | .nextKey members => breakAt (.object (membersOf members .commaEnded)) stack
  | .colon members key => breakAt (.broken (.colon .eofObject)) (.object members key :: stack)
  | .after value => breakAt value stack

/-- Builds a tree from the tokens; anything behind it is noted, not read. -/
def build (due : Due) (stack : List Frame) : List Token → Document
  | [] => ⟨buildEnd stack due, false⟩
  | token :: rest =>
    match buildStep stack due token with
    | .on due stack => build due stack rest
    | .over document => document

/-- The document that a text holds. -/
def Document.ofSource (s : Source) : Document :=
  build .value [] (tokens s)

end PinBoard.Json
