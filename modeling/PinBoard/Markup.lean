/-!
# Markup

What is shown is a tree of elements and texts. A text is the program's own or was given by
somebody else; both are escaped when they are written. Elements listen to what the viewer does; what
happens is an action of a type that each view chooses.
-/

namespace PinBoard

/-! ## Gestures -/

/-- What a viewer does to an element. -/
inductive Gesture where
  | click (shift : Bool)
  /-- Changes the value of a field. -/
  | input (value : String)
  | press (key : String)
  deriving DecidableEq, Repr

/-- What an element does about gestures. -/
inductive Listener (α : Type) where
  /-- A click acts, unless there is nothing to do. -/
  | click (action : Option α)
  /-- A plain click acts; with the shift key it is left to the browser. -/
  | follow (action : α)
  /-- A click does nothing and is kept from the elements around. -/
  | shield
  | input (action : String → α)
  /-- One key acts. -/
  | key (name : String) (action : α)

/-- Whether a listener is for gestures of a kind. -/
def Listener.hears {α : Type} : Listener α → Gesture → Bool
  | .click _, .click _ | .follow _, .click _ | .shield, .click _ => true
  | .input _, .input _ => true
  | .key _ _, .press _ => true
  | _, _ => false

/-- What a listener does about a gesture. -/
def Listener.action {α : Type} : Listener α → Gesture → Option α
  | .click action, .click _ => action
  | .follow action, .click shift => if shift then none else some action
  | .input action, .input value => some (action value)
  | .key name action, .press pressed => if pressed = name then some action else none
  | _, _ => none

/-- Whether a listener keeps a gesture from the elements around. -/
def Listener.keeps {α : Type} : Listener α → Gesture → Bool
  | .shield, .click _ => true
  | _, _ => false

/-! ## Trees -/

/-- An attribute: with a value that is the program's own or was given, or one that is just set. -/
inductive Attribute where
  | own (name value : String)
  | given (name value : String)
  | flag (name : String)
  deriving DecidableEq, Repr

/-- A piece of markup. -/
inductive Node (α : Type) where
  | own (text : String)
  | given (text : String)
  | element (tag : String) (attributes : List Attribute) (listeners : List (Listener α))
      (children : List (Node α))

/-- An element that is styled and does nothing. -/
def Node.styled {α : Type} (tag style : String) (children : List (Node α)) : Node α :=
  .element tag [.own "class" style] [] children

/-! ## Writing -/

/-- The written form of a character. -/
def escapeChar (c : Char) : List Char :=
  match c with
  | '&' => ['&', '#', '3', '8', ';']
  | '<' => ['&', '#', '6', '0', ';']
  | '>' => ['&', '#', '6', '2', ';']
  | '"' => ['&', '#', '3', '4', ';']
  | '\'' => ['&', '#', '3', '9', ';']
  | c => [c]

/-- The written form of a text. -/
def escape (text : String) : List Char :=
  text.toList.flatMap escapeChar

/-- An attribute with a value. -/
def attributeChars (name value : String) : List Char :=
  ' ' :: name.toList ++ '=' :: '"' :: escape value ++ ['"']

/-- The written form of an attribute. -/
def Attribute.chars : Attribute → List Char
  | .own name value => attributeChars name value
  | .given name value => attributeChars name value
  | .flag name => ' ' :: name.toList ++ ['=', 't', 'r', 'u', 'e']

/-- Whether an element has no end of its own. -/
def isVoid (tag : String) : Bool :=
  tag = "br" || tag = "input"

mutual

/-- The written form of a piece of markup; listeners leave no trace. -/
def Node.chars {α : Type} : Node α → List Char
  | .own text => escape text
  | .given text => escape text
  | .element tag attributes _ children =>
    let start := '<' :: tag.toList ++ attributes.flatMap Attribute.chars
    if isVoid tag then start ++ ['/', '>']
    else start ++ '>' :: Node.allChars children ++ '<' :: '/' :: tag.toList ++ ['>']

/-- The written form of pieces in a row. -/
def Node.allChars {α : Type} : List (Node α) → List Char
  | [] => []
  | n :: rest => n.chars ++ Node.allChars rest

end

/-- The written form of a view. -/
def html {α : Type} (view : List (Node α)) : String :=
  String.ofList (Node.allChars view)

/-! ## Reading -/

mutual

/-- The text in a piece of markup. -/
def Node.text {α : Type} : Node α → String
  | .own text => text
  | .given text => text
  | .element _ _ _ children => Node.allText children

/-- The text in pieces in a row. -/
def Node.allText {α : Type} : List (Node α) → String
  | [] => ""
  | n :: rest => n.text ++ Node.allText rest

end

/-- Reads a written text; what is no written form of a character stands for itself. -/
def unescape : List Char → List Char
  | '&' :: '#' :: '3' :: '8' :: ';' :: rest => '&' :: unescape rest
  | '&' :: '#' :: '6' :: '0' :: ';' :: rest => '<' :: unescape rest
  | '&' :: '#' :: '6' :: '2' :: ';' :: rest => '>' :: unescape rest
  | '&' :: '#' :: '3' :: '4' :: ';' :: rest => '"' :: unescape rest
  | '&' :: '#' :: '3' :: '9' :: ';' :: rest => '\'' :: unescape rest
  | c :: rest => c :: unescape rest
  | [] => []

/-- An attribute whose value is left out if it was given. -/
def Attribute.blank : Attribute → Attribute
  | .given name _ => .given name ""
  | a => a

mutual

/-- A piece of markup from which all is left out that was given. -/
def Node.blank {α : Type} : Node α → Node α
  | .own text => .own text
  | .given _ => .given ""
  | .element tag attributes listeners children =>
    .element tag (attributes.map Attribute.blank) listeners (Node.allBlank children)

/-- Pieces in a row from which all is left out that was given. -/
def Node.allBlank {α : Type} : List (Node α) → List (Node α)
  | [] => []
  | n :: rest => n.blank :: Node.allBlank rest

end

/-- The value of an attribute, if it is the one of the given name. -/
def Attribute.value? (name : String) : Attribute → Option String
  | .own n value => if n = name then some value else none
  | .given n value => if n = name then some value else none
  | .flag _ => none

/-! ## Gestures on trees -/

/-- An element that hears a gesture, and the actions that it sets off there and around. -/
structure Target (α : Type) where
  tag : String
  text : String
  label : Option String
  actions : List α

/-- The actions of an element and of those around it, which come later. -/
def actionsAt {α : Type} (g : Gesture) (listeners : List (Listener α)) (around : List α) : List α :=
  listeners.filterMap (·.action g) ++ if listeners.any (·.keeps g) then [] else around

mutual

/-- The elements that hear a gesture, in the order of the document. -/
def Node.targets {α : Type} (g : Gesture) (around : List α) : Node α → List (Target α)
  | .own _ => []
  | .given _ => []
  | .element tag attributes listeners children =>
    let actions := actionsAt g listeners around
    let inside := Node.allTargets g actions children
    if listeners.any (·.hears g) then
      ⟨tag, Node.allText children, attributes.findSome? (·.value? "aria-label"), actions⟩ :: inside
    else inside

/-- The elements that hear a gesture in pieces in a row. -/
def Node.allTargets {α : Type} (g : Gesture) (around : List α) : List (Node α) → List (Target α)
  | [] => []
  | n :: rest => n.targets g around ++ Node.allTargets g around rest

end

/-- How an element is pointed at: by its tag, by its text or label, and by its place among those. -/
structure Aim where
  tag : Option String
  text : Option String
  place : Nat

/-- Whether an element is one of those that are pointed at. -/
def Aim.fits {α : Type} (aim : Aim) (t : Target α) : Bool :=
  aim.tag.all (· = t.tag) && aim.text.all fun s => t.text = s || t.label = some s

/-- The actions that a gesture on an element sets off, if there is such an element that hears it. -/
def actions? {α : Type} (view : List (Node α)) (aim : Aim) (g : Gesture) : Option (List α) :=
  (((Node.allTargets g [] view).filter aim.fits)[aim.place]?).map (·.actions)

end PinBoard
