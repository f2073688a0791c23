import PinBoard.Listen
import PinBoard.Markup

/-!
# The list of listens

Listens in the order in which they came. The owner of the profile can pin each of them.
-/

namespace PinBoard.View

/-- The name of a track that is not known. -/
def unknownTrack : String := "Unknown Track"

/-- The name of an artist who is not known. -/
def unknownArtist : String := "Unknown Artist"

/-- How a listen is drawn. -/
def listenStyle : String :=
  "bg-white/5 border border-white/5 p-4 rounded-lg hover:border-pin-accent/50 hover:bg-white/10 " ++
    "transition-all duration-200 group"

/-- How the name of the track is drawn. -/
def trackStyle : String :=
  "text-lg font-bold text-white group-hover:text-pin-accent transition-colors truncate"

/-- How the button that pins a listen is drawn. -/
def pinButtonStyle : String :=
  "text-xs font-mono uppercase tracking-wider text-gray-400 hover:text-pin-accent " ++
    "transition-colors cursor-pointer"

/-- The release of a listen. -/
def release {α : Type} : Option String → List (Node α)
  | none => []
  | some name =>
    [.styled "p" "text-sm text-gray-500 italic mt-1" [.given ("from \"" ++ name ++ "\"")]]

/-- The time of a listen. -/
def listenTime {α : Type} : Option String → List (Node α)
  | none => []
  | some time =>
    [.styled "p" "text-sm font-mono text-gray-500 whitespace-nowrap" [.given time]]

/-- The button that pins a listen. -/
def pinButton {α : Type} (pin : α) : Node α :=
  .element "button"
    [.own "class" pinButtonStyle, .own "type" "button",
     .own "title" "Pin this recording to your profile"]
    [.click (some pin)] [.own "[ Pin ]"]

/-- One listen. -/
def listenItem {α : Type} (canPin : Bool) (pin : Listen → α) (l : Listen) : Node α :=
  .styled "li" listenStyle
    [.styled "div" "flex justify-between items-center gap-4"
      [.styled "div" "min-w-0"
        ([.styled "h5" trackStyle [.given (l.trackName.getD unknownTrack)],
          .styled "p" "text-md text-gray-400 font-mono truncate"
            [.given (l.artistName.getD unknownArtist)]] ++
         release l.trackMetadata.releaseName),
       .styled "div" "flex items-center gap-4 shrink-0"
        (listenTime l.shownTime ++ if canPin then [pinButton (pin l)] else [])]]

/-- The listens of a profile. -/
def listenList {α : Type} (canPin : Bool) (pin : Listen → α) (ls : List Listen) : Node α :=
  if ls.isEmpty then
    .styled "p" "text-gray-500 font-mono italic" [.own "No listens yet."]
  else .styled "ul" "space-y-2" (ls.map (listenItem canPin pin))

end PinBoard.View
