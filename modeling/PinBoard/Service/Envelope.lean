import PinBoard.Wire.Pin

/-!
# Envelopes

What the service wraps around its answers.
-/

namespace PinBoard.Service

open Json

/-! ## One field -/

/-- The field of an envelope that has one. -/
inductive Only where
  | only
  deriving DecidableEq

/-- The schema of an envelope with one field. -/
def wrap (name key : String) {α : Type} (decode : Decoder α) (absent cut : Option α) : Schema where
  name := name
  Field := Only
  fields := [.only]
  mem_fields f := by cases f; decide
  key _ := key
  Value _ := α
  decode _ := decode
  absent _ := absent
  cut _ := cut

/-- Reads what an envelope with one field holds. -/
def unwrap (name key : String) {α : Type} (decode : Decoder α) (absent cut : Option α) :
    Decoder α := fun tree =>
  ((wrap name key decode absent cut).read tree).map fun r => r .only

/-- Reads the text of an error. -/
def errorText : Decoder String := unwrap "ApiErrorBody" "error" text none none

/-- Reads the pin of a profile, if there is one. -/
def currentPin : Decoder (Option PinnedRecording) :=
  unwrap "CurrentPinResponse" "pinned_recording" (optional PinnedRecording.decode) (some none) none

/-- Reads the list of listens. -/
def listenList : Decoder (List Listen) :=
  unwrap "ListensPayload" "listens" (list Listen.decode) (some []) (some [])

/-- Reads the listens of a profile. -/
def recentListens : Decoder (List Listen) :=
  unwrap "ListensResponse" "payload" listenList none none

/-! ## Checked tokens -/

/-- What the service says of a token. -/
structure TokenCheck where
  valid : Bool
  userName : Option String
  deriving DecidableEq, Repr

/-- The fields of what the service says of a token. -/
inductive TokenCheck.Field where
  | valid
  | userName
  deriving DecidableEq

/-- What the fields hold. -/
def TokenCheck.Field.Value : TokenCheck.Field → Type
  | .valid => Bool
  | .userName => Option String

/-- How it is read. -/
def TokenCheck.schema : Schema where
  name := "ValidateTokenResponse"
  Field := TokenCheck.Field
  fields := [.valid, .userName]
  mem_fields f := by cases f <;> decide
  key
    | .valid => "valid"
    | .userName => "user_name"
  Value := TokenCheck.Field.Value
  decode
    | .valid => bool
    | .userName => optional text
  absent
    | .valid => none
    | .userName => some none
  cut
    | .valid => none
    | .userName => some none

/-- Reads what the service says of a token. -/
def TokenCheck.decode : Decoder TokenCheck := fun tree =>
  (TokenCheck.schema.read tree).map fun r => ⟨r .valid, r .userName⟩

/-- The user whose token it is, if it is valid and the user is named. -/
def TokenCheck.owner (c : TokenCheck) : Option String :=
  if c.valid then c.userName else none

end PinBoard.Service
