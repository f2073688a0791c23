import PinBoard.Session
import PinBoard.Wire.Listen

/-!
# Sessions on the wire

Claims and accounts are written with all their fields and read with none left out.
-/

namespace PinBoard

open Json

/-! ## Accounts -/

/-- The fields of an account. -/
inductive Account.Field where
  | userName
  | token
  | expiresAt
  deriving DecidableEq

/-- What the fields of an account hold. -/
def Account.Field.Value : Account.Field → Type
  | .userName => String
  | .token => String
  | .expiresAt => Int64

/-- How an account is read. -/
def Account.schema : Schema where
  name := "AuthResponse"
  Field := Account.Field
  fields := [.userName, .token, .expiresAt]
  mem_fields f := by cases f <;> decide
  key
    | .userName => "user_name"
    | .token => "auth_token"
    | .expiresAt => "expires_at"
  Value := Account.Field.Value
  decode
    | .userName => text
    | .token => text
    | .expiresAt => signed
  absent _ := none
  cut _ := none

/-- The account in a record. -/
def Account.ofRecord (r : Account.schema.Record) : Account :=
  ⟨r .userName, r .token, r .expiresAt⟩

/-- Reads an account. -/
def Account.decode : Decoder Account := fun tree =>
  (Account.schema.read tree).map Account.ofRecord

/-- Writes an account. -/
def Account.toJson (a : Account) : Tree :=
  .ofMembers
    [("user_name", .ofString a.userName), ("auth_token", .ofString a.token),
     ("expires_at", .ofInt64 a.expiresAt)]

/-! ## Claims -/

/-- Reads a 64-bit count. -/
def Json.count : Decoder UInt64 := fun tree => (size tree).map UInt64.ofNat

/-- Writes a 64-bit count. -/
def Json.Tree.ofUInt64 (n : UInt64) : Tree := Tree.ofInt n.toNat

/-- The fields of claims. -/
inductive Claims.Field where
  | subject
  | token
  | issuedAt
  | expiresAt
  deriving DecidableEq

/-- What the fields of claims hold. -/
def Claims.Field.Value : Claims.Field → Type
  | .subject => String
  | .token => String
  | .issuedAt => UInt64
  | .expiresAt => UInt64

/-- How claims are read. -/
def Claims.schema : Schema where
  name := "Claims"
  Field := Claims.Field
  fields := [.subject, .token, .issuedAt, .expiresAt]
  mem_fields f := by cases f <;> decide
  key
    | .subject => "sub"
    | .token => "lb_token"
    | .issuedAt => "iat"
    | .expiresAt => "exp"
  Value := Claims.Field.Value
  decode
    | .subject => text
    | .token => text
    | .issuedAt => count
    | .expiresAt => count
  absent _ := none
  cut _ := none

/-- The claims in a record. -/
def Claims.ofRecord (r : Claims.schema.Record) : Claims :=
  ⟨r .subject, r .token, r .issuedAt, r .expiresAt⟩

/-- Reads claims. -/
def Claims.decode : Decoder Claims := fun tree =>
  (Claims.schema.read tree).map Claims.ofRecord

/-- Writes claims. -/
def Claims.toJson (c : Claims) : Tree :=
  .ofMembers
    [("sub", .ofString c.subject), ("lb_token", .ofString c.token),
     ("iat", .ofUInt64 c.issuedAt), ("exp", .ofUInt64 c.expiresAt)]

end PinBoard
