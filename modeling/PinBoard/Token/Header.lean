import PinBoard.Json.Record

/-!
# Token headers

The header of a token names the algorithm of its signature. It is an object, never an array;
members that are not known may be there, but only as strings.
-/

namespace PinBoard.Token

open Json

/-! ## Fields -/

/-- The algorithm that signs and checks session tokens. -/
def signingAlgorithm : String := "HS256"

/-- The names of the algorithms that a header may give. -/
def algorithms : List String :=
  ["HS256", "HS384", "HS512", "ES256", "ES384", "RS256", "RS384", "RS512", "PS256", "PS384",
    "PS512", "EdDSA"]

/-- The fields of a header. -/
inductive Header.Field where
  | typ
  | alg
  | cty
  | jku
  | jwk
  | kid
  | x5u
  | x5c
  | x5t
  | x5tS256
  | crit
  | enc
  | zip
  | url
  | nonce
  deriving DecidableEq

/-- The key of a field. -/
def Header.Field.key : Header.Field → String
  | .typ => "typ"
  | .alg => "alg"
  | .cty => "cty"
  | .jku => "jku"
  | .jwk => "jwk"
  | .kid => "kid"
  | .x5u => "x5u"
  | .x5c => "x5c"
  | .x5t => "x5t"
  | .x5tS256 => "x5t#S256"
  | .crit => "crit"
  | .enc => "enc"
  | .zip => "zip"
  | .url => "url"
  | .nonce => "nonce"

/-! ## Keys inside headers -/

/-- Whether an object has a string behind each of the given keys. -/
def hasStrings (keys : List String) (ms : Members) : Bool :=
  keys.all (go ms)
where
  /-- Whether one of the members has the key and a string behind it. -/
  go : Members → String → Bool
    | .cons (.ok k) (.string (.ok _)) rest, key => k = key || go rest key
    | .cons _ _ rest, key => go rest key
    | _, _ => false

/-- Whether an object says that it is a key of the given type. -/
def hasKeyType (type : String) : Members → Bool
  | .cons (.ok "kty") (.string (.ok t)) _ => t = type
  | .cons _ _ rest => hasKeyType type rest
  | _ => false

/-- Whether an object is a key of one of the four types. -/
def isKey (ms : Members) : Bool :=
  (hasKeyType "EC" ms && hasStrings ["crv", "x", "y"] ms) ||
    (hasKeyType "RSA" ms && hasStrings ["n", "e"] ms) ||
    (hasKeyType "oct" ms && hasStrings ["k"] ms) ||
    (hasKeyType "OKP" ms && hasStrings ["crv", "x"] ms)

/-- Reads a key. -/
def key : Decoder Unit
  | .object ms => do
    keepMembers (maxDepth - 2) ms
    if isKey ms then .ok () else .error (.noVariant "AlgorithmParameters")
  | tree => .error (mismatch (.record "Jwk") tree)

/-! ## Reading -/

/-- What is kept of a field: the algorithm, and of the others only that they could be read. -/
def Header.Field.Value : Header.Field → Type
  | .alg => String
  | _ => Unit

/-- Reads something that may be `null` and forgets it. -/
def forget {α : Type} (d : Decoder α) : Decoder Unit := fun tree =>
  (optional d tree).map fun _ => ()

/-- How a header is read. -/
def Header.schema : Schema where
  name := "Header"
  Field := Header.Field
  fields :=
    [.typ, .alg, .cty, .jku, .jwk, .kid, .x5u, .x5c, .x5t, .x5tS256, .crit, .enc, .zip, .url,
      .nonce]
  mem_fields f := by cases f <;> decide
  key := Header.Field.key
  Value := Header.Field.Value
  decode
    | .alg => variant (algorithms.map fun name => (name, name))
    | .jwk => forget Token.key
    | .x5c => forget (list text)
    | .crit => forget (list text)
    | .typ => forget text
    | .cty => forget text
    | .jku => forget text
    | .kid => forget text
    | .x5u => forget text
    | .x5t => forget text
    | .x5tS256 => forget text
    | .enc => forget text
    | .zip => forget text
    | .url => forget text
    | .nonce => forget text
  absent
    | .alg => none
    | .typ => some ()
    | .cty => some ()
    | .jku => some ()
    | .jwk => some ()
    | .kid => some ()
    | .x5u => some ()
    | .x5c => some ()
    | .x5t => some ()
    | .x5tS256 => some ()
    | .crit => some ()
    | .enc => some ()
    | .zip => some ()
    | .url => some ()
    | .nonce => some ()
  cut _ := none
  pass := keep (maxDepth - 1)

/-- Members that are not known have to be strings. -/
def extrasAreText : Members → Except Json.Error Unit
  | .cons (.ok key) value rest => do
    if (Header.schema.field? key).isNone then
      let _ ← text value
    extrasAreText rest
  | _ => .ok ()

/-- Reads the algorithm of a header. -/
def algorithm : Decoder String
  | .object ms => do
    let record ← Header.schema.ofMembers ms
    extrasAreText ms
    .ok (record .alg)
  | tree => .error (mismatch (.record "Header") tree)

/-- The header of the tokens that are issued here. -/
def headerText : String :=
  "\x7b\"typ\":\"JWT\",\"alg\":\"HS256\"\x7d"

end PinBoard.Token
