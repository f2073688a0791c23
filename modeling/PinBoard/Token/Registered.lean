import PinBoard.Json.Record

/-!
# Registered claims

Beside its own claims a token may carry the registered ones. They are read leniently: one that is
not of its kind counts as unreadable and is no reason to refuse the token. A number or a string
is stepped over in that case, an array or object that holds anything is not.
-/

namespace PinBoard.Token

open Json

/-! ## Lenient readers -/

/-- A claim as it was found. -/
inductive Claimed (α : Type) where
  | absent
  | unreadable
  | value (a : α)

/-- What an array or object that cannot be taken means for what follows: when it holds anything,
the reader is lost inside of it. -/
def unreadable {α : Type} : Decoder (Claimed α)
  | .array .closed => .ok .unreadable
  | .object .closed => .ok .unreadable
  | .array _ => .error .expectedObjectSeparator
  | .object _ => .error .expectedObjectSeparator
  | _ => .ok .unreadable

/-- Reads a date in seconds. -/
def date : Decoder (Claimed Nat)
  | .number n =>
    match n.value with
    | .ok (.integer v) => .ok (if 0 ≤ v then .value v.toNat else .unreadable)
    | _ => .ok .unreadable
  | tree => unreadable tree

/-- Reads a name: any string. -/
def name : Decoder (Claimed Unit)
  | .null => .ok .absent
  | .string (.ok _) => .ok (.value ())
  | tree => unreadable tree

/-- Whether all items of an array are strings. -/
def allText : Items → Bool
  | .closed => true
  | .cons (.string (.ok _)) rest => allText rest
  | _ => false

/-- Reads one name or several; anything else is kept until it turns out not to be one. -/
def names : Decoder (Claimed Unit)
  | .null => .ok .absent
  | .string (.ok _) => .ok (.value ())
  | .array is =>
    if allText is then .ok (.value ())
    else if (keep (maxDepth - 1) (.array is)).isOk then .ok .unreadable
    else .error .expectedObjectSeparator
  | .object ms =>
    if (keep (maxDepth - 1) (.object ms)).isOk then .ok .unreadable
    else .error .expectedObjectSeparator
  | _ => .ok .unreadable

/-! ## The claims -/

/-- The registered claims. -/
inductive Registered where
  | exp
  | nbf
  | sub
  | iss
  | aud
  deriving DecidableEq

/-- What a registered claim holds. -/
def Registered.Value : Registered → Type
  | .exp => Claimed Nat
  | .nbf => Claimed Nat
  | _ => Claimed Unit

/-- How the registered claims are read. -/
def Registered.schema : Schema where
  name := "ClaimsForValidation"
  Field := Registered
  fields := [.exp, .nbf, .sub, .iss, .aud]
  mem_fields f := by cases f <;> decide
  key
    | .exp => "exp"
    | .nbf => "nbf"
    | .sub => "sub"
    | .iss => "iss"
    | .aud => "aud"
  Value := Registered.Value
  decode
    | .exp => date
    | .nbf => date
    | .sub => name
    | .iss => names
    | .aud => names
  absent
    | .exp => some .absent
    | .nbf => some .absent
    | .sub => some .absent
    | .iss => some .absent
    | .aud => some .absent
  cut
    | .exp => some .absent
    | .nbf => some .absent
    | .sub => none
    | .iss => none
    | .aud => none

end PinBoard.Token
