/-!
# Addresses that cannot be read

Why a text is not an address.
-/

namespace PinBoard.Url

/-- Why a text is not an address. -/
inductive Error where
  | relative
  | emptyHost
  | port
  | ipv4
  | ipv6
  | domain
  | hostCharacter
  deriving DecidableEq, Repr

/-- The wording of an error. -/
def Error.message : Error → String
  | .relative => "relative URL without a base"
  | .emptyHost => "empty host"
  | .port => "invalid port number"
  | .ipv4 => "invalid IPv4 address"
  | .ipv6 => "invalid IPv6 address"
  | .domain => "invalid international domain name"
  | .hostCharacter => "invalid domain character"

end PinBoard.Url
