import PinBoard.Text.Decimal
import PinBoard.Text.Utf8

/-!
# Configuration

The program is configured by five variables of its environment. One that is not set, is not UTF-8
or cannot be read as what it is meant for takes its default, so no environment is refused.
-/

namespace PinBoard

/-- The address of the public service. -/
def defaultApiUrl : String := "https://api.listenbrainz.org"

/-- What the program is configured with. -/
structure Config where
  secretKey : String
  serviceUrl : String
  listensPageSize : Nat
  port : Nat
  ip : String
  deriving DecidableEq, Repr

/-- The bytes of the variables that are set, by name. -/
abbrev Environment := List (String × List UInt8)

/-- The text of a variable that is set to UTF-8. -/
def Environment.text? (env : Environment) (name : String) : Option String :=
  (env.lookup name).bind Text.Utf8.decode?

/-- The greatest page size. -/
def maxPageSize : Nat := 0xFFFFFFFFFFFFFFFF

/-- The greatest port. -/
def maxPort : Nat := 0xFFFF

/-- The configuration that an environment gives; a page size of zero counts as unreadable. -/
def Config.ofEnvironment (env : Environment) : Config where
  secretKey := (env.text? "SECRET_KEY").getD "secret"
  serviceUrl := (env.text? "LISTENBRAINZ_URL").getD defaultApiUrl
  listensPageSize :=
    (((env.text? "LISTENS_PAGE_SIZE").bind (Text.numeralUpTo? maxPageSize)).filter (0 < ·)).getD 25
  port := ((env.text? "PORT").bind (Text.numeralUpTo? maxPort)).getD 9765
  ip := (env.text? "IP").getD "0.0.0.0"

end PinBoard
