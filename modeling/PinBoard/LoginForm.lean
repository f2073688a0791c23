/-!
# The login form

The token is handed on as it was typed. While it is being checked nothing else is.
-/

namespace PinBoard

/-- What is typed, what went wrong, and whether a token is being checked. -/
structure LoginForm where
  token : String
  error : String
  pending : Bool
  deriving DecidableEq, Repr

/-- The form in which nothing was typed. -/
def LoginForm.empty : LoginForm := ⟨"", "", false⟩

/-- What a viewer does to the form. -/
inductive LoginForm.Action where
  | type (token : String)
  | submit
  deriving DecidableEq, Repr

/-- Replaces what is typed. -/
def LoginForm.type (f : LoginForm) (token : String) : LoginForm :=
  { f with token := token }

/-- Starts to check the token, unless one is being checked: the form meanwhile, and the token. -/
def LoginForm.submit? (f : LoginForm) : Option (LoginForm × String) :=
  if f.pending then none else some ({ f with error := "", pending := true }, f.token)

/-- The form once the token was checked. -/
def LoginForm.settle (f : LoginForm) : Except String Unit → LoginForm
  | .ok () => { f with pending := false }
  | .error message => { f with error := message, pending := false }

end PinBoard
