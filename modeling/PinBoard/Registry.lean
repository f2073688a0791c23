/-!
# The registry of services

Pins, listens and accounts are each provided by one or more services. A service is looked up by its
identifier, or without one as the service under the identifier that was added first.
-/

namespace PinBoard

/-! ## One kind of service -/

/-- The services of one kind, by identifier, and the identifier that was added first. -/
structure Shelf (α : Type) where
  first : Option String
  entries : List (String × α)

/-- The shelf with nothing on it. -/
def Shelf.empty {α : Type} : Shelf α := ⟨none, []⟩

/-- Adds a service; it takes the place of an earlier one of the same identifier. -/
def Shelf.add {α : Type} (shelf : Shelf α) (id : String) (service : α) : Shelf α :=
  ⟨shelf.first.or (some id), (id, service) :: shelf.entries.filter (·.1 ≠ id)⟩

/-- The service of a given identifier, or the one that stands in when none is given. -/
def Shelf.find? {α : Type} (shelf : Shelf α) (id : Option String) : Option α :=
  (id.or shelf.first).bind fun id => shelf.entries.lookup id

/-! ## All kinds -/

/-- The kinds of service. -/
inductive ServiceKind where
  | pins
  | listens
  | accounts
  deriving DecidableEq, Repr

/-- What a registry says about a kind of which it holds nothing. -/
def ServiceKind.missingMessage : ServiceKind → String
  | .pins => "at least one pin service required"
  | .listens => "at least one listen source required"
  | .accounts => "at least one account provider required"

/-- The services of all kinds. -/
structure Registry (P L A : Type) where
  pins : Shelf P
  listens : Shelf L
  accounts : Shelf A

/-- The registry with nothing in it. -/
def Registry.empty {P L A : Type} : Registry P L A := ⟨.empty, .empty, .empty⟩

/-- Something that is added to a registry. -/
inductive Registration (P L A : Type) where
  | pins (id : String) (service : P)
  | listens (id : String) (source : L)
  | accounts (id : String) (provider : A)

/-- Adds a service of one kind. -/
def Registry.add {P L A : Type} (r : Registry P L A) :
    Registration P L A → Registry P L A
  | .pins id s => { r with pins := r.pins.add id s }
  | .listens id s => { r with listens := r.listens.add id s }
  | .accounts id s => { r with accounts := r.accounts.add id s }

/-- The registry in use: it holds a service of each kind, or the first kind without one is
named. -/
def Registry.build {P L A : Type} (r : Registry P L A) :
    Except ServiceKind (Registry P L A) :=
  if r.pins.entries.isEmpty then .error .pins
  else if r.listens.entries.isEmpty then .error .listens
  else if r.accounts.entries.isEmpty then .error .accounts
  else .ok r

end PinBoard
