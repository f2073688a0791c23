import PinBoard.Registry
import PinBoard.Service.Client

/-!
# Providers

What a service has to offer to be used for pins, listens or accounts. A client offers all three.
-/

namespace PinBoard.Service

/-- A service for pins. -/
structure PinService where
  name : String
  submitPin : String → PinRequest → Call Nat
  unpin : String → Call Nat
  currentPin : String → Call (Option PinnedRecording)

/-- A source of listens. -/
structure ListenSource where
  name : String
  recentListens : String → Nat → Call (List Listen)

/-- A provider of accounts. -/
structure AccountProvider where
  name : String
  validateToken : String → Call String

/-- The client as a service for pins. -/
def Client.pins (c : Client) : PinService :=
  ⟨serviceName, c.submitPin, c.unpin, c.currentPin⟩

/-- The client as a source of listens. -/
def Client.listens (c : Client) : ListenSource :=
  ⟨serviceName, c.recentListens⟩

/-- The client as a provider of accounts. -/
def Client.accounts (c : Client) : AccountProvider :=
  ⟨serviceName, c.validateToken⟩

/-- The services of the program. -/
abbrev Services := Registry PinService ListenSource AccountProvider

/-- The services that a client offers. -/
def Client.services (c : Client) : Services :=
  ((Registry.empty.add (.pins serviceId c.pins)).add (.listens serviceId c.listens)).add
    (.accounts serviceId c.accounts)

end PinBoard.Service
