/-!
# Alerts

Short notices to the viewer. The log hands out a fresh number to each alert that is emitted and
keeps those that were not dismissed, in the order in which they came.
-/

namespace PinBoard

/-! ## Single alerts -/

/-- How serious an alert is. -/
inductive AlertKind where
  | success
  | info
  | warning
  | danger
  deriving DecidableEq, Repr

/-- The word for a kind in markup. -/
def AlertKind.label : AlertKind → String
  | .success => "success"
  | .info => "info"
  | .warning => "warning"
  | .danger => "danger"

/-- The name of a kind in messages. -/
def AlertKind.name : AlertKind → String
  | .success => "Success"
  | .info => "Info"
  | .warning => "Warning"
  | .danger => "Danger"

/-- The kinds by name. -/
def AlertKind.named : List (String × AlertKind) :=
  [AlertKind.success, .info, .warning, .danger].map fun k => (k.name, k)

/-- One notice. -/
structure Alert where
  id : UInt64
  kind : AlertKind
  title : String
  message : String
  deriving DecidableEq, Repr

/-! ## The log -/

/-- The alerts on show and the number that the next one gets. -/
structure AlertLog where
  nextId : UInt64
  alerts : List Alert
  deriving DecidableEq, Repr

/-- A log in which nothing was emitted. -/
def AlertLog.empty : AlertLog := ⟨0, []⟩

/-- Emits an alert. -/
def AlertLog.push (log : AlertLog) (kind : AlertKind) (title message : String) : AlertLog :=
  ⟨log.nextId + 1, log.alerts ++ [⟨log.nextId, kind, title, message⟩]⟩

/-- Removes the alert of the given number. -/
def AlertLog.dismiss (log : AlertLog) (id : UInt64) : AlertLog :=
  { log with alerts := log.alerts.filter (·.id ≠ id) }

/-- Whether an alert of the given number is on show. -/
def AlertLog.shows (log : AlertLog) (id : UInt64) : Bool :=
  log.alerts.any (·.id = id)

/-- The title of an error that came without one. -/
def defaultErrorTitle : String := "Error"

/-- Emits an error as an alert; an error that says nothing is dropped. -/
def AlertLog.report (log : AlertLog) (message : String) (title : Option String) : AlertLog :=
  if message.isEmpty then log else log.push .danger (title.getD defaultErrorTitle) message

end PinBoard
