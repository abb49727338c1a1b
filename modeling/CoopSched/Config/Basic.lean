/-!
# Configuration

Three figures start a scheduler. A configuration can be stored whatever the figures are; only
`validate` says whether a scheduler can be started with it.
-/

namespace CoopSched

/-- What a scheduler is started with. -/
structure Config where
  /-- Workers; none stands for one per core of the machine. -/
  workers : Nat := 0
  /-- How many strands may wait before new ones are refused, if there is a limit. -/
  maxPending : Option Nat := none
  /-- Room in the event channel. -/
  eventCapacity : Nat := 1024
deriving DecidableEq, Repr, Inhabited

/-- The fields of a configuration. -/
inductive Config.Field where
  | workers | maxPending | eventCapacity
deriving DecidableEq, Repr, Inhabited

namespace Config.Field

/-- All fields, in the order in which they are declared. -/
def all : List Config.Field := [.workers, .maxPending, .eventCapacity]

/-- The name under which a field is written. -/
def name : Config.Field → String
  | .workers => "workers"
  | .maxPending => "max_pending"
  | .eventCapacity => "event_capacity"

/-- The field with a name. -/
def ofName? (name : String) : Option Config.Field := all.find? (·.name == name)

theorem ofName?_name (f : Config.Field) : ofName? f.name = some f := by
  cases f <;> decide

end Config.Field

/-- Why no scheduler can be started with a configuration. -/
inductive Config.Invalid where
  | zeroPending
  | zeroEventCapacity
deriving DecidableEq, Repr, Inhabited

/-- The name of the cause. -/
def Config.Invalid.name : Config.Invalid → String
  | .zeroPending => "ZeroPending"
  | .zeroEventCapacity => "ZeroEventCapacity"

/-- The wording of the cause. -/
def Config.Invalid.message : Config.Invalid → String
  | .zeroPending => "max_pending must be at least 1"
  | .zeroEventCapacity => "event_capacity must be at least 1"

namespace Config

/-- What is wrong with a configuration; the limit on waiting strands is looked at first. -/
def invalid? (c : Config) : Option Invalid :=
  if c.maxPending = some 0 then some .zeroPending
  else if c.eventCapacity = 0 then some .zeroEventCapacity
  else none

/-- The number of workers on a machine with so many cores. -/
def resolvedWorkers (c : Config) (cores : Nat) : Nat := if c.workers = 0 then cores else c.workers

end Config

end CoopSched
