/-!
# The phase of a scheduler

A scheduler starts `open` and leaves that phase once: for `draining` when its shutdown is
graceful, for `cancelling` when it is immediate. Every later attempt to begin a shutdown loses.
-/

namespace CoopSched

/-- What a scheduler is doing with its work. -/
inductive Phase where
  /-- Accepting it. -/
  | accepting
  /-- Finishing it: nothing new from outside, what runs goes on. -/
  | draining
  /-- Cutting it off: no segment is started any more. -/
  | cancelling
deriving DecidableEq, Repr, Inhabited

namespace Phase

/-- The name of the phase. -/
def name : Phase → String
  | .accepting => "Open"
  | .draining => "Draining"
  | .cancelling => "Cancelling"

/-- Leaves `accepting` for another phase; `none` once that has happened. -/
def enter? : Phase → Phase → Option Phase
  | .accepting, next => some next
  | .draining, _ | .cancelling, _ => none

/-- Has a shutdown begun? -/
def isStopping (p : Phase) : Bool := p != .accepting

/-- Has an immediate shutdown begun? -/
def isCancelling (p : Phase) : Bool := p == .cancelling

theorem enter?_eq_none_iff {p next : Phase} : p.enter? next = none ↔ p.isStopping = true := by
  cases p <;> simp [enter?, isStopping]

end Phase

end CoopSched
