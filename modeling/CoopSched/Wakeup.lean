import CoopSched.Outcome
import CoopSched.Strand.Id

/-!
# What passes between a body and its worker

A body is run in segments. A `Wakeup` says why the segment was started and carries what the
strand waited for; a `Step` says what the body wants after it.
-/

namespace CoopSched

/-- How a parent waits for its children. -/
inductive WaitMode where
  /-- Until none is outstanding; every outcome is delivered. -/
  | all
  /-- Like `all`, but if a child failed its failure is delivered instead of the outcomes. -/
  | allOk
  /-- Until one has settled. -/
  | any
deriving DecidableEq, Repr, Inhabited

/-- One settled child. -/
structure ChildOutcome (V : Type) where
  id : StrandId
  outcome : Outcome V
deriving DecidableEq, Repr, Inhabited

/-- Why a segment is started. -/
inductive Wakeup (V : Type) where
  /-- It is the first one. -/
  | start
  /-- The segment before gave up the worker of its own accord. -/
  | yielded
  /-- The strand's bridge was completed. -/
  | completed (outcome : Outcome V)
  /-- The children that the strand waited for have settled. -/
  | children (outcome : Outcome (List (ChildOutcome V)))
  /-- The iterative invocation that the strand waited for has finished. -/
  | mapped (outcome : Outcome (List V))
deriving DecidableEq, Repr, Inhabited

/-- What a body wants after a segment. -/
inductive Step (V : Type) where
  /-- To be queued again, behind everything that is ready. -/
  | yield
  /-- To be resumed by the bridge that the segment obtained. -/
  | park
  /-- To be resumed when its children have settled. -/
  | await (mode : WaitMode)
  /-- To finish. -/
  | done (outcome : Outcome V)
deriving DecidableEq, Repr, Inhabited

/-- Does the step finish the strand? -/
def Step.isDone {V : Type} : Step V → Bool
  | .done _ => true
  | _ => false

end CoopSched
