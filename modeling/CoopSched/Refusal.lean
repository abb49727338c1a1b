import CoopSched.Outcome
import CoopSched.Strand.Id
import CoopSched.Strand.Status

/-!
# Refusals — what the scheduler will not do

Every operation that can be refused names its cause here. The causes fall into two groups.
Admission, shutdown and start-up failures are conditions a caller has to expect; all the others
are protocol violations, a caller's own mistake. A refused operation changes nothing else.

The wording of each cause is in `Refusal.message` and nowhere else.
-/

namespace CoopSched

/-- Why an operation was refused. -/
inductive Refusal where
  /-- Parking a strand that is not on a worker. -/
  | notRunning (id : StrandId) (status : Status)
  /-- Acting on a strand that has finished. -/
  | terminal (id : StrandId)
  /-- Parking a strand whose bridge is still outstanding. -/
  | alreadyParked (id : StrandId)
  /-- Completing a bridge for the second time. -/
  | alreadyCompleted (id : StrandId)
  /-- Resolving an index that the job does not have. -/
  | indexOutOfRange (index length : Nat)
  /-- Resolving an index for the second time. -/
  | slotResolved (index : Nat)
  /-- The ready queue holds as many strands as it may. -/
  | overloaded (limit : Nat)
  /-- The scheduler has stopped, or is about to. -/
  | shutDown
  /-- A strand asked for the shutdown of the scheduler it runs on. -/
  | shutdownFromWorker
  /-- The outcome of a strand was already handed out. -/
  | resultTaken (id : StrandId)
  /-- The scheduler cannot start with this configuration. -/
  | invalidConfig (reason : String)
  /-- A worker could not be started. -/
  | workerSpawn (reason : String)
deriving DecidableEq, Repr, Inhabited

namespace Refusal

/-- The wording of a refusal. -/
def message : Refusal → String
  | .notRunning id status =>
      "strand " ++ id.label ++ " cannot park: it is " ++ status.name ++ ", not Running"
  | .terminal id => "strand " ++ id.label ++ " already finished"
  | .alreadyParked id => "strand " ++ id.label ++ " already has an outstanding completion bridge"
  | .alreadyCompleted id =>
      "completion bridge for strand " ++ id.label ++ " was already completed"
  | .indexOutOfRange index length =>
      "invocation index " ++ toString index ++ " out of range for length " ++ toString length
  | .slotResolved index => "invocation slot " ++ toString index ++ " was already resolved"
  | .overloaded limit => "ready queue is full (" ++ toString limit ++ " pending strands)"
  | .shutDown => "scheduler is shut down"
  | .shutdownFromWorker => "shutdown cannot be requested from a worker thread"
  | .resultTaken id => "strand " ++ id.label ++ " result was already taken"
  | .invalidConfig reason => "invalid scheduler config: " ++ reason
  | .workerSpawn reason => "failed to spawn worker thread: " ++ reason

/-- The name of the cause, without what it concerns. -/
def name : Refusal → String
  | .notRunning .. => "NotRunning"
  | .terminal .. => "Terminal"
  | .alreadyParked .. => "AlreadyParked"
  | .alreadyCompleted .. => "AlreadyCompleted"
  | .indexOutOfRange .. => "IndexOutOfRange"
  | .slotResolved .. => "SlotResolved"
  | .overloaded .. => "Overloaded"
  | .shutDown => "ShutDown"
  | .shutdownFromWorker => "ShutdownFromWorker"
  | .resultTaken .. => "ResultTaken"
  | .invalidConfig .. => "InvalidConfig"
  | .workerSpawn .. => "WorkerSpawn"

/-- Is the refusal the caller's own mistake? Admission, shutdown and start-up failures are not. -/
def isViolation : Refusal → Bool
  | .overloaded .. | .shutDown | .shutdownFromWorker | .invalidConfig .. | .workerSpawn .. => false
  | _ => true

/-- A refusal that takes the place of a strand's outcome. -/
def toFailure (r : Refusal) : Failure := ⟨.rejected, r.message⟩

end Refusal

end CoopSched
