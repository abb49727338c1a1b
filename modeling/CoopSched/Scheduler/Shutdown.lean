import CoopSched.Scheduler.Completion

/-!
# Shutdown

A graceful shutdown lets everything that is ready run until it finishes or blocks; an immediate
one starts no segment any more. Either way the shutdown then waits for the workers, and whatever
has not finished is cancelled, in the order of its numbers.

So a shutdown has two halves, and the scheduler goes on between them. `beginShutdown` leaves the
accepting phase, which happens once. `finishShutdown` is for the moment when the workers are
through, which `canFinishShutdown` recognises.
-/

namespace CoopSched

/-- How unfinished work is treated. -/
inductive ShutdownMode where
  | graceful
  | immediate
deriving DecidableEq, Repr, Inhabited

/-- The phase that a shutdown enters. -/
def ShutdownMode.phase : ShutdownMode → Phase
  | .graceful => .draining
  | .immediate => .cancelling

/-- What a shutdown had to clean up. -/
structure ShutdownReport where
  /-- Strands that the clean-up cancelled. -/
  cancelled : Nat := 0
  /-- Strands in the ready queue that never got their segment. -/
  discarded : Nat := 0
deriving DecidableEq, Repr, Inhabited

namespace Scheduler

variable {V B : Type}

/-- Begins a shutdown; `none` if one has begun already. -/
def beginShutdown (s : Scheduler V B) (mode : ShutdownMode) : Option (Scheduler V B) :=
  (s.phase.enter? mode.phase).map fun phase =>
    { s with
      phase := phase
      queue := if phase.isCancelling then s.queue.abort else s.queue }

/-- Begins a shutdown. If one has begun already there is nothing to do, and nothing to report. -/
def requestShutdown (s : Scheduler V B) (mode : ShutdownMode) :
    Except ShutdownReport (Scheduler V B) :=
  match s.beginShutdown mode with
  | none => .error {}
  | some s => .ok s

/-- Are the workers through? In a graceful shutdown nothing may be ready any more. -/
def canFinishShutdown (s : Scheduler V B) : Bool :=
  match s.phase with
  | .accepting => false
  | .draining => !s.terminated && s.held.isEmpty && s.queue.isIdle
  | .cancelling => !s.terminated && s.held.isEmpty

/-- The reason for which the clean-up cancels. -/
def cleanUpReason (s : Scheduler V B) : Failure :=
  if s.isCancelling then shutDownReason
  else ⟨.cancelled, "scheduler shut down while strand was blocked"⟩

/-- Cancels strands one after the other, and counts those that there was something to cancel
    of. -/
def cancelAll (reason : Failure) : List StrandId → Scheduler V B → Scheduler V B × Nat
  | [], s => (s, 0)
  | id :: rest, s =>
      let (s, done) := s.cancel id reason
      let (s, n) := cancelAll reason rest s
      (s, if done then n + 1 else n)

/-- The queue takes no new strands. -/
def closeQueue (s : Scheduler V B) : Scheduler V B := { s with queue := s.queue.close }

/-- The workers are gone. -/
def terminate (s : Scheduler V B) : Scheduler V B := { s with terminated := true }

/-- Empties the queue and cancels what is left. -/
def cleanUp (s : Scheduler V B) : Scheduler V B × ShutdownReport :=
  let (queue, discarded) := s.queue.drain
  let s := { s with queue := queue }
  let (s, cancelled) := cancelAll s.cleanUpReason s.live s
  (s, ⟨cancelled, discarded.length⟩)

/-- Ends a shutdown whose workers are through. -/
def finishShutdown (s : Scheduler V B) : Scheduler V B × ShutdownReport :=
  s.closeQueue.terminate.cleanUp

end Scheduler

end CoopSched
