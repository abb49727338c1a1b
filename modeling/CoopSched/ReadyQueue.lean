import CoopSched.Strand.Id

/-!
# The ready queue

One line of runnable strands for all workers. It also counts the strands that are out on a
worker, so that "empty, and nothing running" is one question.

A queue is stopped in two ways. Closing it refuses new strands and lets the workers empty it;
aborting it sends the workers home at once. Strands that come back, resumed or after a yield, go
through `push`, which neither way refuses: they must never be lost.
-/

namespace CoopSched

/-- The strands that wait for a worker, the one that came first in front. -/
structure ReadyQueue where
  waiting : List StrandId := []
  /-- Strands popped whose segment has not ended. -/
  running : Nat := 0
  /-- New strands are refused; a worker leaves once nothing waits. -/
  closed : Bool := false
  /-- Workers leave now. -/
  aborted : Bool := false
deriving DecidableEq, Repr, Inhabited

/-- What a worker gets that asks for a strand. -/
inductive Pop where
  | strand (id : StrandId)
  /-- There will be none any more. -/
  | finished
  /-- There is none yet. -/
  | wait
deriving DecidableEq, Repr, Inhabited

namespace ReadyQueue

/-- The number of strands that wait. -/
def length (q : ReadyQueue) : Nat := q.waiting.length

/-- Enqueues a strand that comes back. -/
def push (q : ReadyQueue) (id : StrandId) : ReadyQueue :=
  { q with waiting := q.waiting ++ [id] }

/-- May a new strand enter when at most `limit` may wait? -/
def admits (q : ReadyQueue) (limit : Option Nat) : Bool :=
  !q.closed && !q.aborted &&
    match limit with
    | none => true
    | some n => q.length < n

/-- Enqueues a new strand; `none` if it is refused. -/
def admit? (q : ReadyQueue) (id : StrandId) (limit : Option Nat) : Option ReadyQueue :=
  if q.admits limit then some (q.push id) else none

/-- Hands out the strand in front. -/
def pop (q : ReadyQueue) : ReadyQueue × Pop :=
  if q.aborted then (q, .finished)
  else
    match q.waiting with
    | id :: rest => ({ q with waiting := rest, running := q.running + 1 }, .strand id)
    | [] => (q, if q.closed then .finished else .wait)

/-- The segment of a popped strand has ended. -/
def release (q : ReadyQueue) : ReadyQueue := { q with running := q.running - 1 }

/-- Does nothing wait, and is nothing running? -/
def isIdle (q : ReadyQueue) : Bool := q.waiting.isEmpty && q.running == 0

/-- Refuses new strands from now on. -/
def close (q : ReadyQueue) : ReadyQueue := { q with closed := true }

/-- Sends the workers home, whatever still waits. -/
def abort (q : ReadyQueue) : ReadyQueue := { q with closed := true, aborted := true }

/-- Takes out everything that waits. -/
def drain (q : ReadyQueue) : ReadyQueue × List StrandId :=
  ({ q with waiting := [] }, q.waiting)

end ReadyQueue

end CoopSched
