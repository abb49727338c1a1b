/-!
# The life of a strand

    runnable ──dispatch?──▶ running ──park?──▶ blocked
        ▲                    │   │                │
        ├──────requeue?──────┘   └──finish?──▶ done
        └──────────────────wake───────────────────┘

A completion may arrive while its strand is still running. It cannot make the strand runnable
then, so it leaves a mark, and the end of the segment sees it: parking with the mark set makes
the strand runnable at once. The mark means something only while the strand runs, which is why
it is an argument of `running` and not a field beside the status.

Each transition answers `none` when the strand is not in a state that it starts from, and the
strand then stays as it is.
-/

namespace CoopSched

/-- Where a strand is in its life. -/
inductive Status where
  /-- Waiting in the ready queue for a worker. -/
  | runnable
  /-- On a worker. `notified` is set once its bridge has been completed during the segment. -/
  | running (notified : Bool)
  /-- Parked on a completion bridge. -/
  | blocked
  /-- Finished with a value. -/
  | doneOk
  /-- Finished with a failure, or cancelled. -/
  | doneError
deriving DecidableEq, Repr, Inhabited

/-- What came of waking a strand. -/
inductive Notice where
  /-- It was blocked and is runnable now; the caller puts it into the ready queue. -/
  | enqueue
  /-- It is still running; the end of its segment will put it back. -/
  | deferred
  /-- It has already finished. -/
  | terminal
  /-- It was not waiting for anything. -/
  | spurious
deriving DecidableEq, Repr, Inhabited

namespace Status

/-- Has the strand finished, one way or another? -/
def isTerminal : Status → Bool
  | .doneOk | .doneError => true
  | .runnable | .running _ | .blocked => false

/-- Is the strand on a worker? -/
def isRunning : Status → Bool
  | .running _ => true
  | _ => false

/-- The name of the status; the mark of a running strand does not show. -/
def name : Status → String
  | .runnable => "Runnable"
  | .running _ => "Running"
  | .blocked => "Blocked"
  | .doneOk => "DoneOk"
  | .doneError => "DoneError"

/-- A worker takes the strand from the ready queue. -/
def dispatch? : Status → Option Status
  | .runnable => some (.running false)
  | _ => none

/-- The segment gave the worker up of its own accord. A mark is forgotten. -/
def requeue? : Status → Option Status
  | .running _ => some .runnable
  | _ => none

/-- The segment parked. With the mark set the strand does not block: it is runnable, and the
    caller puts it into the ready queue. -/
def park? : Status → Option Status
  | .running true => some .runnable
  | .running false => some .blocked
  | _ => none

/-- The segment finished the strand. -/
def finish? (ok : Bool) : Status → Option Status
  | .running _ => some (if ok then .doneOk else .doneError)
  | _ => none

/-- A completion reached the strand. -/
def wake : Status → Status × Notice
  | .blocked => (.runnable, .enqueue)
  | .running _ => (.running true, .deferred)
  | .runnable => (.runnable, .spurious)
  | .doneOk => (.doneOk, .terminal)
  | .doneError => (.doneError, .terminal)

/-- A shutdown ends the strand, wherever it is. -/
def cancel? : Status → Option Status
  | .runnable | .running _ | .blocked => some .doneError
  | .doneOk | .doneError => none

/-- Nothing leaves a terminal status. -/
theorem terminal_stays {s : Status} (h : s.isTerminal = true) (ok : Bool) :
    s.dispatch? = none ∧ s.requeue? = none ∧ s.park? = none ∧
      s.finish? ok = none ∧ s.cancel? = none ∧ s.wake = (s, .terminal) := by
  cases s <;> simp [isTerminal] at h <;> exact ⟨rfl, rfl, rfl, rfl, rfl, rfl⟩

theorem cancel?_eq_none_iff {s : Status} : s.cancel? = none ↔ s.isTerminal = true := by
  cases s <;> simp [cancel?, isTerminal]

end Status

end CoopSched
