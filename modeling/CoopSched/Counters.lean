/-!
# Counters and statistics

Each counter counts one kind of event. `Stats` is a reading of all of them together with three
figures that are taken from the scheduler at that moment. Two readings that help:

* nothing leaked: `created - rejected - finishedOk - finishedErr - cancelled - live` is zero;
* the widest point so far: `peakLive`.
-/

namespace CoopSched

/-- What has been counted so far. -/
structure Counters where
  created : Nat := 0
  rejected : Nat := 0
  dispatched : Nat := 0
  parked : Nat := 0
  resumed : Nat := 0
  finishedOk : Nat := 0
  finishedErr : Nat := 0
  cancelled : Nat := 0
  peakLive : Nat := 0
deriving DecidableEq, Repr, Inhabited

/-- A counter that goes up one by one. -/
inductive Counter where
  | created | rejected | dispatched | parked | resumed | finishedOk | finishedErr | cancelled
deriving DecidableEq, Repr, Inhabited

/-- The counters as they stand, and the scheduler as it stands. -/
structure Stats where
  counted : Counters
  /-- Strands created and not yet finished. -/
  live : Nat
  queued : Nat
  /-- Strands on a worker. -/
  running : Nat
deriving DecidableEq, Repr, Inhabited

namespace Counters

/-- The reading of one counter. -/
def get (c : Counters) : Counter → Nat
  | .created => c.created
  | .rejected => c.rejected
  | .dispatched => c.dispatched
  | .parked => c.parked
  | .resumed => c.resumed
  | .finishedOk => c.finishedOk
  | .finishedErr => c.finishedErr
  | .cancelled => c.cancelled

/-- Counts `n` more. -/
def add (c : Counters) (counter : Counter) (n : Nat) : Counters :=
  match counter with
  | .created => { c with created := c.created + n }
  | .rejected => { c with rejected := c.rejected + n }
  | .dispatched => { c with dispatched := c.dispatched + n }
  | .parked => { c with parked := c.parked + n }
  | .resumed => { c with resumed := c.resumed + n }
  | .finishedOk => { c with finishedOk := c.finishedOk + n }
  | .finishedErr => { c with finishedErr := c.finishedErr + n }
  | .cancelled => { c with cancelled := c.cancelled + n }

/-- Counts one more. -/
def count (c : Counters) (counter : Counter) : Counters := c.add counter 1

/-- So many strands are live at once now. -/
def seeLive (c : Counters) (live : Nat) : Counters :=
  { c with peakLive := max c.peakLive live }

/-- A counter moves alone, and `add` moves it by just what was added. -/
theorem get_add (c : Counters) (a b : Counter) (n : Nat) :
    (c.add a n).get b = c.get b + if a = b then n else 0 := by
  cases a <;> cases b <;> simp [add, get]

end Counters

namespace Stats

/-- Strands that ran to their own end. -/
def finished (s : Stats) : Nat := s.counted.finishedOk + s.counted.finishedErr

/-- The fields of a reading in the order in which it is written. -/
def fields (s : Stats) : List (String × Nat) :=
  [("created", s.counted.created), ("rejected", s.counted.rejected),
    ("dispatched", s.counted.dispatched), ("parked", s.counted.parked),
    ("resumed", s.counted.resumed), ("finished_ok", s.counted.finishedOk),
    ("finished_err", s.counted.finishedErr), ("cancelled", s.counted.cancelled),
    ("peak_live", s.counted.peakLive), ("live", s.live), ("queued", s.queued),
    ("running", s.running)]

/-- The reading as compact JSON text. -/
def toJson (s : Stats) : String :=
  "\x7b" ++
    String.intercalate "," (s.fields.map fun (name, n) => "\"" ++ name ++ "\":" ++ toString n) ++
    "\x7d"

end Stats

end CoopSched
