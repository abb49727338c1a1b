import CoopSched.Config.Basic
import CoopSched.Counters
import CoopSched.Event.Channel
import CoopSched.Phase
import CoopSched.ReadyQueue
import CoopSched.Strand.Basic
import CoopSched.Table
import CoopSched.Timer

/-!
# The state of a scheduler

A scheduler is one value, and everything that can happen to it is a function on that value: a
spawn, a worker taking a strand, each call a running body makes, the end of a segment, a
completion from outside, the two halves of a shutdown. Workers do not appear as threads. They are
a number of places, and `held` lists the strands that occupy one: the strands that are in the
middle of a segment. Any order of the functions is an order in which the workers may have run.

Bodies are a parameter, `B`. The scheduler hands a body out when it starts a segment and takes
back what is left of it when the segment ends; it never looks into one.

The journal is the observer that misses nothing. It has every event in the order in which it was
emitted, and every answer that a job gave, at the place where its callback ran.
-/

namespace CoopSched

/-- What a job's callback does. -/
inductive Effect (V : Type) where
  /-- It completes a bridge. -/
  | complete (bridge : BridgeId) (payload : Wakeup V)
  /-- It panics; nothing after this is done, and nobody notices. -/
  | panic
deriving DecidableEq, Repr, Inhabited

/-- What is to be done with the answer of a job. -/
abbrev Callback (V : Type) := Outcome (List V) → List (Effect V)

/-- A job that launches its own strands. -/
structure Drive (V B : Type) where
  /-- The inputs by index; each is taken when its strand is launched. -/
  inputs : List (Option V)
  /-- The body for an input, unless making it panics. -/
  callable : Nat → V → Except Panic B
  /-- Each strand that ends launches the next one. -/
  chained : Bool

/-- A job of the scheduler. -/
structure JobEntry (V B : Type) where
  job : Job V
  callback : Callback V
  drive : Option (Drive V B) := none

/-- An entry of the journal. -/
inductive Record (V : Type) where
  | event (e : Event)
  /-- A job gave its answer. -/
  | answered (job : JobId) (answer : Outcome (List V))
deriving DecidableEq, Repr, Inhabited

/-- A scheduler. -/
structure Scheduler (V B : Type) where
  /-- How many strands can be in the middle of a segment at once. -/
  workers : Nat
  /-- How many strands may wait before new ones are refused. -/
  maxPending : Option Nat
  /-- Where events are sent, besides the journal. -/
  channel : Option Channel := none
  strands : Table (Strand V B) := {}
  bridges : Table (Bridge V) := {}
  jobs : Table (JobEntry V B) := {}
  timers : Table Timer := {}
  queue : ReadyQueue := {}
  /-- Strands that have not been retired, in the order of their numbers. -/
  live : List StrandId := []
  /-- Strands in the middle of a segment. -/
  held : List StrandId := []
  phase : Phase := .accepting
  /-- The workers are gone; nothing is dispatched any more. -/
  terminated : Bool := false
  counters : Counters := {}
  journal : Array (Record V) := #[]

namespace Scheduler

variable {V B : Type}

/-- A scheduler for a configuration, on a machine with so many cores. -/
def start (c : Config) (cores : Nat) : Except Refusal (Scheduler V B) :=
  match c.invalid? with
  | some cause => .error (.invalidConfig cause.message)
  | none => .ok { workers := c.resolvedWorkers cores, maxPending := c.maxPending }

/-- The same, with an event channel. -/
def startWithChannel (c : Config) (cores : Nat) : Except Refusal (Scheduler V B) :=
  (start c cores).map fun s => { s with channel := some (Channel.ofCapacity c.eventCapacity) }

/-- The strand with a number, if it was admitted. -/
def strand? (s : Scheduler V B) (id : StrandId) : Option (Strand V B) := s.strands.get? id.number

/-- Changes a strand. -/
def updateStrand (s : Scheduler V B) (id : StrandId) (f : Strand V B → Strand V B) :
    Scheduler V B :=
  { s with strands := s.strands.update id.number f }

/-- The bridge with a number. -/
def bridge? (s : Scheduler V B) (b : BridgeId) : Option (Bridge V) := s.bridges.get? b.number

/-- Puts a bridge in the place of an earlier stage of it. -/
def setBridge (s : Scheduler V B) (b : BridgeId) (bridge : Bridge V) : Scheduler V B :=
  { s with bridges := s.bridges.update b.number fun _ => bridge }

/-- The job with a number. -/
def job? (s : Scheduler V B) (j : JobId) : Option (JobEntry V B) := s.jobs.get? j.number

/-- Changes a job. -/
def updateJob (s : Scheduler V B) (j : JobId) (f : JobEntry V B → JobEntry V B) :
    Scheduler V B :=
  { s with jobs := s.jobs.update j.number f }

/-- Tells the observers what happened to a strand. -/
def emit (s : Scheduler V B) (id : StrandId) (h : Happening) : Scheduler V B :=
  { s with
    journal := s.journal.push (.event ⟨id, h⟩)
    channel := s.channel.map (·.emit ⟨id, h⟩) }

/-- Counts one more. -/
def count (s : Scheduler V B) (c : Counter) : Scheduler V B :=
  { s with counters := s.counters.count c }

/-- Puts a strand that comes back into the ready queue. -/
def enqueue (s : Scheduler V B) (id : StrandId) : Scheduler V B :=
  { s with queue := s.queue.push id }

/-- Has a shutdown begun? -/
def isStopping (s : Scheduler V B) : Bool := s.phase.isStopping

/-- Has an immediate shutdown begun? -/
def isCancelling (s : Scheduler V B) : Bool := s.phase.isCancelling

/-- Is it too late for a completion to be of use? -/
def isShutDown (s : Scheduler V B) : Bool := s.isCancelling || s.terminated

/-- The figures of this moment. -/
def stats (s : Scheduler V B) : Stats :=
  ⟨s.counters, s.live.length, s.queue.length, s.queue.running⟩

/-- Issues a new bridge for a strand into its slot. -/
def issueBridge (s : Scheduler V B) (id : StrandId) : Scheduler V B × BridgeId :=
  let b : BridgeId := ⟨s.bridges.next⟩
  ({ s with bridges := s.bridges.add { strand := id } }.updateStrand id
    fun st => { st with bridge := some b }, b)

/-- Reports a failure that nobody was there to receive. -/
def reportUnhandled (s : Scheduler V B) (id : StrandId) (outcome : Outcome V) : Scheduler V B :=
  match outcome with
  | .ok _ => s
  | .err e => s.emit id (.unhandled e)

/-- Closes the children of a strand that ends, and reports the failures that it never
    received. -/
def releaseChildren (s : Scheduler V B) (id : StrandId) : Scheduler V B :=
  match s.strand? id with
  | none => s
  | some st =>
      let (group, left) := st.children.close
      left.foldl (fun s c => s.reportUnhandled c.id c.outcome)
        (s.updateStrand id fun st => { st with children := group })

/-- Takes a strand that has ended off the live list, after its outcome found its receiver. -/
def retire (s : Scheduler V B) (id : StrandId) (kept : Option (Outcome V)) : Scheduler V B :=
  { s with live := s.live.erase id }.updateStrand id (·.publish kept)

end Scheduler

end CoopSched
