import CoopSched.Scheduler.Handle
import CoopSched.Scheduler.Segment
import CoopSched.Scheduler.Timing
import CoopSched.Script.Performer
import CoopSched.Script.Reply

/-!
# The machine — a scheduler under a script

The machine holds a scheduler, the script's names for what it got from it, the strands that stand
at gates, and the trace of the present step. The trace is the scheduler's journal with the deeds
of the bodies put in where they happened, so `absorb` brings it up to date before anything else
is noted.
-/

namespace CoopSched
namespace Script

/-- What names stand for. A name that is given again stands for the new thing. -/
abbrev Names (α : Type) := List (String × α)

namespace Names

variable {α : Type}

/-- Forgets a name. -/
def forget (names : Names α) (name : String) : Names α := names.filter (·.1 != name)

/-- Gives a name. -/
def bind (names : Names α) (name : String) (a : α) : Names α :=
  (name, a) :: forget names name

end Names

/-- A segment under way. -/
structure Scene where
  strand : StrandId
  wakeup : Wakeup Value
  /-- How the segment ends when its deeds are done. -/
  move : Move
  /-- What is left of the body after this segment. -/
  rest : Performer

/-- A scene that was interrupted at a gate. -/
structure Standing where
  gate : String
  scene : Scene
  /-- The deeds behind the gate. -/
  todo : List Deed

/-- A scheduler under a script. -/
structure Machine where
  sched : Scheduler Value Performer
  /-- The script has not dropped its scheduler. -/
  present : Bool := true
  /-- Events belong into the trace. -/
  showsEvents : Bool
  /-- The order of what happens is not looked at. -/
  quiet : Bool
  /-- What the clock reads whenever a timer is armed. A script has no say in it, and it matters
      only for spans of time that are longer than the clock can count. -/
  clock : Duration := ⟨86400, 0⟩
  handles : Names StrandId := []
  bridges : Names BridgeId := []
  jobs : Names JobId := []
  timers : Names TimerId := []
  /-- The name that each job of the script got first. -/
  labels : List (JobId × String) := []
  /-- Strands at gates, the one that came last in front. -/
  standing : List Standing := []
  trace : Array Entry := #[]
  /-- How much of the journal is in the trace. -/
  seen : Nat := 0

namespace Machine

/-- An entry of the journal as one of the trace. A job that no script created has no name. -/
def entry? (m : Machine) : Record Value → Option Entry
  | .event e => if m.showsEvents then some (.event e) else none
  | .answered j answer => (m.labels.lookup j).map (.jobDone · answer)

/-- Brings the trace up to date. -/
def absorb (m : Machine) : Machine :=
  let new := m.sched.journal.extract m.seen m.sched.journal.size
  { m with trace := m.trace ++ new.filterMap m.entry?, seen := m.sched.journal.size }

/-- Notes an entry. -/
def note (m : Machine) (e : Entry) : Machine :=
  let m := m.absorb
  { m with trace := m.trace.push e }

/-- The same machine with another state of its scheduler. -/
def withSched (m : Machine) (s : Scheduler Value Performer) : Machine := { m with sched := s }

/-- Has a shutdown begun that has not ended? -/
def isShuttingDown (m : Machine) : Bool := m.sched.isStopping && !m.sched.terminated

/-- Does with the scheduler what only its owner can do. -/
def owning (m : Machine) (act : Machine → Machine × Reply) : Machine × Reply :=
  if m.present then act m else (m, .fault .noScheduler)

/-- Does with a bridge what its name is given for. -/
def withBridge (m : Machine) (name : String) (act : BridgeId → Machine × Reply) :
    Machine × Reply :=
  match m.bridges.lookup name with
  | some b => act b
  | none => (m, .fault .noSuchBridge)

/-- Does with a strand what the name of its handle is given for. -/
def withHandle (m : Machine) (name : String) (act : StrandId → Machine × Reply) :
    Machine × Reply :=
  match m.handles.lookup name with
  | some id => act id
  | none => (m, .fault .noSuchHandle)

/-- Does with a job what its name is given for. -/
def withJob (m : Machine) (name : String) (act : JobId → Machine × Reply) : Machine × Reply :=
  match m.jobs.lookup name with
  | some j => act j
  | none => (m, .fault .noSuchJob)

/-- The answer to what may be refused and else is just done. -/
def unitReply : Except Refusal Unit → Reply
  | .ok () => .done
  | .error e => .refused e

/-- Keeps a new strand under the name of its handle. -/
def keepStrand (m : Machine) (name : String)
    (r : Scheduler Value Performer × Except Refusal StrandId) : Machine × Reply :=
  match r with
  | (s, .ok id) => ({ m with sched := s, handles := m.handles.bind name id }, .strand id)
  | (s, .error e) => (m.withSched s, .refused e)

/-- Keeps a new bridge under its name; the answer is its strand. -/
def keepBridge (m : Machine) (name : String) (id : StrandId)
    (r : Scheduler Value Performer × Except Refusal BridgeId) : Machine × Reply :=
  match r with
  | (s, .ok b) => ({ m with sched := s, bridges := m.bridges.bind name b }, .strand id)
  | (s, .error e) => (m.withSched s, .refused e)

/-- Keeps a new job under its name; the answer is its length. -/
def keepJob (m : Machine) (name : String) (s : Scheduler Value Performer) (j : JobId)
    (length : Nat) : Machine × Reply :=
  ({ m with sched := s, jobs := m.jobs.bind name j, labels := (j, name) :: m.labels },
    .length length)

/-- The callback of a script's job: the trace tells that it ran, and more it does not do. -/
def callback (panics : Bool) : Callback Value := fun _ => if panics then [.panic] else []

/-- Does what a script or a body asks for. -/
def serve (m : Machine) : Request → Machine × Reply
  | .spawn handle body name =>
      m.owning fun m => m.keepStrand handle (m.sched.spawnExternal (body.performer none none) name)
  | .park handle bridge =>
      m.owning fun m => m.withHandle handle fun id => m.keepBridge bridge id (m.sched.park id)
  | .complete bridge r =>
      m.withBridge bridge fun b =>
        let (s, answer) := m.sched.complete b r
        (m.withSched s, unitReply answer)
  | .tryComplete bridge r =>
      m.withBridge bridge fun b =>
        let (s, won) := m.sched.tryComplete b r
        (m.withSched s, .flag won)
  | .bridge bridge =>
      m.withBridge bridge fun b =>
        match m.sched.bridge? b with
        | some b => (m, .bridge b)
        | none => (m, .fault .noSuchBridge)
  | .state handle =>
      m.withHandle handle fun id =>
        match m.sched.strand? id with
        | some st =>
            (m, .handle ⟨id, st.status, st.complete, st.name, st.describeHandle id⟩)
        | none => (m, .fault .noSuchHandle)
  | .stats => m.owning fun m => (m, .stats m.sched.stats)
  | .invoke job inputs callable concurrency panics =>
      m.owning fun m =>
        match m.sched.invoke inputs callable.call concurrency (callback panics) with
        | (s, .started j) => m.keepJob job s j inputs.length
        | (s, .refused e) => (m.withSched s, .refused e)
        | (s, .panicked p) => (m.withSched s, .panicked p)
  | .job job length panics =>
      m.owning fun m =>
        let (s, j) := m.sched.createJob length (callback panics)
        m.keepJob job s j length
  | .submit job index r =>
      m.withJob job fun j =>
        let (s, answer) := m.sched.submit j index r
        (m.withSched s, unitReply answer)
  | .claim job =>
      m.withJob job fun j =>
        let (s, index) := m.sched.claim j
        (m.withSched s, .index index)
  | .jobInfo job =>
      m.withJob job fun j =>
        match m.sched.job? j with
        | some entry => (m, .job entry.job)
        | none => (m, .fault .noSuchJob)
  | .arm bridge timer d =>
      m.withBridge bridge fun b =>
        match m.sched.armTimer b d m.clock with
        | some (s, t) => ({ m with sched := s, timers := m.timers.bind timer t }, .done)
        | none => (m, .panicked Scheduler.clockOverflow)
  | .disarm timer =>
      match m.timers.lookup timer with
      | some t =>
          ({ m with sched := m.sched.disarmTimer t, timers := m.timers.forget timer }, .done)
      | none => (m, .fault .noSuchTimer)
  | .dropTimer timer =>
      match m.timers.lookup timer with
      | some t =>
          ({ m with sched := m.sched.detachTimer t, timers := m.timers.forget timer }, .done)
      | none => (m, .fault .noSuchTimer)

end Machine

end Script
end CoopSched
