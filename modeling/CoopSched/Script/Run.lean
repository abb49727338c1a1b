import CoopSched.Script.Scene

/-!
# Running a script

A step acts first. Then the workers run until each of them is idle or at a gate, and a shutdown
that was waiting for that ends. The report on the step tells its answer and everything that
happened meanwhile.
-/

namespace CoopSched
namespace Script

/-- Where events go. -/
inductive Sink where
  | trace
  | nowhere
  | channel
deriving DecidableEq, Repr, Inhabited

/-- A script with the configuration of its scheduler. -/
structure Scenario where
  config : Config
  sink : Sink
  quiet : Bool
  commands : List Command

namespace Machine

/-- Would the strands that an invocation starts at once find more than one order to run in? -/
def wouldRace (m : Machine) (inputs : Nat) (c : Concurrency) : Bool :=
  !m.quiet && !m.sched.isStopping && m.sched.held.length < m.sched.workers && 1 < c.initial inputs

/-- Begins a shutdown, and ends it if nothing stands at a gate. -/
def shutDown (m : Machine) (mode : ShutdownMode) : Machine × Reply :=
  match m.sched.requestShutdown mode with
  | .error report => (m, .report report)
  | .ok s =>
      if m.standing.isEmpty then
        let (s, report) := s.finishShutdown
        (m.withSched s, .report report)
      else (m.withSched s, .pending)

/-- Does a step of a script. -/
def command (m : Machine) : Command → Machine × Reply
  | .request (.invoke job inputs callable concurrency panics) =>
      m.owning fun m =>
        if m.wouldRace inputs.length concurrency then (m, .fault .wouldRace)
        else m.serve (.invoke job inputs callable concurrency panics)
  | .request r => m.serve r
  | .release gate =>
      match m.standing.find? (·.gate == gate) with
      | none => (m, .fault .noStrandAtGate)
      | some ⟨_, scene, todo⟩ =>
          let m := { m with standing := m.standing.eraseP (·.gate == gate) }
          ((m.note (.act scene.strand "gate" .released)).play scene todo, .done)
  | .shutdown mode => m.owning fun m => m.shutDown mode
  | .drop =>
      if !m.present then (m, .flag false)
      else if !m.standing.isEmpty then (m, .fault .strandAtGate)
      else ({ (m.shutDown .graceful).1 with present := false }, .flag true)
  | .join handle | .tryJoin handle =>
      m.withHandle handle fun id =>
        match m.sched.join id with
        | some (s, r) =>
            ({ m with sched := s, handles := m.handles.forget handle }, .outcome r)
        | none => (m, .unfinished)
  | .timeout bridge d detached =>
      m.withBridge bridge fun b =>
        match m.sched.armTimer b d m.clock with
        | none => (m, .panicked Scheduler.clockOverflow)
        | some (s, t) =>
            let s := if detached then (s.detachTimer t).pollTimer t else s
            let s := s.expireTimer t
            (m.withSched s, .flag (((s.bridge? b).map (·.isCompleted)).getD false))
  | .drain =>
      match m.sched.drainChannel with
      | some (s, events) => (m.withSched s, .events events)
      | none => (m, .fault .noEventChannel)
  | .unknown => (m, .fault .unknownStep)

/-- Ends a shutdown that waits for the workers, if they are through. -/
def endShutdown (m : Machine) : Machine × Option ShutdownReport :=
  if m.sched.canFinishShutdown then
    let (s, report) := m.sched.finishShutdown
    (m.withSched s, some report)
  else (m, none)

/-- Does a step of a script and everything that follows from it. -/
def step (fuel : Nat) (m : Machine) (c : Command) : Machine × StepReport :=
  let (m, reply) := m.command c
  let (m, shutdown) := (m.settle fuel).endShutdown
  let m := m.absorb
  ({ m with trace := #[] }, ⟨reply, m.trace.toList, shutdown⟩)

/-- Does the steps of a script in turn. -/
def steps (fuel : Nat) : List Command → Machine → Machine × List StepReport
  | [], m => (m, [])
  | c :: rest, m =>
      let (m, report) := m.step fuel c
      let (m, reports) := steps fuel rest m
      (m, report :: reports)

end Machine

/-- What a script was told, and what it holds in the end. -/
structure Report where
  steps : List StepReport
  /-- The figures of its scheduler, unless it was dropped. -/
  stats : Option Stats
  /-- The handles still held. -/
  handles : List (String × Status)
deriving Repr, Inhabited

/-- Starts the scheduler of a script, on a machine with so many cores. -/
def Scenario.machine (s : Scenario) (cores : Nat) : Except Refusal Machine :=
  let sched := match s.sink with
    | .channel => Scheduler.startWithChannel s.config cores
    | .trace | .nowhere => Scheduler.start s.config cores
  sched.map fun sched => { sched := sched, showsEvents := s.sink == .trace, quiet := s.quiet }

/-- Runs a script. The segments that its steps can cause are counted beforehand, and no step can
    cause more than all of them together. -/
def Scenario.run (s : Scenario) (cores : Nat) : Except Refusal Report :=
  (s.machine cores).map fun m =>
    let (m, reports) := m.steps (s.commands.foldl (fun n c => n + c.weight) 0) s.commands
    ⟨reports, if m.present then some m.sched.stats else none,
      m.handles.filterMap fun (name, id) => (m.sched.strand? id).map fun st => (name, st.status)⟩

end Script
end CoopSched
