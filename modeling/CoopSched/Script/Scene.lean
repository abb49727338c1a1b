import CoopSched.Script.Machine

/-!
# Scenes — bodies at work

A scene is a segment under way. Its deeds are done in order, each noted after it was done; then
its move ends the segment. A gate interrupts the scene, and the script takes it up again. When
nothing is left to do without the script, the machine is at rest.
-/

namespace CoopSched
namespace Script

/-- What became of a deed. -/
inductive Performed where
  | answered (reply : Reply)
  /-- It panicked, and with it the body. -/
  | panicked (p : Panic)
  /-- The strand stands at a gate now. -/
  | standing (gate : String)
deriving Repr

namespace Machine

/-- A strand as it sees itself. -/
def selfView (m : Machine) (id : StrandId) : SelfView :=
  match m.sched.strand? id with
  | some st => ⟨id, st.name, m.sched.isCancelling, st.children.outstanding⟩
  | none => ⟨id, none, m.sched.isCancelling, 0⟩

/-- A running body does something. What would panic on the script panics on the body. -/
def perform (m : Machine) (id : StrandId) : Action → Machine × Performed
  | .request r =>
      match m.serve r with
      | (m, .panicked p) => (m, .panicked p)
      | (m, reply) => (m, .answered reply)
  | .park bridge =>
      let (m, reply) := m.keepBridge bridge id (m.sched.park id)
      (m, .answered reply)
  | .child body =>
      match m.sched.spawnChild id (body.performer none none) with
      | (s, .ok child) => (m.withSched s, .answered (.strand child))
      | (s, .error e) => (m.withSched s, .answered (.refused e))
  | .spawn handle body =>
      let (m, reply) := m.keepStrand handle (m.sched.spawnDetached (body.performer none none))
      (m, .answered reply)
  | .invoke inputs callable concurrency =>
      match m.sched.invokeParked id inputs callable.call concurrency with
      | (s, .started _) => (m.withSched s, .answered .done)
      | (s, .refused e) => (m.withSched s, .answered (.refused e))
      | (s, .panicked p) => (m.withSched s, .panicked p)
  | .gate gate => (m, .standing gate)
  | .panic p => (m, .panicked p)
  | .info => (m, .answered (.self (m.selfView id)))
  | .drop =>
      if !m.present then (m, .answered (.fault .noScheduler))
      else if m.isShuttingDown then (m, .answered (.fault .shutdownPending))
      else ({ m with present := false }, .answered .done)
  | .shutdown =>
      (m, .answered (if m.present then .refused .shutdownFromWorker else .fault .noScheduler))
  | .unknown _ => (m, .answered (.fault .unknownStep))

/-- Ends the segment of a scene. -/
def endScene (m : Machine) (scene : Scene) (step : Step Value) : Machine :=
  m.withSched (m.sched.endSegment scene.strand scene.rest step)

/-- Does the deeds of a scene that are left, and ends it. -/
def play (m : Machine) (scene : Scene) : List Deed → Machine
  | [] => m.endScene scene (scene.rest.step scene.wakeup scene.move)
  | .mk must action :: todo =>
      match m.perform scene.strand action with
      | (m, .panicked p) => m.endScene scene (.done (.err (.ofPanic p)))
      | (m, .standing gate) =>
          { m with standing := ⟨gate, scene, todo⟩ :: m.standing }
      | (m, .answered reply) =>
          let m := m.note (.act scene.strand action.word reply)
          match reply.errorName?, must with
          | some name, true =>
              m.endScene scene (.done (.err ⟨.failed, action.word ++ " " ++ name⟩))
          | _, _ => m.play scene todo

/-- Runs the segment that a worker has begun. -/
def runSegment (m : Machine) (seg : Segment Value Performer) : Machine :=
  let p := seg.body
  let finish := fun (rest : Part) (step : Step Value) =>
    m.withSched (m.sched.endSegment seg.strand { p with part := rest } step)
  match p.part with
  | .crash panic => finish .called (.done (.err (.ofPanic panic)))
  | .called => finish .called (.done (.err ⟨.failed, "call body resumed twice"⟩))
  | .call e twice => finish .called (if twice then .yield else .done (p.ending .start e))
  | .segments list =>
      let m := m.note (.wake seg.strand seg.wakeup)
      match nextPassage list with
      | none => m.withSched
          (m.sched.endSegment seg.strand p (.done (p.ending seg.wakeup .wakeup)))
      | some (deeds, move, rest) =>
          m.play ⟨seg.strand, seg.wakeup, move, { p with part := .segments rest }⟩ deeds

/-- Lets the workers run until each of them is idle or at a gate, for at most so many
    segments. -/
def settle : Nat → Machine → Machine
  | 0, m => m
  | fuel + 1, m =>
      if m.sched.canDispatch then
        match m.sched.dispatch with
        | (s, some seg) => settle fuel ((m.withSched s).runSegment seg)
        | (s, none) => settle fuel (m.withSched s)
      else m

end Machine

end Script
end CoopSched
