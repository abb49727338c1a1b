import CoopSched.Scheduler.Completion

/-!
# Segments — how a worker runs a strand

`dispatch` is a worker taking the strand in front: it starts a segment and hands out the body
with what it is to be told. `endSegment` is the worker giving the strand back, with what is left
of the body and what the body wants. Between the two the strand is `held`, and its body may call
the scheduler as often as it likes.
-/

namespace CoopSched

/-- A segment that a worker has begun. -/
structure Segment (V B : Type) where
  strand : StrandId
  wakeup : Wakeup V
  body : B
deriving Repr

namespace Scheduler

variable {V B : Type}

/-! ## The start of a segment -/

/-- What the next segment of a strand is told: the payload of its bridge if one was delivered,
    and otherwise what was left for it. A bridge without a payload stays in its slot. -/
def takeWakeup (s : Scheduler V B) (id : StrandId) (st : Strand V B) :
    Scheduler V B × Wakeup V :=
  match st.bridge.bind fun b => (s.bridge? b).bind fun bridge => bridge.take?.map (b, ·) with
  | some (b, payload, spent) =>
      ((s.setBridge b spent).updateStrand id fun st => { st with bridge := none }, payload)
  | none =>
      (s.updateStrand id fun st => { st with wakeup := none }, st.wakeup.getD .yielded)

/-! ## The end of a strand -/

/-- Hands the outcome of a finished strand to its receiver: the job it was launched for, or its
    parent unless that has ended, or else whoever holds the handle. The outcome comes back if it
    is to be kept for the handle, and a failure is then reported. -/
def handOver (s : Scheduler V B) (id : StrandId) (st : Strand V B) (outcome : Outcome V) :
    Scheduler V B × Option (Outcome V) :=
  match st.hook with
  | some hook => (s.resolveWith cancel hook outcome, none)
  | none =>
      match st.parent.bind fun p => (s.strand? p).map (p, ·) with
      | some (parent, ps) =>
          let (group, settlement) := ps.children.settle id outcome
          let s := s.updateStrand parent fun ps => { ps with children := group }
          match settlement with
          | .recorded fired => (s.deliverFired fired, none)
          | .returned outcome => (s.reportUnhandled id outcome, some outcome)
      | none => (s.reportUnhandled id outcome, some outcome)

/-- A running strand finishes. A bridge still in its slot can not resume anything any more; it is
    left as it is. -/
def finish (s : Scheduler V B) (id : StrandId) (outcome : Outcome V) : Scheduler V B :=
  match s.strand? id with
  | none => s
  | some st =>
      match st.status.finish? outcome.isOk with
      | none => s
      | some status =>
          let s := s.updateStrand id fun st => { st with status := status, bridge := none }
          let s := s.count (if outcome.isOk then .finishedOk else .finishedErr)
          let s := (s.emit id (.finished outcome.isOk)).releaseChildren id
          let (s, kept) := s.handOver id st outcome
          s.retire id kept

/-! ## Dispatch -/

/-- A worker is through with a strand. -/
def release (s : Scheduler V B) (id : StrandId) : Scheduler V B :=
  { s with held := s.held.erase id, queue := s.queue.release }

/-- Is a worker free, and does a strand wait that it may take? -/
def canDispatch (s : Scheduler V B) : Bool :=
  !s.terminated && !s.queue.aborted && !s.queue.waiting.isEmpty && s.held.length < s.workers

/-- Starts a segment of a strand that was just popped. There is none if the strand is not
    runnable any more or has no body. -/
def beginSegment (s : Scheduler V B) (id : StrandId) :
    Scheduler V B × Option (Segment V B) :=
  match (s.strand? id).bind fun st => st.status.dispatch?.map (st, ·) with
  | none => (s.release id, none)
  | some (st, status) =>
      let s := s.updateStrand id fun st => { st with status := status, body := none }
      let s := (s.count .dispatched).emit id .dispatched
      let (s, wakeup) := s.takeWakeup id st
      match st.body with
      | none => ((s.finish id (.err ⟨.failed, "strand has no continuation"⟩)).release id, none)
      | some body => ({ s with held := s.held ++ [id] }, some ⟨id, wakeup, body⟩)

/-- A free worker takes the strand in front. -/
def dispatch (s : Scheduler V B) : Scheduler V B × Option (Segment V B) :=
  if s.canDispatch then
    match s.queue.pop with
    | (queue, .strand id) => { s with queue := queue }.beginSegment id
    | (_, .finished) | (_, .wait) => (s, none)
  else (s, none)

/-! ## The end of a segment -/

/-- Gives a strand its body back. -/
def keepBody (s : Scheduler V B) (id : StrandId) (body : B) : Scheduler V B :=
  s.updateStrand id fun st => { st with body := some body }

/-- Parks a strand on the bridge in its slot. If that was completed during the segment, the
    strand is runnable at once. -/
def block (s : Scheduler V B) (id : StrandId) : Scheduler V B :=
  let s := (s.count .parked).emit id .parked
  match (s.strand? id).bind fun st => st.status.park? with
  | none => s
  | some status =>
      let s := s.updateStrand id fun st => { st with status := status }
      if status = .runnable then ((s.count .resumed).emit id .resumed).enqueue id else s

/-- Queues a strand that gave up its worker. -/
def requeue (s : Scheduler V B) (id : StrandId) : Scheduler V B :=
  match (s.strand? id).bind fun st => st.status.requeue? with
  | none => s
  | some status =>
      (s.updateStrand id fun st =>
        { st with status := status, wakeup := some .yielded }).enqueue id

/-- Parks a strand on its children. Its wait may be over already. -/
def blockOnChildren (s : Scheduler V B) (id : StrandId) (mode : WaitMode) : Scheduler V B :=
  let (s, b) := s.issueBridge id
  let s := s.block id
  match s.strand? id with
  | none => s
  | some st =>
      let (group, fired) := st.children.arm mode b
      (s.updateStrand id fun st => { st with children := group }).deliverFired fired

/-- Does what a body wants after its segment. A yield with a bridge outstanding waits for the
    bridge; to park without one, or to wait for children while one is outstanding, is a mistake
    that finishes the strand. -/
def follow (s : Scheduler V B) (id : StrandId) (body : B) (step : Step V) : Scheduler V B :=
  let isParked := ((s.strand? id).bind (·.bridge)).isSome
  match step with
  | .done outcome => s.finish id outcome
  | .yield =>
      if isParked then (s.keepBody id body).block id
      else (s.keepBody id body).requeue id
  | .park =>
      if isParked then (s.keepBody id body).block id
      else s.finish id (.err ⟨.failed, "strand parked without a completion bridge"⟩)
  | .await mode =>
      if isParked then s.finish id (.err ⟨.failed, "strand awaited children while parked"⟩)
      else (s.keepBody id body).blockOnChildren id mode

/-- A worker ends the segment of a strand. Once an immediate shutdown has begun, only a strand
    that finishes may end in its own way. -/
def endSegment (s : Scheduler V B) (id : StrandId) (body : B) (step : Step V) : Scheduler V B :=
  if s.isCancelling && !step.isDone then (s.cancel id shutDownReason).1.release id
  else (s.follow id body step).release id

end Scheduler

end CoopSched
