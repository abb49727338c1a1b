import CoopSched.Proofs.Scheduler.Move
import CoopSched.Proofs.Scheduler.Segments

/-!
# The bare scheduler — without its fallbacks

The scheduler is ready for things that should not happen. A strand that is popped and is not
runnable is passed over, and one without a body is finished with a failure. A strand that wakes up
with nothing to be told is told that it had yielded, and a bridge that nobody has completed stays in
its slot. A strand that is woken although it stands in the queue stays where it is. One that is to
be queued again, parked or finished and is not running is left alone. An input that is gone fails
its index, and a job with a slot that is still unresolved when it is to answer answers a failure.

`Bare` is the scheduler with all of these taken out: every function does as the scheduler's does,
and where that would fall back the bare one has no answer. The functions over a nested cancellation
are over a bare one here.
-/

namespace CoopSched
namespace Scheduler
namespace Bare

variable {V B : Type}

/-- Cancels a strand for a reason. -/
abbrev Cancel (V B : Type) := Scheduler V B → StrandId → Failure → Option (Scheduler V B)

/-- Wakes a strand. One that is runnable is not to be woken. -/
def wakeWith (nested : Bare.Cancel V B) (s : Scheduler V B) (id : StrandId) :
    Option (Scheduler V B) :=
  if s.terminated then nested s id shutDownReason
  else
    match s.strand? id with
    | none => some s
    | some st => if st.status.wake.2 = .spurious then none else some (s.wake id)

/-- Completes a bridge. -/
def deliverWith (nested : Bare.Cancel V B) (s : Scheduler V B) (b : BridgeId)
    (payload : Wakeup V) : Option (Scheduler V B) :=
  match s.bridge? b with
  | none => some s
  | some bridge =>
      match bridge.claim? payload with
      | none => some s
      | some claimed => wakeWith nested (s.setBridge b claimed) bridge.strand

/-- Does what a callback does, up to a panic. -/
def performWith (nested : Bare.Cancel V B) (s : Scheduler V B) :
    List (Effect V) → Option (Scheduler V B)
  | [] => some s
  | .panic :: _ => some s
  | .complete b payload :: rest =>
      (deliverWith nested s b payload).bind fun s => performWith nested s rest

/-- Runs the callback of a job on its answer. -/
def answerWith (nested : Bare.Cancel V B) (s : Scheduler V B) (j : JobId)
    (answer : Outcome (List V)) : Option (Scheduler V B) :=
  match s.job? j with
  | none => some s
  | some entry =>
      performWith nested { s with journal := s.journal.push (.answered j answer) }
        (entry.callback answer)

/-- Is this the values, or a failure that was recorded? If it is neither, a slot was found without a
    value. -/
def accounts (job : Job V) (answer : Outcome (List V)) : Bool :=
  answer.isOk || job.firstFailure.isSome

/-- Resolves an index of a job. -/
def submitWith (nested : Bare.Cancel V B) (s : Scheduler V B) (j : JobId) (index : Nat)
    (r : Outcome V) : Option (Scheduler V B) :=
  match s.job? j with
  | none => some s
  | some entry =>
      match entry.job.submit index r with
      | .error _ => some s
      | .ok (job, none) => some (s.updateJob j fun e => { e with job := job })
      | .ok (job, some answer) =>
          if accounts job answer then
            answerWith nested (s.updateJob j fun e => { e with job := job }) j answer
          else none

/-! ## The strands of a job -/

/-- Launches the strand for an index, whose input must be there. -/
def launch (s : Scheduler V B) (j : JobId) (drive : Drive V B) (index : Nat) :
    Option (Scheduler V B × Launch) :=
  (drive.inputs[index]?).join.map fun _ => s.launch j drive index

/-- Claims indices until one is launched or none is left. -/
def launchNextWith (nested : Bare.Cancel V B) (j : JobId) :
    Nat → Scheduler V B → Option (Scheduler V B × Option Panic)
  | 0, s => some (s, none)
  | rounds + 1, s =>
      match s.job? j with
      | none => some (s, none)
      | some entry =>
          match entry.drive with
          | none => some (s, none)
          | some drive =>
              let s := s.updateJob j fun e => { e with job := entry.job.claim.1 }
              match entry.job.claim.2 with
              | none => some (s, none)
              | some index =>
                  match launch s j drive index with
                  | none => none
                  | some (s, .launched) => some (s, none)
                  | some (s, .panicked p) => some (s, some p)
                  | some (s, .refused failure) =>
                      (submitWith nested s j index (.err failure)).bind fun s =>
                        if drive.chained then launchNextWith nested j rounds s else some (s, none)

/-- A strand launched for a job has ended. -/
def resolveWith (nested : Bare.Cancel V B) (s : Scheduler V B) (hook : Hook)
    (outcome : Outcome V) : Option (Scheduler V B) :=
  (submitWith nested s hook.job hook.index outcome).bind fun s =>
    match (s.job? hook.job).bind (·.drive) with
    | some drive =>
        if drive.chained then
          (launchNextWith nested hook.job (s.launchRounds hook.job) s).map (·.1)
        else some s
    | none => some s

/-! ## Cancelling and completing -/

/-- Cancels a strand, wherever it is, unless it has ended. -/
def cancelStep (nested : Bare.Cancel V B) : Bare.Cancel V B := fun s id reason =>
  match s.strand? id with
  | none => some s
  | some st =>
      match st.status.cancel? with
      | none => some s
      | some _ =>
          match st.hook with
          | some hook =>
              (resolveWith nested (s.cut id st.bridge) hook (.err reason)).map (·.retire id none)
          | none => some ((s.cut id st.bridge).retire id (some (.err reason)))

/-- Cancels a strand, and lets cancellations nest so many levels deep. -/
def cancelWithin : Nat → Bare.Cancel V B
  | 0 => fun s _ _ => some s
  | levels + 1 => cancelStep (cancelWithin levels)

/-- Cancels a strand. -/
def cancel : Bare.Cancel V B := fun s id reason => cancelWithin s.live.length s id reason

/-- Completes a bridge for which others race. -/
def tryComplete (s : Scheduler V B) (b : BridgeId) (r : Outcome V) : Option (Scheduler V B) :=
  match s.bridge? b with
  | none => some s
  | some bridge =>
      if bridge.isCompleted then some s else deliverWith cancel s b (.completed r)

/-- Delivers what a group of children has fired. -/
def deliverFired (s : Scheduler V B) (fired : Option (Delivery V)) : Option (Scheduler V B) :=
  match fired with
  | some d => deliverWith cancel s d.bridge d.payload
  | none => some s

/-- The deadline of a timer has come. -/
def expireTimer (s : Scheduler V B) (t : TimerId) : Option (Scheduler V B) :=
  match s.timer? t with
  | none => some s
  | some timer =>
      let s := { s with timers := s.timers.update t.number fun _ => timer.expire.1 }
      match timer.expire.2 with
      | none => some s
      | some e => tryComplete s timer.bridge (.err e)

/-! ## Invocations -/

/-- Adds a job over so many indices. -/
def addJob (s : Scheduler V B) (length : Nat) (callback : Callback V)
    (drive : Option (Drive V B)) : Option (Scheduler V B) :=
  let (job, answer) := Job.start length
  let added := { s with jobs := s.jobs.add { job := job, callback := callback, drive := drive } }
  match answer with
  | some answer =>
      if accounts job answer then answerWith cancel added ⟨s.jobs.next⟩ answer else none
  | none => some added

/-- Launches so many strands of a job, up to a panic. -/
def launchInitial (j : JobId) : Nat → Scheduler V B → Option (Scheduler V B)
  | 0, s => some s
  | n + 1, s =>
      match launchNextWith cancel j (s.launchRounds j) s with
      | none => none
      | some (s, none) => launchInitial j n s
      | some (s, some _) => some s

/-- Starts an iterative invocation, whatever the phase. -/
def drive (s : Scheduler V B) (inputs : List V) (callable : Nat → V → Except Panic B)
    (concurrency : Concurrency) (callback : Callback V) : Option (Scheduler V B) :=
  (addJob s inputs.length callback (some ⟨inputs.map some, callable, concurrency.isChained⟩)).bind
    (launchInitial ⟨s.jobs.next⟩ (concurrency.initial inputs.length))

/-- Starts an iterative invocation for the embedder. -/
def invoke (s : Scheduler V B) (inputs : List V) (callable : Nat → V → Except Panic B)
    (concurrency : Concurrency) (callback : Callback V) : Option (Scheduler V B) :=
  if s.isStopping then some s else drive s inputs callable concurrency callback

/-- Starts an iterative invocation for a running strand, which parks on it. -/
def invokeParked (s : Scheduler V B) (id : StrandId) (inputs : List V)
    (callable : Nat → V → Except Panic B) (concurrency : Concurrency) : Option (Scheduler V B) :=
  match s.park id with
  | (s, .error _) => some s
  | (s, .ok b) =>
      drive s inputs callable concurrency fun answer => [.complete b (.mapped answer)]

/-! ## Segments -/

/-- What the next segment of a strand is told: what was left for it, or the payload of its
    bridge. -/
def told? (s : Scheduler V B) (st : Strand V B) : Option (Wakeup V) :=
  match st.bridge with
  | none => st.wakeup
  | some b => ((s.bridge? b).bind Bridge.take?).map (·.1)

/-- Starts a segment of a strand that was just popped, which is runnable, has something to be told
    and has its body. -/
def beginSegment (s : Scheduler V B) (id : StrandId) : Option (Scheduler V B) :=
  (s.strand? id).bind fun st =>
    st.status.dispatch?.bind fun _ =>
      (told? s st).bind fun _ => st.body.map fun _ => (s.beginSegment id).1

/-- A free worker takes the strand in front. -/
def dispatch (s : Scheduler V B) : Option (Scheduler V B) :=
  if s.canDispatch then
    match s.queue.pop with
    | (queue, .strand id) => beginSegment { s with queue := queue } id
    | (_, .finished) | (_, .wait) => some s
  else some s

/-- Hands the outcome of a finished strand to its receiver; it comes back if it is to be kept. -/
def handOver (s : Scheduler V B) (id : StrandId) (st : Strand V B) (outcome : Outcome V) :
    Option (Scheduler V B × Option (Outcome V)) :=
  match st.hook with
  | some hook => (resolveWith cancel s hook outcome).map fun s => (s, none)
  | none =>
      match st.parent.bind fun p => (s.strand? p).map (p, ·) with
      | some (parent, ps) =>
          let told := s.updateStrand parent fun st =>
            { st with children := (ps.children.settle id outcome).1 }
          match (ps.children.settle id outcome).2 with
          | .recorded fired => (deliverFired told fired).map fun s => (s, none)
          | .returned outcome => some (told.reportUnhandled id outcome, some outcome)
      | none => some (s.reportUnhandled id outcome, some outcome)

/-- A strand finishes, which is running. -/
def finish (s : Scheduler V B) (id : StrandId) (outcome : Outcome V) : Option (Scheduler V B) :=
  (s.strand? id).bind fun st =>
    (st.status.finish? outcome.isOk).bind fun _ =>
      (handOver (s.markFinished id outcome.isOk) id st outcome).map fun r => r.1.retire id r.2

/-- Parks a strand on the bridge in its slot, which is running. -/
def block (s : Scheduler V B) (id : StrandId) : Option (Scheduler V B) :=
  (s.strand? id).bind fun st => st.status.park?.map fun _ => s.block id

/-- Queues a strand that gave up its worker, and so is running. -/
def requeue (s : Scheduler V B) (id : StrandId) : Option (Scheduler V B) :=
  (s.strand? id).bind fun st => st.status.requeue?.map fun _ => s.requeue id

/-- Parks a strand on its children. -/
def blockOnChildren (s : Scheduler V B) (id : StrandId) (mode : WaitMode) :
    Option (Scheduler V B) :=
  (block (s.issueBridge id).1 id).bind fun blocked =>
    (blocked.strand? id).bind fun st =>
      deliverFired (blocked.updateStrand id fun st' =>
        { st' with children := (st.children.arm mode (s.issueBridge id).2).1 })
        (st.children.arm mode (s.issueBridge id).2).2

/-- Does what a body wants after its segment. A mistake of the body finishes the strand; that is no
    fallback. -/
def follow (s : Scheduler V B) (id : StrandId) (body : B) (step : Step V) :
    Option (Scheduler V B) :=
  let isParked := ((s.strand? id).bind (·.bridge)).isSome
  match step with
  | .done outcome => finish s id outcome
  | .yield =>
      if isParked then block (s.keepBody id body) id else requeue (s.keepBody id body) id
  | .park =>
      if isParked then block (s.keepBody id body) id
      else finish s id (.err ⟨.failed, "strand parked without a completion bridge"⟩)
  | .await mode =>
      if isParked then finish s id (.err ⟨.failed, "strand awaited children while parked"⟩)
      else blockOnChildren (s.keepBody id body) id mode

/-- A worker ends the segment of a strand. -/
def endSegment (s : Scheduler V B) (id : StrandId) (body : B) (step : Step V) :
    Option (Scheduler V B) :=
  if s.isCancelling && !step.isDone then (cancel s id shutDownReason).map (·.release id)
  else (follow s id body step).map (·.release id)

/-! ## Moves -/

/-- The bare scheduler after a move. The moves that are not named have nothing to fall back on. -/
def after (s : Scheduler V B) : Move V B → Option (Scheduler V B)
  | .complete b r => deliverWith cancel s b (.completed r)
  | .tryComplete b r => tryComplete s b r
  | .deliver b payload => deliverWith cancel s b payload
  | .invoke inputs callable concurrency callback => invoke s inputs callable concurrency callback
  | .createJob length callback => addJob s length callback none
  | .submit j index r => submitWith cancel s j index r
  | .expireTimer t => expireTimer s t
  | .invokeParked id inputs callable concurrency => invokeParked s id inputs callable concurrency
  | .dispatch => dispatch s
  | .endSegment id body step => endSegment s id body step
  | .cancel id => cancel s id s.cleanUpReason
  | m => some (s.after m)

/-- The bare scheduler after moves in turn, as long as it has an answer. -/
def run (s : Scheduler V B) : List (Move V B) → Option (Scheduler V B)
  | [] => some s
  | m :: ms => (after s m).bind fun s => run s ms

end Bare
end Scheduler
end CoopSched
