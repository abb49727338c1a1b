import CoopSched.Scheduler.Admission

/-!
# Completions and cancellations — what ends a wait

Completing a bridge claims it, leaves the payload in it and wakes its strand. Resolving the last
slot of a job runs the job's callback, which may complete bridges. Ending a strand that was
launched for a job resolves a slot. And waking a strand of a scheduler whose workers are gone
cancels it, which ends it. So each of these can set off the others.

The circle closes only once the workers are gone, and it closes through a cancellation; every
cancellation that happens inside another one has a strand less to cancel. The functions are
therefore written over the cancellation that they may set off, `nested`, and `cancelWithin n`
allows cancellations to nest `n` deep. As many levels as there are live strands are enough, and
that is what `cancel` allows.
-/

namespace CoopSched

namespace Scheduler

variable {V B : Type}

/-- Cancels a strand for a reason; also whether there was anything to cancel. -/
abbrev Cancel (V B : Type) := Scheduler V B → StrandId → Failure → Scheduler V B × Bool

/-- The reason for cancelling what an immediate shutdown cuts off. -/
def shutDownReason : Failure := ⟨.cancelled, "scheduler shut down"⟩

/-- A bridge of the strand was completed: makes the strand runnable again. -/
def wakeWith (nested : Cancel V B) (s : Scheduler V B) (id : StrandId) :
    Scheduler V B × Except Refusal Unit :=
  if s.terminated then ((nested s id shutDownReason).1, .error .shutDown)
  else
    match s.strand? id with
    | none => (s, .error (.terminal id))
    | some st =>
        let (status, notice) := st.status.wake
        let s := s.updateStrand id fun st => { st with status := status }
        match notice with
        | .enqueue => (((s.count .resumed).emit id .resumed).enqueue id, .ok ())
        | .deferred | .spurious => (s, .ok ())
        | .terminal => (s, .error (.terminal id))

/-- Completes a bridge. To lose against a shutdown is no mistake of the completer. -/
def deliverWith (nested : Cancel V B) (s : Scheduler V B) (b : BridgeId) (payload : Wakeup V) :
    Scheduler V B × Except Refusal Unit :=
  match s.bridge? b with
  | none => (s, .error .shutDown)
  | some bridge =>
      match bridge.claim? payload with
      | none => (s, .error (if s.isShutDown then .shutDown else .alreadyCompleted bridge.strand))
      | some claimed => (s.setBridge b claimed).wakeWith nested bridge.strand

/-- Does what a callback does, up to a panic. -/
def performWith (nested : Cancel V B) (s : Scheduler V B) : List (Effect V) → Scheduler V B
  | [] => s
  | .panic :: _ => s
  | .complete b payload :: rest => performWith nested (s.deliverWith nested b payload).1 rest

/-- Runs the callback of a job on its answer. -/
def answerWith (nested : Cancel V B) (s : Scheduler V B) (j : JobId)
    (answer : Outcome (List V)) : Scheduler V B :=
  match s.job? j with
  | none => s
  | some entry =>
      performWith nested { s with journal := s.journal.push (.answered j answer) }
        (entry.callback answer)

/-- Resolves an index of a job. -/
def submitWith (nested : Cancel V B) (s : Scheduler V B) (j : JobId) (index : Nat)
    (r : Outcome V) : Scheduler V B × Except Refusal Unit :=
  match s.job? j with
  | none => (s, .error (.indexOutOfRange index 0))
  | some entry =>
      match entry.job.submit index r with
      | .error e => (s, .error e)
      | .ok (job, answer) =>
          let s := s.updateJob j fun e => { e with job := job }
          match answer with
          | none => (s, .ok ())
          | some answer => (s.answerWith nested j answer, .ok ())

/-! ## The strands of a job -/

/-- What came of launching the strand for an index. -/
inductive Launch where
  | launched
  | refused (failure : Failure)
  /-- Making the body panicked. The index stays unresolved. -/
  | panicked (p : Panic)
deriving DecidableEq, Repr, Inhabited

/-- Launches the strand for a claimed index. The input is taken first, so an index can not be
    launched twice. -/
def launch (s : Scheduler V B) (j : JobId) (drive : Drive V B) (index : Nat) :
    Scheduler V B × Launch :=
  match (drive.inputs[index]?).join with
  | none => (s, .refused ⟨.failed, "input " ++ toString index ++ " claimed twice"⟩)
  | some input =>
      let s := s.updateJob j fun e =>
        { e with drive := some { drive with inputs := drive.inputs.set index none } }
      match drive.callable index input with
      | .error p => (s, .panicked p)
      | .ok body =>
          match s.spawn { body := body, admission := .invocation, hook := some ⟨j, index⟩ } with
          | (s, .ok _) => (s, .launched)
          | (s, .error e) => (s, .refused e.toFailure)

/-- Claims indices until one is launched or none is left. An index that can not be launched is
    resolved with its failure; a chained job then goes on to the next. Each round claims an
    index, so one round more than there are indices is enough. -/
def launchNextWith (nested : Cancel V B) (j : JobId) :
    Nat → Scheduler V B → Scheduler V B × Option Panic
  | 0, s => (s, none)
  | rounds + 1, s =>
      match s.job? j with
      | none => (s, none)
      | some entry =>
          match entry.drive with
          | none => (s, none)
          | some drive =>
              let (job, index) := entry.job.claim
              let s := s.updateJob j fun e => { e with job := job }
              match index with
              | none => (s, none)
              | some index =>
                  match s.launch j drive index with
                  | (s, .launched) => (s, none)
                  | (s, .panicked p) => (s, some p)
                  | (s, .refused failure) =>
                      let s := (s.submitWith nested j index (.err failure)).1
                      if drive.chained then launchNextWith nested j rounds s else (s, none)

/-- The most rounds that launching the next strand of a job can take. -/
def launchRounds (s : Scheduler V B) (j : JobId) : Nat :=
  match s.job? j with
  | some entry => entry.job.length + 1
  | none => 0

/-- A strand launched for a job has ended. Its slot is resolved, and a chained job launches the
    next strand. A panic in doing so goes unnoticed. -/
def resolveWith (nested : Cancel V B) (s : Scheduler V B) (hook : Hook) (outcome : Outcome V) :
    Scheduler V B :=
  let s := (s.submitWith nested hook.job hook.index outcome).1
  match (s.job? hook.job).bind (·.drive) with
  | some drive =>
      if drive.chained then (launchNextWith nested hook.job (s.launchRounds hook.job) s).1 else s
  | none => s

/-! ## Cancelling -/

/-- Closes the bridge in a strand's slot, if there is one, and empties the slot. -/
def closeBridge (s : Scheduler V B) (id : StrandId) (slot : Option BridgeId) : Scheduler V B :=
  match slot with
  | none => s
  | some b =>
      let s := s.updateStrand id fun st => { st with bridge := none }
      match (s.bridge? b).bind Bridge.close? with
      | some closed => s.setBridge b closed
      | none => s

/-- Cancels a strand, wherever it is, unless it has ended. A parent is not told. -/
def cancelStep (nested : Cancel V B) : Cancel V B := fun s id reason =>
  match s.strand? id with
  | none => (s, false)
  | some st =>
      match st.status.cancel? with
      | none => (s, false)
      | some status =>
          let s := s.updateStrand id fun st => { st with status := status, body := none }
          let s := (s.closeBridge id st.bridge).releaseChildren id
          let s := (s.count .cancelled).emit id .cancelled
          match st.hook with
          | some hook => ((s.resolveWith nested hook (.err reason)).retire id none, true)
          | none => (s.retire id (some (.err reason)), true)

/-- Cancels a strand, and lets cancellations nest so many levels deep. -/
def cancelWithin : Nat → Cancel V B
  | 0 => fun s _ _ => (s, false)
  | levels + 1 => cancelStep (cancelWithin levels)

/-- Cancels a strand. -/
def cancel : Cancel V B := fun s id reason => cancelWithin s.live.length s id reason

/-! ## Completing -/

/-- Delivers a payload through a bridge. -/
def deliver (s : Scheduler V B) (b : BridgeId) (payload : Wakeup V) :
    Scheduler V B × Except Refusal Unit :=
  s.deliverWith cancel b payload

/-- Completes a bridge with an outcome. -/
def complete (s : Scheduler V B) (b : BridgeId) (r : Outcome V) :
    Scheduler V B × Except Refusal Unit :=
  s.deliver b (.completed r)

/-- Completes a bridge for which others race: to lose is no error, and the answer says whether
    the race was won. -/
def tryComplete (s : Scheduler V B) (b : BridgeId) (r : Outcome V) : Scheduler V B × Bool :=
  match s.bridge? b with
  | none => (s, false)
  | some bridge =>
      if bridge.isCompleted then (s, false) else ((s.complete b r).1, true)

/-- Resolves an index of a job from outside. -/
def submit (s : Scheduler V B) (j : JobId) (index : Nat) (r : Outcome V) :
    Scheduler V B × Except Refusal Unit :=
  s.submitWith cancel j index r

/-- Delivers what a group of children has fired. -/
def deliverFired (s : Scheduler V B) (fired : Option (Delivery V)) : Scheduler V B :=
  match fired with
  | some d => (s.deliver d.bridge d.payload).1
  | none => s

end Scheduler

end CoopSched
