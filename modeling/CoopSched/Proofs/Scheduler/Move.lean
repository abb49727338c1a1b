import CoopSched.Scheduler.Handle
import CoopSched.Scheduler.Invocation
import CoopSched.Scheduler.Segment
import CoopSched.Scheduler.Shutdown
import CoopSched.Scheduler.Timing

/-!
# Moves — a scheduler as a transition system

A run is a list of moves, and a move is one call on the scheduler together with everything that the
call sets off. The embedder, the workers, the bodies and the timers move in any order: nothing but
`Allows` restricts what may come next. A body acts while its strand is held, a shutdown ends when no
strand is held any more, and its clean-up comes after that.

The second half of a shutdown is several moves, for the outside world goes on meanwhile: the queue
is closed, the workers leave, the queue is emptied, and what is left is cancelled strand by strand.
`finishShutdown` is the run in which nothing comes in between (`finishShutdown_eq_run`).
-/

namespace CoopSched
namespace Scheduler

/-- What can happen to a scheduler. -/
inductive Move (V B : Type) where
  -- The embedder, or anybody else who has the handle, the bridge, the job or the timer.
  | spawn (body : B) (name : Option String)
  | park (id : StrandId)
  | complete (b : BridgeId) (r : Outcome V)
  | tryComplete (b : BridgeId) (r : Outcome V)
  | deliver (b : BridgeId) (payload : Wakeup V)
  | invoke (inputs : List V) (callable : Nat → V → Except Panic B) (concurrency : Concurrency)
      (callback : Callback V)
  | createJob (length : Nat) (callback : Callback V)
  | submit (j : JobId) (index : Nat) (r : Outcome V)
  | claim (j : JobId)
  | armTimer (b : BridgeId) (d now : Duration)
  | disarmTimer (t : TimerId)
  | detachTimer (t : TimerId)
  | pollTimer (t : TimerId)
  | expireTimer (t : TimerId)
  | join (id : StrandId)
  | drainChannel
  -- The body of a strand in the middle of a segment.
  | spawnDetached (id : StrandId) (body : B)
  | spawnChild (id : StrandId) (body : B)
  | invokeParked (id : StrandId) (inputs : List V) (callable : Nat → V → Except Panic B)
      (concurrency : Concurrency)
  -- The workers.
  | dispatch
  | endSegment (id : StrandId) (body : B) (step : Step V)
  -- A shutdown.
  | beginShutdown (mode : ShutdownMode)
  | closeQueue
  | terminate
  | drain
  | cancel (id : StrandId)

variable {V B : Type}

/-- The scheduler after a move. -/
def after (s : Scheduler V B) : Move V B → Scheduler V B
  | .spawn body name => (s.spawnExternal body name).1
  | .park id => (s.park id).1
  | .complete b r => (s.complete b r).1
  | .tryComplete b r => (s.tryComplete b r).1
  | .deliver b payload => (s.deliver b payload).1
  | .invoke inputs callable concurrency callback =>
      (s.invoke inputs callable concurrency callback).1
  | .createJob length callback => (s.createJob length callback).1
  | .submit j index r => (s.submit j index r).1
  | .claim j => (s.claim j).1
  | .armTimer b d now => ((s.armTimer b d now).map (·.1)).getD s
  | .disarmTimer t => s.disarmTimer t
  | .detachTimer t => s.detachTimer t
  | .pollTimer t => s.pollTimer t
  | .expireTimer t => s.expireTimer t
  | .join id => ((s.join id).map (·.1)).getD s
  | .drainChannel => (s.drainChannel.map (·.1)).getD s
  | .spawnDetached _ body => (s.spawnDetached body).1
  | .spawnChild id body => (s.spawnChild id body).1
  | .invokeParked id inputs callable concurrency =>
      (s.invokeParked id inputs callable concurrency).1
  | .dispatch => s.dispatch.1
  | .endSegment id body step => s.endSegment id body step
  | .beginShutdown mode => (s.beginShutdown mode).getD s
  | .closeQueue => s.closeQueue
  | .terminate => s.terminate
  | .drain => { s with queue := s.queue.drain.1 }
  | .cancel id => (s.cancel id s.cleanUpReason).1

/-- May the move come now? -/
def Allows (s : Scheduler V B) : Move V B → Prop
  | .spawnDetached id _ | .spawnChild id _ | .invokeParked id _ _ _ | .endSegment id _ _ =>
      id ∈ s.held
  | .closeQueue => s.isStopping = true
  | .terminate => s.queue.closed = true ∧ s.held = []
  | .drain => s.terminated = true
  | .cancel _ => s.terminated = true ∧ s.queue.waiting = []
  | _ => True

/-- Is the move a part of the final clean-up? -/
def Move.isCleanUp : Move V B → Bool
  | .drain | .cancel _ => true
  | _ => false

/-- A clean-up comes only when the workers are gone. -/
theorem isCleanUp_of_alive {s : Scheduler V B} {m : Move V B} (ha : s.Allows m)
    (alive : s.terminated = false) : m.isCleanUp = false := by
  cases m with
  | drain => exact absurd (alive.symm.trans ha) (by decide)
  | cancel id => exact absurd (alive.symm.trans ha.1) (by decide)
  | _ => rfl

/-- Arming a timer changes nothing but the timers. -/
theorem after_armTimer (s : Scheduler V B) (b : BridgeId) (d now : Duration) :
    ∃ timers, s.after (.armTimer b d now) = { s with timers := timers } := by
  show ∃ timers, ((s.armTimer b d now).map (·.1)).getD s = { s with timers := timers }
  unfold armTimer
  split
  · exact ⟨_, rfl⟩
  · exact ⟨s.timers, rfl⟩

/-- Neither does a timer that looks at its bridge. -/
theorem after_pollTimer (s : Scheduler V B) (t : TimerId) :
    ∃ timers, s.after (.pollTimer t) = { s with timers := timers } := by
  show ∃ timers, s.pollTimer t = { s with timers := timers }
  unfold pollTimer
  split
  · exact ⟨s.timers, rfl⟩
  · exact ⟨_, rfl⟩

/-! ## Who gets a bridge, and who completes one -/

/-- What a bridge was obtained for. -/
inductive Origin where
  /-- It was handed to the embedder or to a body, and waits for whoever completes it. -/
  | park
  /-- It waits for an iterative invocation. -/
  | invocation
  /-- It waits for children. -/
  | children
deriving DecidableEq, Repr

/-- Is this what such a bridge is to bring? -/
def Origin.Fits : Origin → Wakeup V → Prop
  | .park, .completed _ | .invocation, .mapped _ | .children, .children _ => True
  | _, _ => False

/-- The bridge that a move obtains, with its strand. Only the one for `park` is handed out. -/
def issued (s : Scheduler V B) : Move V B → Option (StrandId × Origin × BridgeId)
  | .park id =>
      match (s.park id).2 with
      | .ok b => some (id, .park, b)
      | .error _ => none
  | .invokeParked id _ _ _ =>
      match (s.park id).2 with
      | .ok b => some (id, .invocation, b)
      | .error _ => none
  | .endSegment id _ (.await _) =>
      if s.isCancelling || ((s.strand? id).bind (·.bridge)).isSome then none
      else some (id, .children, ⟨s.bridges.next⟩)
  | _ => none

/-- The bridge that a move completes, and with what. -/
def completes (s : Scheduler V B) : Move V B → Option (BridgeId × Wakeup V)
  | .complete b r | .tryComplete b r => some (b, .completed r)
  | .deliver b payload => some (b, payload)
  | .expireTimer t =>
      (s.timer? t).bind fun timer => timer.expire.2.map fun e => (timer.bridge, .completed (.err e))
  | _ => none

/-- The segment that a move begins. -/
def segment? (s : Scheduler V B) : Move V B → Option (Segment V B)
  | .dispatch => s.dispatch.2
  | _ => none

/-- The strand whose segment a move ends, and what its body wants. -/
def Move.conclusion? : Move V B → Option (StrandId × Step V)
  | .endSegment id _ step => some (id, step)
  | _ => none

/-- Does a move complete the bridge so, or arrange that it will be completed so? -/
def Move.Targets (m : Move V B) (b : BridgeId) (w : Wakeup V) : Prop :=
  match m with
  | .complete b' r | .tryComplete b' r => b' = b ∧ w = .completed r
  | .deliver b' payload => b' = b ∧ w = payload
  | .invoke _ _ _ callback | .createJob _ callback => ∃ answer, .complete b w ∈ callback answer
  | .armTimer b' _ _ => b' = b ∧ ∃ r, w = .completed r
  | _ => False

/-! ## Runs -/

/-- The scheduler after moves in turn. -/
def run (s : Scheduler V B) (ms : List (Move V B)) : Scheduler V B := ms.foldl after s

/-- May the moves come in turn? -/
def Admissible (s : Scheduler V B) : List (Move V B) → Prop
  | [] => True
  | m :: ms => s.Allows m ∧ (s.after m).Admissible ms

/-- A scheduler on which nothing has happened yet. -/
def Initial (s : Scheduler V B) : Prop :=
  ∃ c cores, start c cores = .ok s ∨ startWithChannel c cores = .ok s

@[simp] theorem run_nil (s : Scheduler V B) : s.run [] = s := rfl

@[simp] theorem run_cons (s : Scheduler V B) (m : Move V B) (ms : List (Move V B)) :
    s.run (m :: ms) = (s.after m).run ms := rfl

theorem run_append (s : Scheduler V B) (ms rest : List (Move V B)) :
    s.run (ms ++ rest) = (s.run ms).run rest :=
  List.foldl_append

theorem run_snoc (s : Scheduler V B) (before : List (Move V B)) (m : Move V B) :
    s.run (before ++ [m]) = (s.run before).after m :=
  run_append s before [m]

theorem admissible_append {s : Scheduler V B} {ms rest : List (Move V B)} :
    s.Admissible (ms ++ rest) ↔ s.Admissible ms ∧ (s.run ms).Admissible rest := by
  induction ms generalizing s with
  | nil => simp [Admissible]
  | cons m ms ih => simp only [List.cons_append, Admissible, ih, run_cons, and_assoc]

end Scheduler
end CoopSched
