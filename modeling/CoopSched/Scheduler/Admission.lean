import CoopSched.Scheduler.Basic

/-!
# Admission — how strands come into being

Three kinds of callers ask for strands. The embedder is refused as soon as a shutdown has begun;
a running body is not, since what runs may go on while the scheduler drains; both are subject to
the limit on waiting strands. The invocations of a job are subject to neither, because each of
them stands in for one that has ended; only a stopped queue refuses them.

A strand is created before the queue decides. One that is refused has had a number, counts as
created and was live for a moment, and leaves nothing else behind.
-/

namespace CoopSched

/-- Who asks for a strand. -/
inductive Admission where
  /-- The embedder. -/
  | external
  /-- A running body. -/
  | internal
  /-- A job. -/
  | invocation
deriving DecidableEq, Repr, Inhabited

/-- The limit on waiting strands that a caller is subject to. -/
def Admission.limit (a : Admission) (maxPending : Option Nat) : Option Nat :=
  match a with
  | .external | .internal => maxPending
  | .invocation => none

/-- A strand to be created. -/
structure SpawnRequest (B : Type) where
  body : B
  admission : Admission
  name : Option String := none
  parent : Option StrandId := none
  hook : Option Hook := none
deriving Repr

namespace Scheduler

variable {V B : Type}

/-- Why the ready queue refused a strand. -/
def queueRefusal (s : Scheduler V B) (limit : Option Nat) : Refusal :=
  match limit with
  | some n => if s.isStopping then .shutDown else .overloaded n
  | none => .shutDown

/-- Creates a strand and enqueues it. -/
def spawn (s : Scheduler V B) (r : SpawnRequest B) : Scheduler V B × Except Refusal StrandId :=
  if r.admission = .external ∧ s.isStopping then (s, .error .shutDown)
  else
    let limit := r.admission.limit s.maxPending
    let id : StrandId := ⟨s.strands.next⟩
    let live := s.live ++ [id]
    let created := { s with
      strands := s.strands.add (Strand.create r.body r.name r.parent r.hook)
      live := live
      counters := (s.counters.seeLive live.length).count .created }.emit id .created
    match s.queue.admit? id limit with
    | some queue => ({ created with queue := queue }, .ok id)
    | none =>
        ({ created with
            strands := created.strands.erase id.number
            live := s.live }.count .rejected |>.emit id .rejected,
          .error (s.queueRefusal limit))

/-- Creates a strand for the embedder. -/
def spawnExternal (s : Scheduler V B) (body : B) (name : Option String) :
    Scheduler V B × Except Refusal StrandId :=
  s.spawn { body := body, admission := .external, name := name }

/-- Creates a strand for a running body, which does not wait for it. -/
def spawnDetached (s : Scheduler V B) (body : B) : Scheduler V B × Except Refusal StrandId :=
  s.spawn { body := body, admission := .internal }

/-- Creates a child of a running strand. -/
def spawnChild (s : Scheduler V B) (parent : StrandId) (body : B) :
    Scheduler V B × Except Refusal StrandId :=
  let expecting := s.updateStrand parent fun st => { st with children := st.children.add }
  match expecting.spawn { body := body, admission := .internal, parent := some parent } with
  | (s, .ok id) => (s, .ok id)
  | (s, .error e) =>
      (s.updateStrand parent fun st => { st with children := st.children.remove }, .error e)

/-- Issues the bridge of a running strand. The strand blocks when its segment ends. -/
def park (s : Scheduler V B) (id : StrandId) : Scheduler V B × Except Refusal BridgeId :=
  match s.strand? id with
  | none => (s, .error (.terminal id))
  | some st =>
      if st.status.isTerminal then (s, .error (.terminal id))
      else if !st.status.isRunning then (s, .error (.notRunning id st.status))
      else if st.bridge.isSome then (s, .error (.alreadyParked id))
      else
        let (s, b) := s.issueBridge id
        (s, .ok b)

end Scheduler

end CoopSched
