import CoopSched.Scheduler.Completion

/-!
# Iterative invocations — one strand per input

A job can be resolved by hand, slot by slot, or it can launch a strand for each input itself: all
of them at once, or a bounded number that keeps itself up, each strand that ends launching the
next.
-/

namespace CoopSched

/-- How many strands of a job may be under way at once. -/
inductive Concurrency where
  | unbounded
  /-- So many, and at least one. -/
  | bounded (n : Nat)
deriving DecidableEq, Repr, Inhabited

namespace Concurrency

/-- How many strands are launched at the start, for so many inputs. -/
def initial (c : Concurrency) (inputs : Nat) : Nat :=
  match c with
  | .unbounded => inputs
  | .bounded n => min (max n 1) inputs

/-- Does each strand that ends launch the next? -/
def isChained : Concurrency → Bool
  | .unbounded => false
  | .bounded _ => true

end Concurrency

namespace Scheduler

variable {V B : Type}

/-- Adds a job over so many indices. One without any gives its answer now. -/
def addJob (s : Scheduler V B) (length : Nat) (callback : Callback V)
    (drive : Option (Drive V B)) : Scheduler V B × JobId :=
  let j : JobId := ⟨s.jobs.next⟩
  let (job, answer) := Job.start length
  let s := { s with jobs := s.jobs.add { job := job, callback := callback, drive := drive } }
  match answer with
  | some answer => (s.answerWith cancel j answer, j)
  | none => (s, j)

/-- Creates a job that is resolved by hand. -/
def createJob (s : Scheduler V B) (length : Nat) (callback : Callback V) :
    Scheduler V B × JobId :=
  s.addJob length callback none

/-- Claims the next index of a job. -/
def claim (s : Scheduler V B) (j : JobId) : Scheduler V B × Option Nat :=
  match s.job? j with
  | none => (s, none)
  | some entry =>
      let (job, index) := entry.job.claim
      (s.updateJob j fun e => { e with job := job }, index)

/-- Launches so many strands of a job, up to a panic. -/
def launchInitial (j : JobId) : Nat → Scheduler V B → Scheduler V B × Option Panic
  | 0, s => (s, none)
  | n + 1, s =>
      match launchNextWith cancel j (s.launchRounds j) s with
      | (s, none) => launchInitial j n s
      | (s, some p) => (s, some p)

/-- Starts an iterative invocation, whatever the phase; a panic comes from the callable. -/
def drive (s : Scheduler V B) (inputs : List V) (callable : Nat → V → Except Panic B)
    (concurrency : Concurrency) (callback : Callback V) :
    Scheduler V B × JobId × Option Panic :=
  let d : Drive V B := ⟨inputs.map some, callable, concurrency.isChained⟩
  let (s, j) := s.addJob inputs.length callback (some d)
  let (s, p) := launchInitial j (concurrency.initial inputs.length) s
  (s, j, p)

/-- What came of starting an iterative invocation. -/
inductive Invoked where
  | started (job : JobId)
  | refused (r : Refusal)
  /-- The callable panicked on the caller. The job lives on, and no one holds it. -/
  | panicked (p : Panic)
deriving DecidableEq, Repr, Inhabited

/-- Starts an iterative invocation for the embedder. -/
def invoke (s : Scheduler V B) (inputs : List V) (callable : Nat → V → Except Panic B)
    (concurrency : Concurrency) (callback : Callback V) : Scheduler V B × Invoked :=
  if s.isStopping then (s, .refused .shutDown)
  else
    match s.drive inputs callable concurrency callback with
    | (s, j, none) => (s, .started j)
    | (s, _, some p) => (s, .panicked p)

/-- Starts an iterative invocation for a running strand, which parks on it. -/
def invokeParked (s : Scheduler V B) (id : StrandId) (inputs : List V)
    (callable : Nat → V → Except Panic B) (concurrency : Concurrency) :
    Scheduler V B × Invoked :=
  match s.park id with
  | (s, .error e) => (s, .refused e)
  | (s, .ok b) =>
      match s.drive inputs callable concurrency fun answer => [.complete b (.mapped answer)] with
      | (s, j, none) => (s, .started j)
      | (s, _, some p) => (s, .panicked p)

end Scheduler

end CoopSched
