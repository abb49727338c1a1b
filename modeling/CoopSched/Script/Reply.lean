import CoopSched.Script.Syntax

/-!
# What a script is told

Every step of a script and every deed of a body is answered, and everything that happens is noted
in a trace.
-/

namespace CoopSched
namespace Script

/-- What a script asks for that can not be: a name that nothing has, or a step that would
    wait for ever. -/
inductive Fault where
  | noScheduler
  | noSuchHandle
  | noSuchBridge
  | noSuchJob
  | noSuchTimer
  | unknownStep
  | noStrandAtGate
  | strandAtGate
  | wouldRace
  | noEventChannel
  | shutdownPending
deriving DecidableEq, Repr, Inhabited

/-- The wording of a fault. -/
def Fault.message : Fault → String
  | .noScheduler => "no scheduler"
  | .noSuchHandle => "no such handle"
  | .noSuchBridge => "no such bridge"
  | .noSuchJob => "no such job"
  | .noSuchTimer => "no such timer"
  | .unknownStep => "unknown step"
  | .noStrandAtGate => "no strand at this gate"
  | .strandAtGate => "a strand is at a gate"
  | .wouldRace => "would race: hold every worker first"
  | .noEventChannel => "no event channel"
  | .shutdownPending => "a shutdown is pending"

/-- A strand as its handle shows it. -/
structure HandleView where
  id : StrandId
  status : Status
  finished : Bool
  name : Option String
  text : String
deriving Repr, Inhabited

/-- A strand as it sees itself. -/
structure SelfView where
  id : StrandId
  name : Option String
  cancelled : Bool
  children : Nat
deriving Repr, Inhabited

/-- The answer to a step or a deed. -/
inductive Reply where
  /-- It was done. -/
  | done
  | refused (r : Refusal)
  | fault (f : Fault)
  /-- It panicked on the script itself. -/
  | panicked (p : Panic)
  | strand (id : StrandId)
  | flag (b : Bool)
  | index (i : Option Nat)
  | length (n : Nat)
  | bridge (b : Bridge Value)
  | handle (h : HandleView)
  | self (v : SelfView)
  | stats (s : Stats)
  | job (j : Job Value)
  | outcome (r : Outcome Value)
  | unfinished
  | report (r : ShutdownReport)
  /-- The shutdown has begun and waits for the workers. -/
  | pending
  /-- The script opened the gate. -/
  | released
  | events (es : List Event)
deriving Repr, Inhabited

/-- The name of the error, if the answer is one. -/
def Reply.errorName? : Reply → Option String
  | .refused r => some r.name
  | .fault _ => some "Driver"
  | .panicked _ => some "Panic"
  | _ => none

/-- An entry of the trace. -/
inductive Entry where
  | event (e : Event)
  /-- A body was resumed. -/
  | wake (id : StrandId) (w : Wakeup Value)
  /-- A body did something and was answered. -/
  | act (id : StrandId) (word : String) (reply : Reply)
  /-- The callback of a job ran. -/
  | jobDone (job : String) (answer : Outcome (List Value))
deriving Repr, Inhabited

/-- The answer to a step of a script, with what happened during it. -/
structure StepReport where
  reply : Reply
  trace : List Entry
  /-- A shutdown that had been waiting ended during the step. -/
  shutdown : Option ShutdownReport
deriving Repr, Inhabited

end Script
end CoopSched
