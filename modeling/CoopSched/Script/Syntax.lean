import CoopSched.Scheduler.Invocation
import CoopSched.Scheduler.Shutdown
import CoopSched.Script.Value

/-!
# Scripts

A script drives a scheduler step by step, and says beforehand what every body will do. Things are
called by names: handles, bridges, jobs and timers, each kind with names of its own, and gates.
At a gate a running strand stands still, on its worker, until the script lets it go on; that is
how a script gets two things to happen at once.

A body is a list of segments. Each resumption runs one of them: its deeds, one after the other,
and then its move. Bodies contain deeds and deeds contain bodies, so a body is a finite tree, and
so is the work that it can cause.
-/

namespace CoopSched
namespace Script

/-- With what a body finishes. -/
inductive Ending where
  | result (r : Outcome Value)
  /-- With the input it was launched for, if any. -/
  | arg
  /-- With the index of that input. -/
  | index
  /-- With what it was told when it was resumed. -/
  | wakeup
deriving Repr, Inhabited

/-- What a segment ends with. -/
inductive Move where
  | yield
  | park
  | await (mode : WaitMode)
  | done (e : Ending)
deriving Repr, Inhabited

mutual

/-- What a strand does. -/
inductive Body where
  /-- It finishes in its first segment. A body that is called twice gives up its worker after
      the first call, whatever that answered. -/
  | call (e : Ending) (twice : Bool)
  /-- It panics in its first segment. -/
  | crash (p : Panic)
  | segments (list : List Passage)

/-- A segment of a body, to be run so many times. -/
inductive Passage where
  | mk (deeds : List Deed) (move : Move) (times : Nat)

/-- A deed of a running body. If it must succeed and is refused, the strand fails. -/
inductive Deed where
  | mk (must : Bool) (action : Action)

/-- What a running body can do. -/
inductive Action where
  | request (r : Request)
  /-- Parks itself. -/
  | park (bridge : String)
  | child (body : Body)
  | spawn (handle : String) (body : Body)
  /-- Parks itself on an iterative invocation. -/
  | invoke (inputs : List Value) (callable : Callable) (concurrency : Concurrency)
  | gate (gate : String)
  | panic (p : Panic)
  | info
  /-- Drops the script's scheduler. -/
  | drop
  | shutdown
  | unknown (word : String)

/-- What both a script and a running body can ask for. -/
inductive Request where
  | spawn (handle : String) (body : Body) (name : Option String)
  | park (handle bridge : String)
  | complete (bridge : String) (r : Outcome Value)
  | tryComplete (bridge : String) (r : Outcome Value)
  | bridge (bridge : String)
  | state (handle : String)
  | stats
  | invoke (job : String) (inputs : List Value) (callable : Callable)
      (concurrency : Concurrency) (callbackPanics : Bool)
  | job (job : String) (length : Nat) (callbackPanics : Bool)
  | submit (job : String) (index : Nat) (r : Outcome Value)
  | claim (job : String)
  | jobInfo (job : String)
  | arm (bridge timer : String) (d : Duration)
  | disarm (timer : String)
  | dropTimer (timer : String)

/-- Gives the body for each input of an iterative invocation: a body of its own for some
    indices, one body for all the others, and a panic at one index. A callable that is not
    indexed keeps the index from its bodies. -/
inductive Callable where
  | mk (body : Body) (special : List (Nat × Body)) (panicAt : Option Nat) (indexed : Bool)

end

/-- A step of a script. -/
inductive Command where
  | request (r : Request)
  | release (gate : String)
  | shutdown (mode : ShutdownMode)
  | drop
  | join (handle : String)
  | tryJoin (handle : String)
  /-- Arms a timer and waits for its deadline, perhaps without keeping its handle. -/
  | timeout (bridge : String) (d : Duration) (detached : Bool)
  | drain
  | unknown

instance : Inhabited Body := ⟨.segments []⟩
instance : Inhabited Passage := ⟨.mk [] .yield 0⟩
instance : Inhabited Action := ⟨.info⟩
instance : Inhabited Deed := ⟨.mk false .info⟩
instance : Inhabited Request := ⟨.stats⟩
instance : Inhabited Callable := ⟨.mk default [] none false⟩

/-- The word for a request. -/
def Request.word : Request → String
  | .spawn .. => "spawn"
  | .park .. => "park"
  | .complete .. => "complete"
  | .tryComplete .. => "try_complete"
  | .bridge _ => "bridge"
  | .state _ => "state"
  | .stats => "stats"
  | .invoke .. => "invoke"
  | .job .. => "job"
  | .submit .. => "submit"
  | .claim _ => "claim"
  | .jobInfo _ => "job_info"
  | .arm .. => "arm"
  | .disarm _ => "disarm"
  | .dropTimer _ => "drop_timer"

/-- The word for what a body does. -/
def Action.word : Action → String
  | .request r => r.word
  | .park _ => "cx_park"
  | .child _ => "child"
  | .spawn .. => "cx_spawn"
  | .invoke .. => "cx_invoke"
  | .gate _ => "gate"
  | .panic _ => "panic"
  | .info => "info"
  | .drop => "drop"
  | .shutdown => "shutdown"
  | .unknown word => word

/-! ## How much work a script can cause

Counted in segments. A strand can be resumed once for each time that one of its segments is to be
run, and once more; and each strand that it causes adds its own segments. -/

mutual

/-- The most segments that a strand with this body, and every strand it causes, can run. -/
def Body.weight : Body → Nat
  | .call _ _ => 2
  | .crash _ => 1
  | .segments list => 1 + Passage.weights list

/-- The same for the segments of a body. -/
def Passage.weights : List Passage → Nat
  | [] => 0
  | .mk deeds _ times :: rest => times * (1 + Deed.weights deeds) + Passage.weights rest

/-- The same for what a segment causes. -/
def Deed.weights : List Deed → Nat
  | [] => 0
  | .mk _ action :: rest => action.weight + Deed.weights rest

/-- The same for what one action causes. -/
def Action.weight : Action → Nat
  | .request r => r.weight
  | .child body => body.weight
  | .spawn _ body => body.weight
  | .invoke inputs callable _ => inputs.length * callable.weight
  | .park _ | .gate _ | .panic _ | .info | .drop | .shutdown | .unknown _ => 0

/-- The same for what a request causes. -/
def Request.weight : Request → Nat
  | .spawn _ body _ => body.weight
  | .invoke _ inputs callable _ _ => inputs.length * callable.weight
  | .park _ _ | .complete _ _ | .tryComplete _ _ | .bridge _ | .state _ | .stats | .job _ _ _
  | .submit _ _ _ | .claim _ | .jobInfo _ | .arm _ _ _ | .disarm _ | .dropTimer _ => 0

/-- The same for one input of an invocation. -/
def Callable.weight : Callable → Nat
  | .mk body special _ _ => body.weight + Body.weights special

/-- The same for the bodies that belong to some indices. -/
def Body.weights : List (Nat × Body) → Nat
  | [] => 0
  | (_, body) :: rest => body.weight + Body.weights rest

end

/-- The most segments that a step of a script can cause. -/
def Command.weight : Command → Nat
  | .request r => r.weight
  | _ => 0

end Script
end CoopSched
