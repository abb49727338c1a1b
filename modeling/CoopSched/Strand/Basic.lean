import CoopSched.Group
import CoopSched.Job
import CoopSched.Strand.Status
import CoopSched.Text.Quoted

/-!
# Strands

A strand is a body that is run in segments, and everything that is known about it: where it is in
its life, what its next segment is to be told, the bridge it waits on, the children it waits for,
and who receives its outcome. The receiver is exactly one of three: the job that it was launched
for, the parent that spawned it, or whoever holds its handle.

The bridge slot holds at most one bridge; that is what "already parked" means.
-/

namespace CoopSched

/-- The slot of a job that a strand's outcome resolves. -/
structure Hook where
  job : JobId
  index : Nat
deriving DecidableEq, Repr, Inhabited

/-- A strand with payloads in `V` and bodies in `B`. -/
structure Strand (V B : Type) where
  name : Option String
  status : Status := .runnable
  /-- What is left to run. A worker holds it during a segment. -/
  body : Option B
  /-- What the next segment is told if no bridge says it. -/
  wakeup : Option (Wakeup V) := some .start
  /-- The outstanding bridge. -/
  bridge : Option BridgeId := none
  parent : Option StrandId := none
  children : Group V := {}
  hook : Option Hook := none
  /-- The outcome, until somebody takes it. -/
  outcome : Option (Outcome V) := none
  /-- The strand has finished, and whoever waited for that may go on. -/
  complete : Bool := false

namespace Strand

variable {V B : Type}

/-- A strand that has not run yet. -/
def create (body : B) (name : Option String) (parent : Option StrandId) (hook : Option Hook) :
    Strand V B :=
  { name := name, body := some body, parent := parent, hook := hook }

/-- Publishes that the strand has finished, and its outcome if nobody has received it. -/
def publish (s : Strand V B) (kept : Option (Outcome V)) : Strand V B :=
  { s with outcome := kept <|> s.outcome, complete := true }

/-- Hands the outcome out. It is handed out once. -/
def take (s : Strand V B) (id : StrandId) : Strand V B × Except Refusal (Outcome V) :=
  match s.outcome with
  | some r => ({ s with outcome := none }, .ok r)
  | none => (s, .error (.resultTaken id))

/-- Joins a finished strand; `none` while it has not finished. An outcome that is gone is
    answered by a failure. -/
def join (s : Strand V B) (id : StrandId) : Option (Strand V B × Outcome V) :=
  if s.complete then
    match s.take id with
    | (s, .ok r) => some (s, r)
    | (s, .error e) => some (s, .err e.toFailure)
  else none

/-- A name as descriptions give it. -/
def describeName : Option String → String
  | some name => "Some(" ++ Text.quoted name ++ ")"
  | none => "None"

/-- The text that describes a strand. -/
def describe (s : Strand V B) (id : StrandId) : String :=
  "RawStrand \x7b id: " ++ id.describe ++ ", name: " ++ describeName s.name ++ ", state: " ++
    s.status.name ++ " \x7d"

/-- The text that describes a handle on a strand. -/
def describeHandle (s : Strand V B) (id : StrandId) : String :=
  "StrandHandle \x7b id: " ++ id.describe ++ ", state: " ++ s.status.name ++ " \x7d"

end Strand

end CoopSched
