import CoopSched.Refusal
import CoopSched.Wakeup

/-!
# Completion bridges — a one-shot handoff

A bridge is issued to a running strand and resumes it once. Whoever comes first, a producer, a
timer or a shutdown, claims the bridge, and everybody after is turned away: that is all there is
to the race. The payload lies in the bridge until the strand is dispatched and takes it.

The three stages are one type, so "claimed, with a payload that is neither there nor taken" is
not a state: a closed bridge and one whose payload was taken are both `spent`.
-/

namespace CoopSched

/-- The number of a bridge. -/
structure BridgeId where
  number : Nat
deriving DecidableEq, Repr, Inhabited

/-- How far the handoff has come. -/
inductive Bridge.Stage (V : Type) where
  /-- Nobody has claimed the bridge. -/
  | pending
  /-- Claimed; the payload waits for the strand. -/
  | holding (payload : Wakeup V)
  /-- Claimed, and there is nothing to take any more. -/
  | spent
deriving DecidableEq, Repr, Inhabited

/-- A bridge, with the strand that it resumes. -/
structure Bridge (V : Type) where
  strand : StrandId
  stage : Bridge.Stage V := .pending
deriving DecidableEq, Repr, Inhabited

namespace Bridge

variable {V : Type}

/-- Has somebody claimed the bridge? -/
def isCompleted (b : Bridge V) : Bool :=
  match b.stage with
  | .pending => false
  | .holding _ | .spent => true

/-- Claims the bridge for a payload; `none` if it is claimed already. -/
def claim? (b : Bridge V) (payload : Wakeup V) : Option (Bridge V) :=
  match b.stage with
  | .pending => some { b with stage := .holding payload }
  | .holding _ | .spent => none

/-- Claims the bridge without a payload, so that late completers are turned away; `none` if it
    is claimed already. -/
def close? (b : Bridge V) : Option (Bridge V) :=
  match b.stage with
  | .pending => some { b with stage := .spent }
  | .holding _ | .spent => none

/-- Takes the payload out, if one is there. -/
def take? (b : Bridge V) : Option (Wakeup V × Bridge V) :=
  match b.stage with
  | .holding payload => some (payload, { b with stage := .spent })
  | .pending | .spent => none

/-- Completes a bridge whose scheduler no longer exists. The first completion still claims the
    bridge, yet nothing can be resumed by it. -/
def completeDetached (b : Bridge V) (payload : Wakeup V) : Bridge V × Except Refusal Unit :=
  ((b.claim? payload).getD b, .error .shutDown)

/-- The text that describes a bridge. -/
def describe (b : Bridge V) : String :=
  "CompletionBridge \x7b strand: " ++ b.strand.describe ++ ", completed: " ++
    toString b.isCompleted ++ " \x7d"

end Bridge

end CoopSched
