import CoopSched.Outcome
import CoopSched.Strand.Id

/-!
# Events — the life of strands, told to an observer
-/

namespace CoopSched

/-- What happened to a strand. -/
inductive Happening where
  | created
  /-- It was created and then refused by the ready queue. -/
  | rejected
  | dispatched
  | parked
  | resumed
  | finished (ok : Bool)
  | cancelled
  /-- It failed, and nobody was there to receive the failure. -/
  | unhandled (failure : Failure)
deriving DecidableEq, Repr, Inhabited

/-- A happening, with the strand it happened to. -/
structure Event where
  strand : StrandId
  happening : Happening
deriving DecidableEq, Repr, Inhabited

end CoopSched
