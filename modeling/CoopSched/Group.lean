import CoopSched.Bridge

/-!
# Child groups — a parent and the children it waits for

Each strand owns one group. Children report into it when they finish, and the parent arms it with
a bridge when it waits. Whoever sees the wait condition first, the arming parent or the last
child, fires the waiter, so a wait is fired once; the group hands out what is to be delivered and
leaves the delivery to its caller.

What was settled and has not been delivered is kept in settling order. The first failure among
*those* is kept beside it, and leaves with them: a failure that went out with one batch can not
spoil a later `allOk` wait.
-/

namespace CoopSched

/-- What a waiting parent is to receive, and through which bridge. -/
structure Delivery (V : Type) where
  bridge : BridgeId
  payload : Wakeup V
deriving DecidableEq, Repr, Inhabited

/-- The children of one strand. -/
structure Group (V : Type) where
  /-- Children spawned and not yet settled. -/
  outstanding : Nat := 0
  /-- Outcomes not yet delivered, in settling order. -/
  settled : List (ChildOutcome V) := []
  /-- The earliest failure among `settled`. -/
  firstFailure : Option Failure := none
  /-- The wait that the parent is parked on. -/
  waiter : Option (WaitMode × BridgeId) := none
  /-- The parent has finished; nothing will wait here again. -/
  closed : Bool := false
deriving DecidableEq, Repr, Inhabited

/-- What became of a child's outcome. -/
inductive Settlement (V : Type) where
  /-- The group took it; perhaps a wait is satisfied now. -/
  | recorded (fired : Option (Delivery V))
  /-- The group was closed and hands it back. -/
  | returned (outcome : Outcome V)
deriving DecidableEq, Repr, Inhabited

namespace Group

variable {V : Type}

/-- One more child is outstanding. -/
def add (g : Group V) : Group V := { g with outstanding := g.outstanding + 1 }

/-- Takes back an `add` whose child was never created. -/
def remove (g : Group V) : Group V := { g with outstanding := g.outstanding - 1 }

/-- Is a wait of this kind satisfied? Waiting for any child is satisfied also when there is no
    child left to wait for. -/
def isSatisfied (g : Group V) : WaitMode → Bool
  | .all | .allOk => g.outstanding == 0
  | .any => !g.settled.isEmpty || g.outstanding == 0

/-- What a wait of this kind delivers: everything settled, or under `allOk` the first failure
    in its place. -/
def batch (g : Group V) : WaitMode → Outcome (List (ChildOutcome V))
  | .allOk =>
      match g.firstFailure with
      | some e => .err e
      | none => .ok g.settled
  | .all | .any => .ok g.settled

/-- Fires the waiter if its wait is satisfied. The batch goes out and takes its first failure
    along. -/
def fire (g : Group V) : Group V × Option (Delivery V) :=
  match g.waiter with
  | none => (g, none)
  | some (mode, bridge) =>
      if g.isSatisfied mode then
        ({ g with waiter := none, settled := [], firstFailure := none },
          some ⟨bridge, .children (g.batch mode)⟩)
      else (g, none)

/-- The parent parks on its children. A wait that is armed already is replaced. -/
def arm (g : Group V) (mode : WaitMode) (bridge : BridgeId) : Group V × Option (Delivery V) :=
  { g with waiter := some (mode, bridge) }.fire

/-- A child has finished. -/
def settle (g : Group V) (id : StrandId) (outcome : Outcome V) : Group V × Settlement V :=
  let g := { g with outstanding := g.outstanding - 1 }
  if g.closed then (g, .returned outcome)
  else
    let g := { g with
      settled := g.settled ++ [ChildOutcome.mk id outcome]
      firstFailure := g.firstFailure <|> outcome.failure? }
    (g.fire.1, .recorded g.fire.2)

/-- The parent has finished: drops its wait and answers the outcomes that it never received. -/
def close (g : Group V) : Group V × List (ChildOutcome V) :=
  ({ g with closed := true, waiter := none, firstFailure := none, settled := [] }, g.settled)

end Group

end CoopSched
