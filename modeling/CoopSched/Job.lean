import CoopSched.Refusal

/-!
# Invocation jobs — ordered results of many invocations

A job has one slot per index. Each slot is resolved once, in any order, with a value or a
failure. The submission that resolves the last one fires the job: it answers the values in index
order, or the failure that was recorded first in time, whatever its index. A failure does not
stop the other invocations; their results are taken and thrown away.
-/

namespace CoopSched

/-- The number of a job. -/
structure JobId where
  number : Nat
deriving DecidableEq, Repr, Inhabited

/-- The place for one result. -/
inductive Slot (V : Type) where
  | unresolved
  | value (v : V)
  | failed
  /-- The value has gone into the answer. -/
  | taken
deriving DecidableEq, Repr, Inhabited

/-- A job under way. -/
structure Job (V : Type) where
  slots : List (Slot V)
  /-- The index that is claimed next. -/
  cursor : Nat := 0
  /-- Slots not yet resolved. -/
  remaining : Nat
  /-- The failure recorded first, with its index. -/
  firstFailure : Option (Nat × Failure) := none
  /-- The answer has not been given yet. -/
  pending : Bool := true
deriving DecidableEq, Repr, Inhabited

namespace Slot

variable {V : Type}

/-- Is the result still missing? -/
def isUnresolved : Slot V → Bool
  | .unresolved => true
  | _ => false

/-- The slot that a result leaves. -/
def ofOutcome : Outcome V → Slot V
  | .ok v => .value v
  | .err _ => .failed

/-- The value in the slot. -/
def value? : Slot V → Option V
  | .value v => some v
  | .unresolved | .failed | .taken => none

end Slot

namespace Job

variable {V : Type}

/-- The number of indices. -/
def length (j : Job V) : Nat := j.slots.length

/-- Has the job no index at all? -/
def isEmpty (j : Job V) : Bool := j.slots.isEmpty

/-- Has the job given its answer? -/
def isComplete (j : Job V) : Bool := !j.pending

/-- All values in index order, and the slots without them. -/
def takeValues (j : Job V) : Job V × Outcome (List V) :=
  ({ j with slots := j.slots.map fun _ => .taken },
    match j.slots.mapM Slot.value? with
    | some vs => .ok vs
    | none => .err ⟨.failed, "invocation finished with an unresolved slot"⟩)

/-- Gives the answer. -/
def finish (j : Job V) : Job V × Outcome (List V) :=
  match j.firstFailure with
  | some (_, e) => ({ j with pending := false }, .err e)
  | none => ({ j.takeValues.1 with pending := false }, j.takeValues.2)

/-- A job over `length` indices. A job without any has its answer at once. -/
def start (length : Nat) : Job V × Option (Outcome (List V)) :=
  let j : Job V := { slots := List.replicate length .unresolved, remaining := length }
  if length = 0 then (j.finish.1, some j.finish.2) else (j, none)

/-- Claims the next index. -/
def claim (j : Job V) : Job V × Option Nat :=
  ({ j with cursor := j.cursor + 1 }, if j.cursor < j.length then some j.cursor else none)

/-- Resolves an index. The last one brings the answer. -/
def submit (j : Job V) (index : Nat) (r : Outcome V) :
    Except Refusal (Job V × Option (Outcome (List V))) :=
  match j.slots[index]? with
  | none => .error (.indexOutOfRange index j.length)
  | some slot =>
      if slot.isUnresolved then
        let j' := { j with
          slots := j.slots.set index (.ofOutcome r)
          firstFailure := j.firstFailure <|> r.failure?.map (index, ·)
          remaining := j.remaining - 1 }
        if j.remaining = 1 then .ok (j'.finish.1, some j'.finish.2) else .ok (j', none)
      else .error (.slotResolved index)

/-- The text that describes a job. -/
def describe (j : Job V) : String :=
  "InvocationJob \x7b len: " ++ toString j.length ++ ", remaining: " ++ toString j.remaining ++
    ", callback_pending: " ++ toString j.pending ++ " \x7d"

end Job

end CoopSched
