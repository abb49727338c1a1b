import CoopSched.Bridge

/-!
# Timers — a second completer for a bridge

A timer is armed with a bridge and a duration. It ends in one of three ways: it is disarmed; its
deadline comes, and then it completes the bridge with a failure unless somebody was faster; or
its handle was given up and the bridge turns out to be completed, so that nothing is left to do.
Giving up the handle alone does not disarm it.
-/

namespace CoopSched

/-- The number of a timer. -/
structure TimerId where
  number : Nat
deriving DecidableEq, Repr, Inhabited

/-- A span of time: whole seconds, and nanoseconds below one second. -/
structure Duration where
  seconds : Nat
  nanoseconds : Nat
deriving DecidableEq, Repr, Inhabited

namespace Duration

/-- Seconds and any number of nanoseconds together. -/
def ofParts (seconds nanoseconds : Nat) : Duration :=
  ⟨seconds + nanoseconds / 1000000000, nanoseconds % 1000000000⟩

/-- Is there a moment on the clock that lies so far ahead of `now`? The clock counts seconds in a
    signed word of 64 bits. -/
def fitsClock (now d : Duration) : Bool :=
  (ofParts (now.seconds + d.seconds) (now.nanoseconds + d.nanoseconds)).seconds < Nat.pow 2 63

/-- The decimals of `part` over `unit`, a power of ten, without zeros at the end; with the point
    in front of them, if there are any. -/
def decimals (part unit : Nat) : String :=
  if part = 0 then ""
  else
    let digits := (toString (unit + part)).toList.drop 1
    "." ++ String.ofList (digits.reverse.dropWhile (· == '0')).reverse

/-- The text of a span: in the largest unit of which it holds at least one, with as many decimals
    as it needs. -/
def text (d : Duration) : String :=
  if d.seconds ≠ 0 then toString d.seconds ++ decimals d.nanoseconds 1000000000 ++ "s"
  else if d.nanoseconds ≥ 1000000 then
    toString (d.nanoseconds / 1000000) ++ decimals (d.nanoseconds % 1000000) 1000000 ++ "ms"
  else if d.nanoseconds ≥ 1000 then
    toString (d.nanoseconds / 1000) ++ decimals (d.nanoseconds % 1000) 1000 ++ "µs"
  else toString d.nanoseconds ++ "ns"

end Duration

/-- What a timer still has to do. -/
inductive Timer.Stage where
  /-- It waits, and its handle can disarm it. -/
  | armed
  /-- It waits, and nobody can disarm it any more. -/
  | detached
  /-- Nothing. -/
  | ended
deriving DecidableEq, Repr, Inhabited

/-- A timer. -/
structure Timer where
  bridge : BridgeId
  duration : Duration
  stage : Timer.Stage := .armed
deriving DecidableEq, Repr, Inhabited

namespace Timer

/-- The failure with which a timer completes its bridge. -/
def failure (t : Timer) : Failure := ⟨.timedOut, "no completion within " ++ t.duration.text⟩

/-- Stops the timer through its handle. -/
def disarm (t : Timer) : Timer :=
  match t.stage with
  | .armed => { t with stage := .ended }
  | .detached | .ended => t

/-- Gives up the handle. -/
def detach (t : Timer) : Timer :=
  match t.stage with
  | .armed => { t with stage := .detached }
  | .detached | .ended => t

/-- The timer looks whether its bridge is completed, which it does once its handle is gone. -/
def poll (t : Timer) (completed : Bool) : Timer :=
  match t.stage with
  | .detached => if completed then { t with stage := .ended } else t
  | .armed | .ended => t

/-- The deadline has come; the failure to deliver, unless the timer had ended before. -/
def expire (t : Timer) : Timer × Option Failure :=
  match t.stage with
  | .armed | .detached => ({ t with stage := .ended }, some t.failure)
  | .ended => (t, none)

end Timer

end CoopSched
