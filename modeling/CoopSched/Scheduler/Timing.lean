import CoopSched.Scheduler.Completion

/-!
# Timers of a scheduler

A timer is a completer like any other: at its deadline it races for its bridge, and loses quietly.
-/

namespace CoopSched

namespace Scheduler

variable {V B : Type}

/-- The timer with a number. -/
def timer? (s : Scheduler V B) (t : TimerId) : Option Timer := s.timers.get? t.number

/-- Arms a timer when the clock reads `now`; `none` if the clock has no such deadline. -/
def armTimer (s : Scheduler V B) (b : BridgeId) (d now : Duration) :
    Option (Scheduler V B × TimerId) :=
  if now.fitsClock d then
    some ({ s with timers := s.timers.add { bridge := b, duration := d } }, ⟨s.timers.next⟩)
  else none

/-- Disarms a timer through its handle. -/
def disarmTimer (s : Scheduler V B) (t : TimerId) : Scheduler V B :=
  { s with timers := s.timers.update t.number Timer.disarm }

/-- Gives up the handle of a timer. -/
def detachTimer (s : Scheduler V B) (t : TimerId) : Scheduler V B :=
  { s with timers := s.timers.update t.number Timer.detach }

/-- A timer without a handle looks whether there is anything left for it to do. -/
def pollTimer (s : Scheduler V B) (t : TimerId) : Scheduler V B :=
  match s.timer? t with
  | none => s
  | some timer =>
      let completed := ((s.bridge? timer.bridge).map (·.isCompleted)).getD true
      { s with timers := s.timers.update t.number (·.poll completed) }

/-- The deadline of a timer has come. -/
def expireTimer (s : Scheduler V B) (t : TimerId) : Scheduler V B :=
  match s.timer? t with
  | none => s
  | some timer =>
      let (timer', failure) := timer.expire
      let s := { s with timers := s.timers.update t.number fun _ => timer' }
      match failure with
      | none => s
      | some e => (s.tryComplete timer.bridge (.err e)).1

/-- The text of the panic for a deadline that the clock does not have. -/
def clockOverflow : Panic := .text "overflow when adding duration to instant"

end Scheduler

end CoopSched
