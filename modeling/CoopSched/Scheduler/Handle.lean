import CoopSched.Scheduler.Basic

/-!
# Handles — a strand as seen by whoever spawned it
-/

namespace CoopSched

namespace Scheduler

variable {V B : Type}

/-- Joins a strand, which takes its outcome; `none` while it has not finished. -/
def join (s : Scheduler V B) (id : StrandId) : Option (Scheduler V B × Outcome V) :=
  match s.strand? id with
  | none => none
  | some st =>
      (st.join id).map fun (st', r) => (s.updateStrand id fun _ => st', r)

/-- Takes the events out of the channel, if there is one. -/
def drainChannel (s : Scheduler V B) : Option (Scheduler V B × List Event) :=
  s.channel.map fun c =>
    let (c, events) := c.drain
    ({ s with channel := some c }, events)

end Scheduler

end CoopSched
