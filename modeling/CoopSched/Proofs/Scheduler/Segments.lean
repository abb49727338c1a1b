import CoopSched.Proofs.Scheduler.Effects
import CoopSched.Scheduler.Segment

/-!
# Segments — what starting and ending one does, in equations

A segment starts with a strand that is taken from the front of the queue, and ends with its strand
queued again, blocked, or finished. These are the equations for the parts that only touch that
strand; what they set off afterwards comes later.
-/

namespace CoopSched

variable {V B : Type}

/-- The status in which a strand finishes. -/
def Status.finished (ok : Bool) : Status := if ok then .doneOk else .doneError

theorem Status.finished_terminal (ok : Bool) : (Status.finished ok).isTerminal = true := by
  cases ok <;> rfl

/-- What is left of a strand that finishes. -/
def Strand.finished (ok : Bool) (st : Strand V B) : Strand V B :=
  { st with
    status := .finished ok
    bridge := none
    children := st.children.close.1 }

/-- A strand that parks on the bridge in its slot, with or without its mark. -/
def Strand.parked (notified : Bool) (st : Strand V B) : Strand V B :=
  { st with status := if notified then .runnable else .blocked }

/-- A strand that gave up its worker. -/
def Strand.requeued (st : Strand V B) : Strand V B :=
  { st with status := .runnable, wakeup := some .yielded }

/-- A strand that is resumed through its bridge, or without one. -/
def Strand.begun (resumed : Bool) (st : Strand V B) : Strand V B :=
  { st with
    status := .running false
    body := none
    bridge := if resumed then none else st.bridge
    wakeup := if resumed then st.wakeup else none }

namespace Scheduler

variable {s : Scheduler V B}

/-! ## The end -/

/-- The scheduler when a strand has finished and nobody has been told. -/
def markFinished (s : Scheduler V B) (id : StrandId) (ok : Bool) : Scheduler V B :=
  let s := s.updateStrand id fun st => { st with status := .finished ok, bridge := none }
  let s := s.count (if ok then .finishedOk else .finishedErr)
  (s.emit id (.finished ok)).releaseChildren id

theorem markFinished_eq (s : Scheduler V B) (id : StrandId) (ok : Bool) :
    ∃ counters journal channel, s.markFinished id ok =
      { s with
        strands := s.strands.update id.number (Strand.finished ok)
        counters := counters
        journal := journal
        channel := channel } := by
  obtain ⟨journal, channel, hrel⟩ := releaseChildren_eq
    (((s.updateStrand id fun st => { st with status := .finished ok, bridge := none }).count
      (if ok then .finishedOk else .finishedErr)).emit id (.finished ok)) id
  refine ⟨s.counters.count (if ok then .finishedOk else .finishedErr), journal, channel, ?_⟩
  apply hrel.trans
  simp only [emit, count, updateStrand, Table.update_update]
  rfl

theorem finish_running {id : StrandId} {st : Strand V B} {n : Bool} (h : s.strand? id = some st)
    (hst : st.status = .running n) (outcome : Outcome V) :
    s.finish id outcome =
      ((s.markFinished id outcome.isOk).handOver id st outcome).1.retire id
        ((s.markFinished id outcome.isOk).handOver id st outcome).2 := by
  unfold finish
  simp only [h, hst, Status.finish?]
  rfl

/-- A running strand that parks is blocked, or ready at once if it has its mark. -/
theorem block_running {id : StrandId} {st : Strand V B} {n : Bool} (h : s.strand? id = some st)
    (hst : st.status = .running n) :
    ∃ counters journal channel, s.block id =
      { s with
        strands := s.strands.update id.number (Strand.parked n)
        queue := if n then s.queue.push id else s.queue
        counters := counters
        journal := journal
        channel := channel } := by
  unfold block
  cases n with
  | true =>
    simp only [strand?_emit, strand?_count, h, Option.bind_some, hst, Status.park?]
    exact ⟨_, _, _, rfl⟩
  | false =>
    simp only [strand?_emit, strand?_count, h, Option.bind_some, hst, Status.park?]
    exact ⟨_, _, _, rfl⟩

theorem requeue_running {id : StrandId} {st : Strand V B} {n : Bool} (h : s.strand? id = some st)
    (hst : st.status = .running n) :
    s.requeue id =
      { s with
        strands := s.strands.update id.number Strand.requeued
        queue := s.queue.push id } := by
  unfold requeue
  simp only [h, Option.bind_some, hst, Status.requeue?]
  rfl

/-! ## The start -/

theorem dispatch_idle (h : s.canDispatch = false) : s.dispatch = (s, none) := by
  unfold dispatch
  rw [if_neg (by simp [h])]

theorem pop_front {id : StrandId} {rest : List StrandId} (hcan : s.canDispatch = true)
    (hq : s.queue.waiting = id :: rest) :
    s.queue.pop =
      ({ s.queue with waiting := rest, running := s.queue.running + 1 }, .strand id) := by
  have hab : s.queue.aborted = false := by
    simp only [canDispatch, Bool.and_eq_true, Bool.not_eq_true'] at hcan
    exact hcan.1.1.2
  unfold ReadyQueue.pop
  rw [if_neg (by simp [hab]), hq]

theorem dispatch_front {id : StrandId} {rest : List StrandId} (hcan : s.canDispatch = true)
    (hq : s.queue.waiting = id :: rest) :
    s.dispatch =
      { s with
        queue := { s.queue with
          waiting := rest
          running := s.queue.running + 1 } }.beginSegment id := by
  unfold dispatch
  rw [if_pos hcan, pop_front hcan hq]

/-- A strand without a bridge in its slot is told what was left for it. -/
theorem beginSegment_plain {id : StrandId} {st : Strand V B} {body : B}
    (h : s.strand? id = some st) (hst : st.status = .runnable) (hslot : st.bridge = none)
    (hbody : st.body = some body) :
    ∃ counters journal channel, s.beginSegment id =
      ({ s with
          strands := s.strands.update id.number (Strand.begun false)
          held := s.held ++ [id]
          counters := counters
          journal := journal
          channel := channel }, some ⟨id, st.wakeup.getD .yielded, body⟩) := by
  unfold beginSegment
  simp only [h, Option.bind_some, hst, Status.dispatch?, Option.map_some, takeWakeup, hslot,
    Option.bind_none, hbody, updateStrand, count, emit, Table.update_update]
  exact ⟨_, _, _, rfl⟩

/-- A strand with a payload in its slot is told that, and the bridge is spent. -/
theorem beginSegment_resumed {id : StrandId} {st : Strand V B} {body : B} {b : BridgeId}
    {w : Wakeup V} (h : s.strand? id = some st) (hst : st.status = .runnable)
    (hslot : st.bridge = some b) (hb : s.bridge? b = some ⟨id, .holding w⟩)
    (hbody : st.body = some body) :
    ∃ counters journal channel, s.beginSegment id =
      ({ s with
          strands := s.strands.update id.number (Strand.begun true)
          bridges := s.bridges.update b.number fun _ => ⟨id, .spent⟩
          held := s.held ++ [id]
          counters := counters
          journal := journal
          channel := channel }, some ⟨id, w, body⟩) := by
  unfold beginSegment
  simp only [h, Option.bind_some, hst, Status.dispatch?, Option.map_some, takeWakeup, hslot,
    bridge?_emit, bridge?_count, bridge?_updateStrand, hb, Bridge.take?, hbody]
  simp only [updateStrand, setBridge, count, emit, Table.update_update]
  exact ⟨_, _, _, rfl⟩

end Scheduler
end CoopSched
