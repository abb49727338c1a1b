import CoopSched.Proofs.Scheduler.Places
import CoopSched.Proofs.Scheduler.Turns

/-!
# Early completions — a bridge that is completed before its strand has parked

Between obtaining a bridge and the end of its segment a strand still runs, and its bridge may be
completed already. The completion then leaves its payload in the bridge and a mark on the strand,
and the end of the segment sees the mark. A completion that comes right after the end of the segment
finds the strand blocked instead, and wakes it. The two orders take different ways through the
scheduler and lead to one and the same state (`early_completion`): nobody can tell later in which
order it was.

Each order is followed by itself to that state, `resumedAt` (`endSegment_marked`, `deliver_parked`).
-/

namespace CoopSched
namespace Scheduler

variable {V B : Type} {Ok : BridgeId → Wakeup V → Prop} {drained notified : Bool}
  {s : Scheduler V B} {ms : List (Move V B)} {k : StrandId} {b : BridgeId} {x : Bridge V}
  {st : Strand V B} {body : B} {step : Step V} {w : Wakeup V}

/-- A strand in the middle of a segment has parked on its bridge and was resumed with a payload: its
    body is back, it stands at the end of the queue, and its worker is free. -/
def resumedAt (s : Scheduler V B) (k : StrandId) (b : BridgeId) (body : B) (w : Wakeup V) :
    Scheduler V B :=
  let parked := ((s.setBridge b ⟨k, .holding w⟩).updateStrand k fun st =>
    { st with status := .runnable, body := some body }).count .parked |>.emit k .parked
  (((parked.count .resumed).emit k .resumed).enqueue k).release k

/-! ## Completing -/

/-- A bridge that nobody has claimed is claimed, and its strand is woken. -/
theorem deliver_pending (hb : s.bridge? b = some ⟨k, .pending⟩) (w : Wakeup V) :
    s.deliver b w = (s.setBridge b ⟨k, .holding w⟩).wakeWith cancel k := by
  unfold deliver deliverWith
  rw [hb]
  rfl

/-- A strand that runs is marked. -/
theorem wakeWith_running (hst : s.strand? k = some st) (alive : s.terminated = false)
    (hs : st.status = .running notified) : s.wakeWith cancel k =
      (s.updateStrand k fun st => { st with status := .running true }, .ok ()) := by
  unfold wakeWith
  rw [if_neg (by simp [alive]), hst]
  dsimp only
  rw [hs]
  rfl

/-- A strand that is blocked goes to the end of the queue. -/
theorem wakeWith_blocked (hst : s.strand? k = some st) (alive : s.terminated = false)
    (hs : st.status = .blocked) : s.wakeWith cancel k =
      ((((s.updateStrand k fun st => { st with status := .runnable }).count .resumed).emit k
        .resumed).enqueue k, .ok ()) := by
  unfold wakeWith
  rw [if_neg (by simp [alive]), hst]
  dsimp only
  rw [hs]
  rfl

/-! ## Parking -/

/-- A segment that parks, or yields with a bridge outstanding, blocks its strand. -/
theorem endSegment_parks (hst : s.strand? k = some st) (hslot : st.bridge = some b)
    (hopen : s.isCancelling = false) (hstep : step = .yield ∨ step = .park) (body : B) :
    s.endSegment k body step = ((s.keepBody k body).block k).release k := by
  unfold endSegment follow
  rw [hopen, hst]
  rcases hstep with rfl | rfl <;> simp [hslot]

theorem block_unmarked (hst : s.strand? k = some st) (hs : st.status = .running false) :
    s.block k = ((s.count .parked).emit k .parked).updateStrand k fun st =>
      { st with status := .blocked } := by
  unfold block
  simp only [strand?_emit, strand?_count, hst, Option.bind_some, hs, Status.park?]
  rfl

/-- With the mark set the strand is resumed at once. -/
theorem block_marked (hst : s.strand? k = some st) (hs : st.status = .running true) :
    s.block k = (((((s.count .parked).emit k .parked).updateStrand k fun st =>
      { st with status := .runnable }).count .resumed).emit k .resumed).enqueue k := by
  unfold block
  simp only [strand?_emit, strand?_count, hst, Option.bind_some, hs, Status.park?]
  rfl

/-! ## The two orders -/

/-- A strand in the middle of a segment whose bridge nobody has completed, and that may park on
    it. -/
structure Waiting (s : Scheduler V B) (k : StrandId) (st : Strand V B) (b : BridgeId) : Prop where
  alive : s.terminated = false
  uncut : s.isCancelling = false
  row : s.strand? k = some st
  running : st.status = .running false
  slot : st.bridge = some b
  pending : s.bridge? b = some ⟨k, .pending⟩

/-- First the bridge is completed: the end of the segment sees the mark. -/
theorem Waiting.completed_first (h : Waiting s k st b) (hstep : step = .yield ∨ step = .park)
    (body : B) (w : Wakeup V) : (s.deliver b w).2 = .ok () ∧
      (s.deliver b w).1.endSegment k body step = s.resumedAt k b body w := by
  have hclaimed : (s.setBridge b ⟨k, .holding w⟩).strand? k = some st := h.row
  rw [deliver_pending h.pending, wakeWith_running hclaimed h.alive h.running]
  refine ⟨rfl, ?_⟩
  have hmarked : ((s.setBridge b ⟨k, .holding w⟩).updateStrand k fun st =>
      { st with status := .running true }).strand? k =
        some { st with status := .running true } := by
    rw [strand?_updateStrand_self, hclaimed, Option.map_some]
  have hkept := (keepBody_strand? hmarked body k).trans (if_pos rfl)
  rw [endSegment_parks hmarked h.slot h.uncut hstep, block_marked hkept rfl]
  simp only [resumedAt, keepBody, updateStrand, setBridge, count, emit, enqueue, release,
    Table.update_update]
  rfl

/-- The strand has parked and is blocked, and its worker is free. -/
def parkedAt (s : Scheduler V B) (k : StrandId) (body : B) : Scheduler V B :=
  ((((s.keepBody k body).count .parked).emit k .parked).updateStrand k fun st =>
    { st with status := .blocked }).release k

/-- First the segment ends: the completion finds the strand blocked. -/
theorem Waiting.ended_first (h : Waiting s k st b) (hstep : step = .yield ∨ step = .park)
    (body : B) (w : Wakeup V) :
    (s.endSegment k body step).deliver b w = (s.resumedAt k b body w, .ok ()) := by
  have hkept := (keepBody_strand? h.row body k).trans (if_pos rfl)
  have hparked : s.endSegment k body step = s.parkedAt k body := by
    rw [endSegment_parks h.row h.slot h.uncut hstep, block_unmarked hkept h.running]
    rfl
  have hpending : (s.parkedAt k body).bridge? b = some ⟨k, .pending⟩ := h.pending
  have hblocked : ((s.parkedAt k body).setBridge b ⟨k, .holding w⟩).strand? k =
      some { st with status := .blocked, body := some body } := by
    show (((s.keepBody k body).emit k .parked).updateStrand k fun st =>
      { st with status := .blocked }).strand? k = _
    rw [strand?_updateStrand_self, strand?_emit, hkept, Option.map_some]
  rw [hparked, deliver_pending hpending, wakeWith_blocked hblocked h.alive rfl]
  simp only [resumedAt, parkedAt, keepBody, updateStrand, setBridge, count, emit, enqueue, release,
    Table.update_update]
  rfl

/-! ## The law -/

/-- Between moves, the bridge in the slot of a held strand tells whether the strand is marked. -/
theorem Stable.waiting (hs : Stable Ok drained s) (hopen : s.isCancelling = false)
    (hheld : k ∈ s.held) (hst : s.strand? k = some st) (hslot : st.bridge = some b)
    (hb : s.bridge? b = some x) (hx : x.isCompleted = false) : Waiting s k st b := by
  obtain ⟨st', hst', hrun⟩ := (hs.placed.busy_iff k).mp hheld
  obtain rfl := Option.some.inj (hst.symm.trans hst')
  obtain ⟨notified, hnotified⟩ := Status.exists_of_running hrun
  have hfits := hs.placed.slot k st hst
  unfold SlotFits at hfits
  rw [hslot, hnotified] at hfits
  cases notified with
  | true =>
    obtain ⟨w, hw⟩ := hfits
    rw [Option.some.inj (hb.symm.trans hw)] at hx
    cases hx
  | false => exact ⟨hs.placed.alive hst hrun, hopen, hst, hnotified, hslot, hfits⟩

/-- A strand has parked in a state and was resumed. -/
structure Resumed (s s' : Scheduler V B) (k : StrandId) (b : BridgeId) (body : B)
    (w : Wakeup V) : Prop where
  row : ∃ st, s'.strand? k = some st ∧ st.status = .runnable ∧ st.bridge = some b ∧
    st.body = some body
  payload : s'.bridge? b = some ⟨k, .holding w⟩
  /-- It stands at the end of the queue, and there once. -/
  waiting : s'.queue.waiting = s.queue.waiting ++ [k] ∧ k ∉ s.queue.waiting
  held : s'.held = s.held.erase k
  counters : s'.counters = (s.counters.count .parked).count .resumed
  journal : s'.journal.toList =
    s.journal.toList ++ [.event ⟨k, .parked⟩, .event ⟨k, .resumed⟩]

theorem Waiting.resumed (h : Waiting s k st b) (hp : Placed s.held s) (body : B)
    (w : Wakeup V) : Resumed s (s.resumedAt k b body w) k b body w where
  row := by
    refine ⟨{ st with status := .runnable, body := some body }, ?_, rfl, h.slot, rfl⟩
    show ((s.setBridge b ⟨k, .holding w⟩).updateStrand k fun st =>
      { st with status := .runnable, body := some body }).strand? k = _
    rw [strand?_updateStrand_self, strand?_setBridge, h.row, Option.map_some]
  payload := bridge?_setBridge_self h.pending _
  waiting := by
    refine ⟨rfl, fun hmem => ?_⟩
    obtain ⟨st', hst', hready⟩ := hp.waiting_runnable k hmem
    rw [← Option.some.inj (h.row.symm.trans hst'), h.running] at hready
    cases hready
  held := rfl
  counters := rfl
  journal := by
    show ((s.journal.push _).push _).toList = _
    rw [Array.toList_push, Array.toList_push, List.append_assoc]
    rfl

/-- **A completion just before its strand parks is as good as one just after.** Both are accepted,
    and either way the strand is resumed: the two runs lead to the same state. -/
theorem early_completion (hs : Initial s) (ha : s.Admissible ms)
    (hopen : (s.run ms).isCancelling = false) (hheld : k ∈ (s.run ms).held)
    (hst : (s.run ms).strand? k = some st) (hslot : st.bridge = some b)
    (hb : (s.run ms).bridge? b = some x) (hx : x.isCompleted = false)
    (hstep : step = .yield ∨ step = .park) (body : B) (r : Outcome V) :
    s.run (ms ++ [.complete b r, .endSegment k body step]) =
        s.run (ms ++ [.endSegment k body step, .complete b r]) ∧
      s.Admissible (ms ++ [.complete b r, .endSegment k body step]) ∧
      s.Admissible (ms ++ [.endSegment k body step, .complete b r]) ∧
      ((s.run ms).complete b r).2 = .ok () ∧
      (((s.run ms).endSegment k body step).complete b r).2 = .ok () ∧
      Resumed (s.run ms) (s.run (ms ++ [.complete b r, .endSegment k body step])) k b body
        (.completed r) := by
  have hstable := hs.stable_run ha
  have hwaiting := hstable.waiting hopen hheld hst hslot hb hx
  obtain ⟨hok, hfirst⟩ := hwaiting.completed_first hstep body (.completed r)
  have hlast := hwaiting.ended_first hstep body (.completed r)
  have hresumed := hwaiting.resumed hstable.placed body (.completed r)
  have hheld' : k ∈ ((s.run ms).complete b r).1.held := by
    rw [complete, deliver_pending hwaiting.pending, wakeWith_running
      (s := (s.run ms).setBridge b ⟨k, .holding (.completed r)⟩) hwaiting.row hwaiting.alive
      hwaiting.running]
    exact hheld
  rw [run_append, run_append]
  refine ⟨hfirst.trans (congrArg Prod.fst hlast).symm, ?_, ?_, hok, congrArg Prod.snd hlast, ?_⟩
  · exact admissible_append.mpr ⟨ha, trivial, hheld', trivial⟩
  · exact admissible_append.mpr ⟨ha, hheld, trivial, trivial⟩
  · show Resumed _ (((s.run ms).deliver b (.completed r)).1.endSegment k body step) k b body _
    rw [hfirst]
    exact hresumed

/-- A strand is answered while it still runs, with another one before it in the queue. -/
theorem early_completion_queued :
    let ms : List (Move Nat Unit) := [.spawn () none, .spawn () none, .dispatch, .park ⟨1⟩]
    let early := ms ++ [.complete ⟨1⟩ (.ok 7), .endSegment ⟨1⟩ () .park]
    let late := ms ++ [.endSegment ⟨1⟩ () .park, .complete ⟨1⟩ (.ok 7)]
    single.run early = single.run late ∧ single.Admissible early ∧ single.Admissible late ∧
      ((single.run ms).complete ⟨1⟩ (.ok 7)).2 = .ok () ∧
      (((single.run ms).endSegment ⟨1⟩ () .park).complete ⟨1⟩ (.ok 7)).2 = .ok () ∧
      Resumed (single.run ms) (single.run early) ⟨1⟩ ⟨1⟩ () (.completed (.ok 7)) ∧
      (single.run early).queue.waiting = [⟨2⟩, ⟨1⟩] := by
  intro ms early late
  have ha : single.Admissible ms := by simp [ms, Admissible, Allows]
  have hheld : ⟨1⟩ ∈ (single.run ms).held := List.mem_singleton.mpr rfl
  obtain ⟨hsame, hearly, hlate, hok, hok', hresumed⟩ :=
    early_completion single_initial ha rfl hheld rfl rfl rfl rfl (Or.inr rfl) () (.ok 7)
  exact ⟨hsame, hearly, hlate, hok, hok', hresumed, rfl⟩

end Scheduler
end CoopSched
