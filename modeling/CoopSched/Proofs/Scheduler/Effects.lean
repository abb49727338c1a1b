import CoopSched.Proofs.Scheduler.Rows

/-!
# Effects — what the parts of a move do, each in one equation

Waking a strand, cutting it off, spawning one: each of them touches several fields, in several
steps. The equations here say what has become of each field when the part is through. What the
observers are told is left open (`journal`, `channel`), for nothing in the scheduler reads it.
-/

namespace CoopSched

variable {V B : Type}

/-- The bridge when it is closed, whether or not somebody had claimed it. -/
def Bridge.shut (b : Bridge V) : Bridge V := b.close?.getD b

@[simp] theorem Bridge.shut_strand (b : Bridge V) : b.shut.strand = b.strand := by
  unfold shut close?
  cases b.stage <;> rfl

/-- What is left of a strand that is cut off. -/
def Strand.cut (st : Strand V B) : Strand V B :=
  { st with
    status := .doneError
    body := none
    bridge := none
    children := st.children.close.1 }

/-- A strand that a completion has reached. -/
def Strand.woken (st : Strand V B) : Strand V B := { st with status := st.status.wake.1 }

theorem Status.wake_terminal (st : Status) : st.wake.1.isTerminal = st.isTerminal := by
  cases st <;> rfl

theorem Status.wake_wake (st : Status) : st.wake.1.wake.1 = st.wake.1 := by
  cases st <;> rfl

theorem Status.exists_of_running {st : Status} (h : st.isRunning = true) :
    ∃ m, st = .running m := by
  cases st with
  | running m => exact ⟨m, rfl⟩
  | _ => cases h

theorem Status.not_terminal_of_running {st : Status} (h : st.isRunning = true) :
    st.isTerminal = false := by
  cases st <;> first | rfl | cases h

theorem Status.not_ready_of_running {st : Status} (h : st.isRunning = true) : st ≠ .runnable := by
  rintro rfl
  cases h

theorem Status.not_blocked_of_running {st : Status} (h : st.isRunning = true) :
    st ≠ .blocked := by
  rintro rfl
  cases h

theorem Status.not_running_of_terminal {st : Status} (h : st.isTerminal = true) :
    st.isRunning = false := by
  cases st <;> first | rfl | cases h

theorem Strand.woken_terminal (st : Strand V B) :
    st.woken.status.isTerminal = st.status.isTerminal :=
  st.status.wake_terminal

theorem Strand.woken_running (st : Strand V B) :
    st.woken.status.isRunning = st.status.isRunning := by
  show st.status.wake.1.isRunning = _
  cases st.status <;> rfl

theorem Strand.woken_ready {st : Strand V B} (hs : st.status = .blocked ∨ st.status = .runnable) :
    st.woken.status = .runnable := by
  rcases hs with hs | hs <;> simp [Strand.woken, hs, Status.wake]

namespace Scheduler

variable {s : Scheduler V B}

theorem updateStrand_congr {id : StrandId} {f g : Strand V B → Strand V B}
    (h : ∀ st, s.strand? id = some st → f st = g st) :
    s.updateStrand id f = s.updateStrand id g := by
  unfold updateStrand
  rw [Table.update_congr h]

/-! ## Waking -/

/-- Wakes a strand while there are workers. -/
def wake (s : Scheduler V B) (id : StrandId) : Scheduler V B :=
  (s.wakeWith (fun s _ _ => (s, false)) id).1

theorem wakeWith_of_alive (h : s.terminated = false) (nested : Cancel V B) (id : StrandId) :
    (s.wakeWith nested id).1 = s.wake id := by
  unfold wake wakeWith
  rw [if_neg (by simp [h]), if_neg (by simp [h])]

theorem wake_none {id : StrandId} (h : s.strand? id = none) : s.wake id = s := by
  unfold wake wakeWith
  split
  · rfl
  · rw [h]

/-- While there are workers a blocked strand goes to the end of the queue, a running one gets its
    mark, and no other strand notices. -/
theorem wake_eq {id : StrandId} {st : Strand V B} (alive : s.terminated = false)
    (h : s.strand? id = some st) :
    ∃ counters journal channel, s.wake id =
      { s with
        strands := s.strands.update id.number Strand.woken
        queue := if st.status = .blocked then s.queue.push id else s.queue
        counters := counters
        journal := journal
        channel := channel } := by
  have hrows : ∀ status, st.status.wake.1 = status →
      s.strands.update id.number Strand.woken =
        s.strands.update id.number fun st' => { st' with status := status } := by
    intro status hstatus
    refine Table.update_congr fun st' hst' => ?_
    rw [← Option.some.inj (h.symm.trans hst'), ← hstatus]
    rfl
  rw [hrows _ rfl]
  unfold wake wakeWith
  rw [if_neg (by simp [alive]), h]
  dsimp only
  cases st.status <;> exact ⟨_, _, _, rfl⟩

/-- Of the rows only that of the strand that is woken changes, if it is there. -/
theorem wake_row (alive : s.terminated = false) (id : StrandId) :
    ∃ queue counters journal channel, s.wake id =
      { s with
        strands := s.strands.update id.number Strand.woken
        queue := queue
        counters := counters
        journal := journal
        channel := channel } := by
  cases hst : s.strand? id with
  | none =>
    have hrows : s.strands.update id.number Strand.woken = s.strands :=
      Table.update_eq_self fun st hst' => by cases hst.symm.trans hst'
    exact ⟨s.queue, s.counters, s.journal, s.channel, by rw [hrows, wake_none hst]⟩
  | some st =>
    obtain ⟨counters, journal, channel, heq⟩ := wake_eq alive hst
    exact ⟨_, counters, journal, channel, heq⟩

/-! ## Reports -/

theorem reportUnhandled_eq (s : Scheduler V B) (id : StrandId) (outcome : Outcome V) :
    ∃ journal channel, s.reportUnhandled id outcome =
      { s with journal := journal, channel := channel } := by
  cases outcome with
  | ok v => exact ⟨s.journal, s.channel, rfl⟩
  | err e => exact ⟨_, _, rfl⟩

theorem strand?_reportUnhandled (s : Scheduler V B) (id : StrandId) (outcome : Outcome V)
    (k : StrandId) : (s.reportUnhandled id outcome).strand? k = s.strand? k := by
  obtain ⟨journal, channel, heq⟩ := s.reportUnhandled_eq id outcome
  rw [heq]
  rfl

theorem queue_reportUnhandled (s : Scheduler V B) (id : StrandId) (outcome : Outcome V) :
    (s.reportUnhandled id outcome).queue = s.queue := by
  obtain ⟨journal, channel, heq⟩ := s.reportUnhandled_eq id outcome
  rw [heq]

theorem live_reportUnhandled (s : Scheduler V B) (id : StrandId) (outcome : Outcome V) :
    (s.reportUnhandled id outcome).live = s.live := by
  obtain ⟨journal, channel, heq⟩ := s.reportUnhandled_eq id outcome
  rw [heq]

theorem foldl_reportUnhandled_eq (s : Scheduler V B) (left : List (ChildOutcome V)) :
    ∃ journal channel, left.foldl (fun s c => s.reportUnhandled c.id c.outcome) s =
      { s with journal := journal, channel := channel } := by
  induction left generalizing s with
  | nil => exact ⟨s.journal, s.channel, rfl⟩
  | cons c rest ih =>
    obtain ⟨journal, channel, hc⟩ := s.reportUnhandled_eq c.id c.outcome
    obtain ⟨journal', channel', hrest⟩ := ih { s with journal := journal, channel := channel }
    exact ⟨journal', channel', by rw [List.foldl_cons, hc, hrest]⟩

theorem releaseChildren_eq (s : Scheduler V B) (id : StrandId) :
    ∃ journal channel, s.releaseChildren id =
      { s with
        strands := s.strands.update id.number fun st => { st with children := st.children.close.1 }
        journal := journal
        channel := channel } := by
  unfold releaseChildren
  cases h : s.strand? id with
  | none =>
    refine ⟨s.journal, s.channel, ?_⟩
    rw [Table.update_eq_self fun st hst => absurd (h.symm.trans hst) (by simp)]
  | some st =>
    obtain ⟨journal, channel, hfold⟩ := foldl_reportUnhandled_eq
      (s.updateStrand id fun st' => { st' with children := st.children.close.1 })
      st.children.close.2
    refine ⟨journal, channel, ?_⟩
    have hrows :
        s.strands.update id.number (fun st' => { st' with children := st.children.close.1 }) =
        s.strands.update id.number fun st' => { st' with children := st'.children.close.1 } := by
      refine Table.update_congr fun st' hst' => ?_
      rw [Option.some.inj (h.symm.trans hst')]
    apply hfold.trans
    simp only [updateStrand, hrows]

/-! ## Cutting a strand off -/

theorem closeBridge_none (s : Scheduler V B) (id : StrandId) : s.closeBridge id none = s := rfl

theorem closeBridge_some (s : Scheduler V B) (id : StrandId) (b : BridgeId) :
    s.closeBridge id (some b) =
      { s with
        strands := s.strands.update id.number fun st => { st with bridge := none }
        bridges := s.bridges.update b.number Bridge.shut } := by
  have hsame : ∀ shut? : Option (Bridge V), (s.bridge? b).bind Bridge.close? = shut? →
      s.bridges.update b.number Bridge.shut =
        shut?.elim s.bridges fun closed => s.bridges.update b.number fun _ => closed := by
    intro shut? hshut
    cases shut? with
    | none =>
      refine Table.update_eq_self fun bridge hb => ?_
      have hget : s.bridge? b = some bridge := hb
      rw [hget, Option.bind_some] at hshut
      rw [Bridge.shut, hshut, Option.getD_none]
    | some closed =>
      refine Table.update_congr fun bridge hb => ?_
      have hget : s.bridge? b = some bridge := hb
      rw [hget, Option.bind_some] at hshut
      rw [Bridge.shut, hshut, Option.getD_some]
  rw [hsame _ rfl]
  simp only [closeBridge, bridge?_updateStrand]
  cases (s.bridge? b).bind Bridge.close? <;> rfl

/-- Ends a strand from outside, and closes the bridge in its slot and its children. -/
def cut (s : Scheduler V B) (id : StrandId) (slot : Option BridgeId) : Scheduler V B :=
  let s := s.updateStrand id fun st => { st with status := .doneError, body := none }
  (((s.closeBridge id slot).releaseChildren id).count .cancelled).emit id .cancelled

theorem cut_eq {id : StrandId} {st : Strand V B} (h : s.strand? id = some st) :
    ∃ counters journal channel, s.cut id st.bridge =
      { s with
        strands := s.strands.update id.number Strand.cut
        bridges := match st.bridge with
          | none => s.bridges
          | some b => s.bridges.update b.number Bridge.shut
        counters := counters
        journal := journal
        channel := channel } := by
  cases hslot : st.bridge with
  | none =>
    obtain ⟨journal, channel, hrel⟩ := releaseChildren_eq
      (s.updateStrand id fun st => { st with status := .doneError, body := none }) id
    have hrows : (s.strands.update id.number fun st =>
        { st with status := .doneError, body := none }).update id.number
          (fun st => { st with children := st.children.close.1 }) =
        s.strands.update id.number Strand.cut := by
      rw [Table.update_update]
      refine Table.update_congr fun st' hst' => ?_
      rw [← Option.some.inj (h.symm.trans hst')]
      simp [Strand.cut, hslot]
    refine ⟨s.counters.count .cancelled, journal.push (.event ⟨id, .cancelled⟩),
      channel.map (·.emit ⟨id, .cancelled⟩), ?_⟩
    show ((releaseChildren _ id).count .cancelled).emit id .cancelled = _
    rw [closeBridge_none, hrel]
    simp only [updateStrand, hrows]
    rfl
  | some b =>
    obtain ⟨journal, channel, hrel⟩ := releaseChildren_eq
      ((s.updateStrand id fun st => { st with status := .doneError, body := none }).closeBridge id
        (some b)) id
    refine ⟨s.counters.count .cancelled, journal.push (.event ⟨id, .cancelled⟩),
      channel.map (·.emit ⟨id, .cancelled⟩), ?_⟩
    show ((releaseChildren _ id).count .cancelled).emit id .cancelled = _
    rw [hrel, closeBridge_some]
    simp only [updateStrand, Table.update_update]
    rfl

theorem cut_jobs {id : StrandId} {st : Strand V B} (h : s.strand? id = some st) :
    (s.cut id st.bridge).jobs = s.jobs := by
  obtain ⟨counters, journal, channel, heq⟩ := cut_eq h
  rw [heq]

/-- Ends a strand from outside, unless it has ended. -/
def strike (s : Scheduler V B) (id : StrandId) : Scheduler V B :=
  match s.strand? id with
  | none => s
  | some st => if st.status.isTerminal then s else s.cut id st.bridge

theorem cancelStep_none {nested : Cancel V B} {id : StrandId} (h : s.strand? id = none)
    (reason : Failure) : cancelStep nested s id reason = (s, false) := by
  simp only [cancelStep, h]

theorem cancelStep_terminal {nested : Cancel V B} {id : StrandId} {st : Strand V B}
    (h : s.strand? id = some st) (hend : st.status.isTerminal = true) (reason : Failure) :
    cancelStep nested s id reason = (s, false) := by
  simp only [cancelStep, h, Status.cancel?_eq_none_iff.mpr hend]

theorem cancelStep_cut {nested : Cancel V B} {id : StrandId} {st : Strand V B}
    (h : s.strand? id = some st) (hend : st.status.isTerminal = false) (reason : Failure) :
    cancelStep nested s id reason =
      match st.hook with
      | some hook => (((s.cut id st.bridge).resolveWith nested hook (.err reason)).retire id none,
          true)
      | none => ((s.cut id st.bridge).retire id (some (.err reason)), true) := by
  have hcancel : st.status.cancel? = some .doneError := by
    cases hst : st.status <;> simp [hst, Status.isTerminal] at hend <;> rfl
  simp only [cancelStep, h, hcancel]
  rfl

/-! ## Spawning -/

/-- The queue takes no new strand, whatever room it has. -/
def IsShut (s : Scheduler V B) : Prop := s.queue.closed = true ∨ s.queue.aborted = true

theorem IsShut.of_queue {s' : Scheduler V B} (h : s.IsShut)
    (hclosed : s'.queue.closed = s.queue.closed) (haborted : s'.queue.aborted = s.queue.aborted) :
    s'.IsShut := by
  rwa [IsShut, hclosed, haborted]

/-- A job is subject to no limit, so it is refused a strand only if the queue takes none. -/
theorem isShut_of_spawn {r : SpawnRequest B} {e : Refusal} (hr : r.admission = .invocation)
    (h : (s.spawn r).2 = .error e) : s.IsShut := by
  unfold spawn at h
  rw [if_neg (by simp [hr]), hr] at h
  simp only [Admission.limit, ReadyQueue.admit?, ReadyQueue.admits, Bool.and_true] at h
  by_contra hopen
  simp only [IsShut, not_or, Bool.not_eq_true] at hopen
  simp [hopen.1, hopen.2] at h

/-- A strand is either admitted or leaves every row as it was. -/
theorem spawn_cases (s : Scheduler V B) (r : SpawnRequest B) :
    (s.queue.closed = false ∧ ∃ counters journal channel, s.spawn r =
      ({ s with
          strands := s.strands.add (Strand.create r.body r.name r.parent r.hook)
          queue := s.queue.push ⟨s.strands.next⟩
          live := s.live ++ [⟨s.strands.next⟩]
          counters := counters
          journal := journal
          channel := channel }, .ok ⟨s.strands.next⟩)) ∨
      ∃ strands counters journal channel cause, s.spawn r =
        ({ s with
            strands := strands
            counters := counters
            journal := journal
            channel := channel }, .error cause) ∧
        (∀ n, strands.get? n = s.strands.get? n) ∧ s.strands.next ≤ strands.next := by
  unfold spawn
  split
  · exact Or.inr ⟨s.strands, s.counters, s.journal, s.channel, _, rfl, fun _ => rfl, Nat.le_refl _⟩
  dsimp only
  cases hq : s.queue.admit? ⟨s.strands.next⟩ (r.admission.limit s.maxPending) with
  | some queue =>
    left
    unfold ReadyQueue.admit? at hq
    split at hq
    next hadmits =>
      obtain rfl := Option.some.inj hq
      refine ⟨?_, _, _, _, rfl⟩
      simp only [ReadyQueue.admits, Bool.and_eq_true, Bool.not_eq_true'] at hadmits
      exact hadmits.1.1
    next => exact absurd hq (by simp)
  | none =>
    right
    refine ⟨(s.strands.add (Strand.create r.body r.name r.parent r.hook)).erase s.strands.next,
      _, _, _, _, rfl, ?_, ?_⟩
    · intro n
      rw [Table.get?_erase, Table.get?_add]
      by_cases hn : s.strands.next = n
      · rw [if_pos hn, ← hn, s.strands.get?_next]
      · rw [if_neg hn, if_neg (Ne.symm hn)]
    · rw [Table.next_erase, Table.next_add]
      exact Nat.le_succ _

end Scheduler
end CoopSched
