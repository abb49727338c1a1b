import CoopSched.Proofs.Scheduler.Guards
import CoopSched.Proofs.Scheduler.Frame
import CoopSched.Scheduler.Shutdown

/-!
# Cascades — what is set off, with every cancellation whole

A cancellation ends its strand in two parts, and everything that the outcome sets off lies between
them: the strand is cut off first, and retired when its outcome has found its receiver. What is true
only when a cancellation is through is lost between the two, so it cannot be shown one small change
after the other. In a `Cascade` each cancellation is one piece, with the cascade that it sets off
inside it; whatever a move sets off is a cascade (`bears_cascade`, `Cascade.cancel`).

A strand comes out of a cascade as it went in, but for a wake, or it is cancelled, and what is left
of it then is known exactly (`Cascade.row`). One that had ended before is not touched at all
(`Cascade.ended`).
-/

namespace CoopSched

variable {V B : Type}

/-- Nothing has changed but how far the strand has come with its segments, and nothing at all if it
    had ended. -/
structure Strand.Alike (st st' : Strand V B) : Prop where
  parent : st'.parent = st.parent
  hook : st'.hook = st.hook
  children : st'.children = st.children
  outcome : st'.outcome = st.outcome
  complete : st'.complete = st.complete
  ended : st'.status.isTerminal = st.status.isTerminal
  final : st.status.isTerminal = true → st' = st

theorem Strand.Alike.refl (st : Strand V B) : st.Alike st :=
  ⟨rfl, rfl, rfl, rfl, rfl, rfl, fun _ => rfl⟩

theorem Strand.Alike.trans {st st' st'' : Strand V B} (h : st.Alike st') (h' : st'.Alike st'') :
    st.Alike st'' where
  parent := h'.parent.trans h.parent
  hook := h'.hook.trans h.hook
  children := h'.children.trans h.children
  outcome := h'.outcome.trans h.outcome
  complete := h'.complete.trans h.complete
  ended := h'.ended.trans h.ended
  final := fun hend => (h'.final (h.ended.trans hend)).trans (h.final hend)

/-- A completion means nothing to a strand that has ended. -/
theorem Strand.woken_of_terminal {st : Strand V B} (hend : st.status.isTerminal = true) :
    st.woken = st := by
  have hwake : st.status.wake.1 = st.status := by
    cases hs : st.status <;> rw [hs] at hend <;> first | rfl | cases hend
  rw [Strand.woken, hwake]

theorem Strand.Alike.woken (st : Strand V B) : st.Alike st.woken :=
  ⟨rfl, rfl, rfl, rfl, rfl, st.woken_terminal, Strand.woken_of_terminal⟩

/-- What is left of a strand that was cancelled for a reason. One that was launched for a job keeps
    no outcome for its handle. -/
def Strand.cancelled (st : Strand V B) (reason : Failure) : Strand V B :=
  st.cut.publish (if st.hook.isSome then none else some (.err reason))

/-- A strand is complete, and its group is closed and empty, just when it has ended. -/
structure Strand.Tidy (st : Strand V B) : Prop where
  complete : st.complete = st.status.isTerminal
  closed : st.children.closed = st.status.isTerminal
  settled : st.status.isTerminal = true → st.children.settled = []

theorem Strand.Tidy.create (body : B) (name : Option String) (parent : Option StrandId)
    (hook : Option Hook) : (Strand.create (V := V) body name parent hook).Tidy :=
  ⟨rfl, rfl, fun h => by cases h⟩

theorem Strand.Tidy.alike {st st' : Strand V B} (h : st.Tidy) (hlike : st.Alike st') :
    st'.Tidy where
  complete := hlike.complete.trans (h.complete.trans hlike.ended.symm)
  closed := by rw [hlike.children, hlike.ended, h.closed]
  settled := fun hend => by rw [hlike.children]; exact h.settled (hlike.ended.symm.trans hend)

theorem Strand.Tidy.cancelled (st : Strand V B) (reason : Failure) : (st.cancelled reason).Tidy :=
  ⟨rfl, rfl, fun _ => rfl⟩

/-- A strand that nobody has spawned as a child, and that has had none and waits for none. -/
structure Strand.Newborn (st : Strand V B) : Prop where
  tidy : st.Tidy
  parent : st.parent = none
  settled : st.children.settled = []
  waiter : st.children.waiter = none

theorem Strand.Newborn.alike {st st' : Strand V B} (h : st.Newborn) (hlike : st.Alike st') :
    st'.Newborn :=
  ⟨h.tidy.alike hlike, hlike.parent.trans h.parent, by rw [hlike.children, h.settled],
    by rw [hlike.children, h.waiter]⟩

namespace Scheduler

variable {s s₀ s₁ s₂ s' s'' : Scheduler V B} {k id : StrandId} {st st' st₁ st₂ : Strand V B}
  {hook : Hook} {r : Outcome V} {reason : Failure} {stop stop' : Prop}

/-- Every job has gone on. -/
def JobsOnward (s s' : Scheduler V B) : Prop :=
  ∀ j entry, s.job? j = some entry →
    ∃ entry', s'.job? j = some entry' ∧ entry.job.Onward entry'.job

theorem JobsOnward.of_same (h : s'.jobs = s.jobs) : JobsOnward s s' :=
  fun j entry hj => ⟨entry, by rw [job?, h]; exact hj, .refl entry.job⟩

theorem JobsOnward.trans (h : JobsOnward s s') (h' : JobsOnward s' s'') : JobsOnward s s'' := by
  intro j entry hj
  obtain ⟨entry', hj', hon⟩ := h j entry hj
  obtain ⟨entry'', hj'', hon'⟩ := h' j entry' hj'
  exact ⟨entry'', hj'', hon.trans hon'⟩

/-- On the way from one state to the other the job of a strand is told what became of the strand. -/
def JobTold (s s' : Scheduler V B) (hook : Hook) (r : Outcome V) : Prop :=
  ∃ entry job entry', s.job? hook.job = some entry ∧ entry.job.Onward job ∧
    s'.job? hook.job = some entry' ∧ job.Takes hook.index r entry'.job

theorem JobTold.since (h : JobTold s s' hook r) (hon : JobsOnward s₀ s)
    (hentry : ∃ entry, s₀.job? hook.job = some entry) : JobTold s₀ s' hook r := by
  obtain ⟨entry, job, entry', hj, hfirst, hj', htakes⟩ := h
  obtain ⟨entry₀, hj₀⟩ := hentry
  obtain ⟨entry₁, hj₁, hstart⟩ := hon _ entry₀ hj₀
  obtain rfl := Option.some.inj (hj.symm.trans hj₁)
  exact ⟨entry₀, job, entry', hj₀, hstart.trans hfirst, hj', htakes⟩

theorem JobTold.onward (h : JobTold s s' hook r) (hon : JobsOnward s' s'') :
    JobTold s s'' hook r := by
  obtain ⟨entry, job, entry', hj, hfirst, hj', htakes⟩ := h
  obtain ⟨entry'', hj'', hlast⟩ := hon _ entry' hj'
  exact ⟨entry, job, entry'', hj, hfirst, hj'', htakes.trans hlast⟩

/-- A reason for which a strand is cancelled. -/
def IsReason (s : Scheduler V B) (reason : Failure) : Prop :=
  reason = shutDownReason ∨ reason = s.cleanUpReason

/-- Any number of small changes that end nobody, and of whole cancellations, where there may be
    some (`stop`). -/
inductive Cascade (stop : Prop) : Scheduler V B → Scheduler V B → Prop
  | refl (s : Scheduler V B) : Cascade stop s s
  | update {s s₁ s₂ : Scheduler V B} (h : Cascade stop s s₁)
      (hr : UnwatchedUpdate (fun _ => False) (fun _ => True) s₁ s₂) : Cascade stop s s₂
  /-- A strand is cut off, its job is told if it has one, and it is retired. -/
  | cancelled {s s₁ s₂ : Scheduler V B} {id : StrandId} {st : Strand V B} {reason : Failure}
      (h : Cascade stop s s₁) (hstop : stop) (hst : s₁.strand? id = some st)
      (hend : st.status.isTerminal = false) (hover : s₁.isShutDown = true)
      (hreason : s₁.IsReason reason) (hset : Cascade stop (s₁.cut id st.bridge) s₂)
      (htold : ∀ hook, st.hook = some hook → (∃ entry, s₁.job? hook.job = some entry) →
        JobTold s₁ s₂ hook (.err reason)) :
      Cascade stop s (s₂.retire id (if st.hook.isSome then none else some (.err reason)))

theorem Cascade.mono (h : Cascade stop s s') (himp : stop → stop') : Cascade stop' s s' := by
  induction h with
  | refl s => exact .refl s
  | update _ hr ih => exact ih.update hr
  | cancelled _ hstop hst hend hover hreason _ htold ih ihset =>
    exact ih.cancelled (himp hstop) hst hend hover hreason ihset htold

theorem cut_row (hst : s.strand? id = some st) (k : StrandId) :
    (s.cut id st.bridge).strand? k = if id = k then some st.cut else s.strand? k := by
  obtain ⟨counters, journal, channel, heq⟩ := cut_eq hst
  exact strand?_of_update_some (f := Strand.cut) (by rw [heq]) hst k

theorem retire_row (s : Scheduler V B) (id : StrandId) (kept : Option (Outcome V))
    (k : StrandId) : (s.retire id kept).strand? k =
      if id = k then (s.strand? k).map (·.publish kept) else s.strand? k :=
  strand?_of_update (s := s) (f := (·.publish kept)) rfl k

/-! ## What lasts -/

theorem UnwatchedUpdate.steady {watched : JobId → Prop} {free : BridgeId → Prop}
    (hr : UnwatchedUpdate watched free s s') : Steady s s' := by
  cases hr with
  | setBridge hb x => exact .setBridge s _ x
  | wake alive id => exact .wake alive id
  | launch body hook hj hentry => exact .spawn s _
  | _ => constructor <;> rfl

theorem Cascade.steady (h : Cascade stop s s') : Steady s s' := by
  induction h with
  | refl => exact .refl _
  | update _ hr ih => exact ih.trans hr.steady
  | cancelled _ _ hst _ _ _ _ _ ih ihset =>
    exact (ih.trans (.cut hst)).trans ⟨ihset.workers, ihset.held, ihset.phase, ihset.terminated,
      ihset.timers, ihset.closed, ihset.aborted, ihset.running⟩

/-- The shutdown has not come further, and every job has gone on. -/
structure Lasts (s s' : Scheduler V B) : Prop where
  phase : s'.phase = s.phase
  terminated : s'.terminated = s.terminated
  closed : s'.queue.closed = s.queue.closed
  aborted : s'.queue.aborted = s.queue.aborted
  jobs : JobsOnward s s'

theorem Lasts.of_jobs (hphase : s'.phase = s.phase) (hterm : s'.terminated = s.terminated)
    (hclosed : s'.queue.closed = s.queue.closed) (haborted : s'.queue.aborted = s.queue.aborted)
    (hjobs : s'.jobs = s.jobs) : Lasts s s' where
  phase := hphase
  terminated := hterm
  closed := hclosed
  aborted := haborted
  jobs := .of_same hjobs

theorem Lasts.of_steady (h : Steady s s') (hjobs : s'.jobs = s.jobs) : Lasts s s' :=
  .of_jobs h.phase h.terminated h.closed h.aborted hjobs

theorem Lasts.refl (s : Scheduler V B) : Lasts s s := .of_steady (.refl s) rfl

theorem Lasts.trans (h : Lasts s s') (h' : Lasts s' s'') : Lasts s s'' where
  phase := h'.phase.trans h.phase
  terminated := h'.terminated.trans h.terminated
  closed := h'.closed.trans h.closed
  aborted := h'.aborted.trans h.aborted
  jobs := h.jobs.trans h'.jobs

theorem Lasts.isShutDown (h : Lasts s s') : s'.isShutDown = s.isShutDown := by
  rw [Scheduler.isShutDown, Scheduler.isShutDown, isCancelling, isCancelling, h.phase, h.terminated]

theorem Lasts.isReason (h : Lasts s s') (hr : s'.IsReason reason) : s.IsReason reason := by
  have hclean : s'.cleanUpReason = s.cleanUpReason := by
    rw [cleanUpReason, cleanUpReason, isCancelling, isCancelling, h.phase]
  rwa [IsReason, hclean] at hr

theorem Lasts.cut (hst : s.strand? id = some st) : Lasts s (s.cut id st.bridge) :=
  .of_steady (.cut hst) (cut_jobs hst)

theorem Lasts.retire (s : Scheduler V B) (id : StrandId) (kept : Option (Outcome V)) :
    Lasts s (s.retire id kept) := .of_jobs rfl rfl rfl rfl rfl

theorem Lasts.markFinished (s : Scheduler V B) (k : StrandId) (ok : Bool) :
    Lasts s (s.markFinished k ok) := by
  obtain ⟨counters, journal, channel, heq⟩ := s.markFinished_eq k ok
  rw [heq]
  exact .of_jobs rfl rfl rfl rfl rfl

theorem UnwatchedUpdate.lasts {watched : JobId → Prop} {free : BridgeId → Prop}
    (hr : UnwatchedUpdate watched free s s') : Lasts s s' := by
  refine ⟨hr.steady.phase, hr.steady.terminated, hr.steady.closed, hr.steady.aborted,
    fun j entry hj => ?_⟩
  cases hr with
  | wake alive id =>
    obtain ⟨queue, counters, journal, channel, heq⟩ := wake_row alive id
    exact ⟨entry, by rw [heq]; exact hj, .refl entry.job⟩
  | @job i hi f hf hslots =>
    by_cases hij : i = j
    · subst hij
      exact ⟨f entry, by rw [job?_updateJob, if_pos rfl, hj, Option.map_some], hslots entry hj⟩
    · exact ⟨entry, by rw [job?_updateJob, if_neg hij, hj], .refl entry.job⟩
  | addJob new hi hok =>
    refine ⟨entry, ?_, .refl entry.job⟩
    show (s.jobs.add new).get? j.number = some entry
    rw [Table.get?_add, if_neg (Nat.ne_of_lt (Table.lt_next_of_get? hj))]
    exact hj
  | launch body hook hi hentry =>
    refine ⟨entry, ?_, .refl entry.job⟩
    rcases spawn_cases s { body := body, admission := .invocation, hook := some hook } with
      ⟨-, _, _, _, heq⟩ | ⟨_, _, _, _, _, heq, -, -⟩ <;> rw [heq] <;> exact hj
  | _ => exact ⟨entry, hj, .refl entry.job⟩

theorem Cascade.lasts (h : Cascade stop s s') : Lasts s s' := by
  induction h with
  | refl s => exact .refl s
  | update _ hr ih => exact ih.trans hr.lasts
  | cancelled _ _ hst _ _ _ _ _ ih ihset =>
    exact ((ih.trans (.cut hst)).trans ihset).trans (.retire _ _ _)

/-! ## What becomes of a strand -/

/-- A small change leaves a strand as it is, but for a wake. -/
theorem UnwatchedUpdate.row {watched : JobId → Prop} {free : BridgeId → Prop}
    (hr : UnwatchedUpdate watched free s s') (hst : s.strand? k = some st) :
    ∃ st', s'.strand? k = some st' ∧ st.Alike st' := by
  cases hr with
  | wake alive id =>
    obtain ⟨queue, counters, journal, channel, heq⟩ := wake_row alive id
    rw [strand?_of_update (f := Strand.woken) (by rw [heq]), hst]
    split
    · exact ⟨_, rfl, .woken st⟩
    · exact ⟨_, rfl, .refl st⟩
  | launch body hook hj hentry => exact ⟨st, strand?_spawn hst _, .refl st⟩
  | _ => exact ⟨st, hst, .refl st⟩

/-- **A cascade does not touch a strand that has ended.** -/
theorem Cascade.ended (h : Cascade stop s s') (hst : s.strand? k = some st)
    (hend : st.status.isTerminal = true) : s'.strand? k = some st := by
  induction h with
  | refl => exact hst
  | update _ hr ih =>
    obtain ⟨st', hst', hlike⟩ := hr.row (ih hst)
    rwa [hlike.final hend] at hst'
  | @cancelled s s₁ s₂ id old reason _ _ hst₁ hnot _ _ _ _ ih ihset =>
    have hold := ih hst
    have hne : id ≠ k := by
      rintro rfl
      rw [← Option.some.inj (hst₁.symm.trans hold), hnot] at hend
      cases hend
    rw [retire_row, if_neg hne]
    exact ihset ((cut_row hst₁ k).trans ((if_neg hne).trans hold))

/-- What a strand has become from `s` to `s'`. -/
inductive AlikeOrCancelled (stop : Prop) (s s' : Scheduler V B) (st : Strand V B) :
    Strand V B → Prop
  | alike {st' : Strand V B} (h : st.Alike st') : AlikeOrCancelled stop s s' st st'
  | cancelled {st₁ : Strand V B} {reason : Failure} (hstop : stop) (h : st.Alike st₁)
      (hend : st.status.isTerminal = false) (hover : s.isShutDown = true)
      (hreason : s.IsReason reason)
      (htold : ∀ hook, st.hook = some hook → (∃ entry, s.job? hook.job = some entry) →
        JobTold s s' hook (.err reason)) : AlikeOrCancelled stop s s' st (st₁.cancelled reason)

theorem AlikeOrCancelled.trans (h : AlikeOrCancelled stop s s₁ st st₁) (hl : Lasts s s₁)
    (h' : AlikeOrCancelled stop s₁ s₂ st₁ st₂) (hl' : Lasts s₁ s₂) :
    AlikeOrCancelled stop s s₂ st st₂ := by
  cases h with
  | alike hlike =>
    cases h' with
    | alike hlike' => exact .alike (hlike.trans hlike')
    | cancelled hstop hlike' hend hover hreason htold =>
      refine .cancelled hstop (hlike.trans hlike') (hlike.ended.symm.trans hend)
        (hl.isShutDown.symm.trans hover) (hl.isReason hreason) fun hook hhook hj => ?_
      obtain ⟨entry, hentry⟩ := hj
      obtain ⟨entry', hentry', -⟩ := hl.jobs _ entry hentry
      exact (htold hook (hlike.hook.trans hhook) ⟨entry', hentry'⟩).since hl.jobs ⟨entry, hentry⟩
  | cancelled hstop hlike hend hover hreason htold =>
    cases h' with
    | alike hlike' =>
      rw [hlike'.final rfl]
      exact .cancelled hstop hlike hend hover hreason fun hook hhook hj =>
        (htold hook hhook hj).onward hl'.jobs
    | cancelled _ _ hend' => cases hend'

/-- **A strand comes out of a cascade alike, or cancelled.** -/
theorem Cascade.row (h : Cascade stop s s') (hst : s.strand? k = some st) :
    ∃ st', s'.strand? k = some st' ∧ AlikeOrCancelled stop s s' st st' := by
  induction h generalizing st with
  | refl => exact ⟨st, hst, .alike (.refl st)⟩
  | update hcas hr ih =>
    obtain ⟨st₁, hst₁, hleft⟩ := ih hst
    obtain ⟨st₂, hst₂, hlike⟩ := hr.row hst₁
    exact ⟨st₂, hst₂, hleft.trans hcas.lasts (.alike hlike) hr.lasts⟩
  | @cancelled s s₁ s₂ id old reason hcas hstop hold hnot hover hreason hset htold ih ihset =>
    obtain ⟨st₁, hst₁, hleft⟩ := ih hst
    have hlasts : Lasts s₁ (s₂.retire id (if old.hook.isSome then none else some (.err reason))) :=
      ((Lasts.cut hold).trans hset.lasts).trans (.retire _ _ _)
    have hcut := cut_row hold k
    rw [retire_row]
    by_cases hk : id = k
    · subst hk
      obtain rfl := Option.some.inj (hold.symm.trans hst₁)
      rw [if_pos rfl] at hcut ⊢
      -- What the cancellation sets off finds a strand that has ended.
      rw [hset.ended hcut rfl, Option.map_some]
      exact ⟨_, rfl, hleft.trans hcas.lasts
        (.cancelled hstop (.refl old) hnot hover hreason htold) hlasts⟩
    · rw [if_neg hk] at hcut ⊢
      obtain ⟨st₂, hst₂, hleft₂⟩ := ihset (hcut.trans hst₁)
      have hthere := hcas.lasts.trans (.cut hold)
      have hleft' := (hleft.trans hcas.lasts (.alike (.refl st₁)) (.cut hold)).trans hthere
        hleft₂ hset.lasts
      exact ⟨st₂, hst₂, hleft'.trans (hthere.trans hset.lasts) (.alike (.refl st₂))
        (.retire _ _ _)⟩

theorem AlikeOrCancelled.tidy (h : AlikeOrCancelled stop s s' st st') (htidy : st.Tidy) :
    st'.Tidy := by
  cases h with
  | alike hlike => exact htidy.alike hlike
  | cancelled => exact .cancelled _ _

theorem AlikeOrCancelled.newborn (h : AlikeOrCancelled stop s s' st st') (hnew : st.Newborn) :
    st'.Newborn := by
  cases h with
  | alike hlike => exact hnew.alike hlike
  | cancelled _ hlike => exact ⟨.cancelled _ _, hlike.parent.trans hnew.parent, rfl, rfl⟩

/-! ## What is new -/

/-- Strands have come to the end of the ready queue, and none has left it. -/
def QueueGrows (s s' : Scheduler V B) : Prop := ∃ new, s'.queue.waiting = s.queue.waiting ++ new

theorem QueueGrows.of_queue (h : s'.queue.waiting = s.queue.waiting) : QueueGrows s s' :=
  ⟨[], by rw [h, List.append_nil]⟩

theorem QueueGrows.trans (h : QueueGrows s s') (h' : QueueGrows s' s'') : QueueGrows s s'' := by
  obtain ⟨new, hq⟩ := h
  obtain ⟨new', hq'⟩ := h'
  exact ⟨new ++ new', by rw [hq', hq, List.append_assoc]⟩

theorem QueueGrows.spawn (s : Scheduler V B) (r : SpawnRequest B) : QueueGrows s (s.spawn r).1 := by
  rcases spawn_cases s r with ⟨-, _, _, _, heq⟩ | ⟨_, _, _, _, _, heq, -, -⟩ <;> rw [heq]
  · exact ⟨[⟨s.strands.next⟩], rfl⟩
  · exact .of_queue rfl

theorem UnwatchedUpdate.queueGrows {watched : JobId → Prop} {free : BridgeId → Prop}
    (hr : UnwatchedUpdate watched free s s') : QueueGrows s s' := by
  cases hr with
  | wake alive id =>
    cases hst : s.strand? id with
    | none =>
      rw [wake_none hst]
      exact .of_queue rfl
    | some st =>
      obtain ⟨counters, journal, channel, heq⟩ := wake_eq alive hst
      rw [heq]
      by_cases hs : st.status = .blocked
      · exact ⟨[id], by rw [if_pos hs]; rfl⟩
      · exact .of_queue (by rw [if_neg hs])
  | launch body hook hj hentry => exact .spawn s _
  | _ => exact .of_queue rfl

/-- Nothing is taken out of the ready queue by what is set off. -/
theorem Cascade.queueGrows (h : Cascade stop s s') : QueueGrows s s' := by
  induction h with
  | refl => exact .of_queue rfl
  | update _ hr ih => exact ih.trans hr.queueGrows
  | @cancelled s s₁ s₂ id st _ _ _ hst _ _ _ _ _ ih ihset =>
    have hcut : QueueGrows s₁ (s₁.cut id st.bridge) := .of_queue (by
      obtain ⟨counters, journal, channel, heq⟩ := cut_eq hst
      rw [heq])
    exact (ih.trans hcut).trans ihset

/-- A strand that comes into being is admitted by a queue that is open. -/
theorem spawn_new (s : Scheduler V B) (r : SpawnRequest B) (hnone : s.strand? k = none)
    (hst' : (s.spawn r).1.strand? k = some st') :
    s.queue.closed = false ∧ st' = Strand.create r.body r.name r.parent r.hook := by
  rcases spawn_cases s r with ⟨hopen, _, _, _, heq⟩ | ⟨_, _, _, _, _, heq, hget, -⟩ <;>
    rw [heq] at hst'
  · have hread : (s.strands.add _).get? k.number = some st' := hst'
    rw [Table.get?_add] at hread
    split at hread
    · exact ⟨hopen, (Option.some.inj hread).symm⟩
    · cases hnone.symm.trans hread
  · cases hnone.symm.trans ((hget k.number).symm.trans hst')

theorem spawn_newborn (s : Scheduler V B) {r : SpawnRequest B} (hr : r.parent = none)
    (hnone : s.strand? k = none) (hst' : (s.spawn r).1.strand? k = some st') :
    s.queue.closed = false ∧ st'.Newborn := by
  obtain ⟨hopen, rfl⟩ := spawn_new s r hnone hst'
  exact ⟨hopen, .create _ _ _ _, hr, rfl, rfl⟩

theorem UnwatchedUpdate.new {watched : JobId → Prop} {free : BridgeId → Prop}
    (hr : UnwatchedUpdate watched free s s') (hnone : s.strand? k = none)
    (hst' : s'.strand? k = some st') : s.queue.closed = false ∧ st'.Newborn := by
  cases hr with
  | wake alive id =>
    obtain ⟨queue, counters, journal, channel, heq⟩ := wake_row alive id
    rw [strand?_of_update (f := Strand.woken) (by rw [heq]), hnone] at hst'
    split at hst' <;> cases hst'
  | launch body hook hj hentry => exact spawn_newborn s rfl hnone hst'
  | _ => cases hnone.symm.trans hst'

/-- What a cascade brings into being has no parent. -/
theorem Cascade.new (h : Cascade stop s s') (hnone : s.strand? k = none)
    (hst' : s'.strand? k = some st') : s.queue.closed = false ∧ st'.Newborn := by
  induction h generalizing st' with
  | refl => cases hnone.symm.trans hst'
  | @update s s₁ s₂ hcas hr ih =>
    cases hst₁ : s₁.strand? k with
    | none =>
      rw [← hcas.steady.closed]
      exact hr.new hst₁ hst'
    | some st₁ =>
      obtain ⟨hopen, hnew⟩ := ih hnone hst₁
      obtain ⟨st₂, hst₂, hlike⟩ := hr.row hst₁
      obtain rfl := Option.some.inj (hst₂.symm.trans hst')
      exact ⟨hopen, hnew.alike hlike⟩
  | @cancelled s s₁ s₂ id old reason hcas hstop hold hnot hover hreason hset htold ih ihset =>
    cases hst₁ : s₁.strand? k with
    | some st₁ =>
      -- It was there when the cancellation began.
      obtain ⟨hopen, hnew⟩ := ih hnone hst₁
      obtain ⟨st₂, hst₂, hleft⟩ :=
        (Cascade.cancelled (.refl s₁) hstop hold hnot hover hreason hset htold).row hst₁
      obtain rfl := Option.some.inj (hst₂.symm.trans hst')
      exact ⟨hopen, hleft.newborn hnew⟩
    | none =>
      have hne : id ≠ k := by
        rintro rfl
        cases hold.symm.trans hst₁
      rw [retire_row, if_neg hne] at hst'
      rw [← (hcas.steady.trans (.cut hold)).closed]
      exact ihset ((cut_row hold k).trans ((if_neg hne).trans hst₁)) hst'

/-! ## Everything that is set off -/

theorem bears_cascade (stop : Prop) (s : Scheduler V B) :
    Bears (fun _ => False) (fun _ => True) (Cascade stop s) :=
  ⟨fun hr h => h.update hr, fun _ _ _ => trivial⟩

/-- Submitting a result for an index, the job has it or had one before. -/
theorem jobTold_submitWith {nested : Cancel V B}
    (hn : ∀ s' : Scheduler V B, s'.terminated = s.terminated → Absorbs (Cascade stop s') nested)
    (hook : Hook) (r : Outcome V) (hj : ∃ entry, s.job? hook.job = some entry) :
    JobTold s (s.submitWith nested hook.job hook.index r).1 hook r := by
  obtain ⟨entry, hentry⟩ := hj
  unfold submitWith
  rw [hentry]
  dsimp only
  cases hsub : entry.job.submit hook.index r with
  | error cause =>
    exact ⟨entry, entry.job, entry, hentry, .refl _, hentry, Job.takes_of_refused hsub⟩
  | ok result =>
    obtain ⟨job, answer⟩ := result
    have hupdated : JobTold s (s.updateJob hook.job fun e => { e with job := job }) hook r :=
      ⟨entry, entry.job, { entry with job := job }, hentry, .refl _,
        by rw [job?_updateJob, if_pos rfl, hentry, Option.map_some], Job.takes_of_ok hsub⟩
    have hrest := hn (s.updateJob hook.job fun e => { e with job := job }) rfl
    cases answer with
    | none => exact hupdated
    | some answer =>
      exact hupdated.onward ((bears_cascade stop _).answerWith hrest (.refl _) (fun hf => hf)
        answer).lasts.jobs

/-- Resolving the index of a strand is a cascade, and the job is told of the result. -/
theorem cascade_resolveWith {nested : Cancel V B} (s : Scheduler V B)
    (hn : ∀ s' : Scheduler V B, s'.terminated = s.terminated → Absorbs (Cascade stop s') nested)
    (hook : Hook) (outcome : Outcome V) :
    Cascade stop s (s.resolveWith nested hook outcome) ∧
      ((∃ entry, s.job? hook.job = some entry) →
        JobTold s (s.resolveWith nested hook outcome) hook outcome) := by
  have hb := bears_cascade stop (V := V) (B := B)
  refine ⟨(hb s).resolveWith (hn s rfl) (.refl s) (fun hf => hf) outcome, fun hj => ?_⟩
  have hfirst := (hb s).submitWith (hn s rfl) (.refl s) (fun hf => hf) hook.index outcome
    (j := hook.job)
  have hsubmit := jobTold_submitWith hn hook outcome hj
  have hsteady := hfirst.steady.terminated
  unfold resolveWith
  dsimp only
  split
  · split
    · exact hsubmit.onward
        ((hb _).launchNextWith (hn _ hsteady) (fun hf => hf) _ (.refl _)).lasts.jobs
    · exact hsubmit
  · exact hsubmit

theorem Cascade.cancelWithin (levels : Nat) (h : Cascade stop s₀ s) (hstop : stop) (id : StrandId)
    (hover : s.isShutDown = true) (hreason : s.IsReason reason) :
    Cascade stop s₀ (cancelWithin levels s id reason).1 := by
  -- On the levels: what a cancellation sets off may cancel one level less deep.
  induction levels generalizing s₀ s id reason with
  | zero => exact h
  | succ levels ih =>
    show Cascade stop s₀ (cancelStep (Scheduler.cancelWithin levels) s id reason).1
    cases hst : s.strand? id with
    | none =>
      rw [cancelStep_none hst]
      exact h
    | some st =>
      cases hend : st.status.isTerminal with
      | true =>
        rw [cancelStep_terminal hst hend]
        exact h
      | false =>
        rw [cancelStep_cut hst hend]
        cases hhook : st.hook with
        | none =>
          have hcancelled := h.cancelled hstop hst hend hover hreason (.refl _) fun hook heq => by
            rw [hhook] at heq
            cases heq
          rwa [hhook] at hcancelled
        | some hook =>
          have hresolve := cascade_resolveWith (s.cut id st.bridge)
            (fun s' _ s₁ id hcas gone =>
              ih hcas id (by rw [isShutDown, gone, Bool.or_true]) (Or.inl rfl))
            hook (.err reason)
          have hcancelled := h.cancelled hstop hst hend hover hreason hresolve.1
            fun hook' heq hj => by
              obtain ⟨entry, hentry⟩ := hj
              rw [hhook] at heq
              obtain rfl := Option.some.inj heq
              exact (hresolve.2 ⟨entry, by rw [job?, cut_jobs hst]; exact hentry⟩).since
                (.of_same (cut_jobs hst)) ⟨entry, hentry⟩
          rwa [hhook] at hcancelled

/-- **A cancellation is a cascade.** -/
theorem Cascade.cancel (h : Cascade stop s₀ s) (hstop : stop) (id : StrandId)
    (hover : s.isShutDown = true) (hreason : s.IsReason reason) :
    Cascade stop s₀ (s.cancel id reason).1 :=
  h.cancelWithin s.live.length hstop id hover hreason

/-- What a completion sets off cancels only when the workers are gone. -/
theorem absorbs_cascade (s : Scheduler V B) :
    Absorbs (Cascade (s.terminated = true) s) Scheduler.cancel :=
  fun _ id h gone => h.cancel (h.steady.terminated ▸ gone) id
    (by rw [isShutDown, gone, Bool.or_true]) (Or.inl rfl)

end Scheduler
end CoopSched
