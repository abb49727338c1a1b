import CoopSched.Proofs.Scheduler.Move

/-!
# Onto — nothing depends on what is written down

A scheduler writes events into its journal and sends them to its channel, and reads neither. So it
does not matter what was written before, nor who is told: put what a scheduler writes *onto* any
earlier journal and any channel (`onto`), and every function does the same as before, with the same
result. There is one lemma for each function, in the order in which they are built on each other,
and what nests is written over a cancellation of which the same is known (`Blind`).
-/

namespace CoopSched

variable {V B : Type}

/-- The event that a record tells of. -/
def Record.event? : Record V → Option Event
  | .event e => some e
  | .answered .. => none

/-- The events that were written down, in turn. -/
def eventsOf (recs : List (Record V)) : List Event := recs.filterMap Record.event?

/-- A channel that was told events in turn. -/
def Channel.feed (c : Channel) (es : List Event) : Channel := es.foldl Channel.emit c

namespace Scheduler

variable {past : Array (Record V)} {sink : Option Channel} {nested : Cancel V B}
  {s : Scheduler V B}

/-- The same scheduler, when so much had been written before, and what it wrote has been sent to
    this channel. -/
def onto (s : Scheduler V B) (past : Array (Record V)) (sink : Option Channel) : Scheduler V B :=
  { s with
    journal := past ++ s.journal
    channel := sink.map (·.feed (eventsOf s.journal.toList)) }

/-! ## What is neither journal nor channel -/

@[simp] theorem onto_strand? (id : StrandId) : (s.onto past sink).strand? id = s.strand? id := rfl

@[simp] theorem onto_bridge? (b : BridgeId) : (s.onto past sink).bridge? b = s.bridge? b := rfl

@[simp] theorem onto_job? (j : JobId) : (s.onto past sink).job? j = s.job? j := rfl

@[simp] theorem onto_timer? (t : TimerId) : (s.onto past sink).timer? t = s.timer? t := rfl

@[simp] theorem onto_strands : (s.onto past sink).strands = s.strands := rfl

@[simp] theorem onto_maxPending : (s.onto past sink).maxPending = s.maxPending := rfl

@[simp] theorem onto_queue : (s.onto past sink).queue = s.queue := rfl

@[simp] theorem onto_terminated : (s.onto past sink).terminated = s.terminated := rfl

@[simp] theorem onto_isStopping : (s.onto past sink).isStopping = s.isStopping := rfl

@[simp] theorem onto_isCancelling : (s.onto past sink).isCancelling = s.isCancelling := rfl

@[simp] theorem onto_isShutDown : (s.onto past sink).isShutDown = s.isShutDown := rfl

@[simp] theorem onto_cleanUpReason : (s.onto past sink).cleanUpReason = s.cleanUpReason := rfl

@[simp] theorem onto_canDispatch : (s.onto past sink).canDispatch = s.canDispatch := rfl

@[simp] theorem onto_launchRounds (j : JobId) :
    (s.onto past sink).launchRounds j = s.launchRounds j := rfl

@[simp] theorem onto_updateStrand (id : StrandId) (f : Strand V B → Strand V B) :
    (s.onto past sink).updateStrand id f = (s.updateStrand id f).onto past sink := rfl

@[simp] theorem onto_setBridge (b : BridgeId) (x : Bridge V) :
    (s.onto past sink).setBridge b x = (s.setBridge b x).onto past sink := rfl

@[simp] theorem onto_updateJob (j : JobId) (f : JobEntry V B → JobEntry V B) :
    (s.onto past sink).updateJob j f = (s.updateJob j f).onto past sink := rfl

@[simp] theorem onto_count (c : Counter) :
    (s.onto past sink).count c = (s.count c).onto past sink := rfl

@[simp] theorem onto_enqueue (id : StrandId) :
    (s.onto past sink).enqueue id = (s.enqueue id).onto past sink := rfl

@[simp] theorem onto_issueBridge (id : StrandId) :
    (s.onto past sink).issueBridge id =
      ((s.issueBridge id).1.onto past sink, (s.issueBridge id).2) := rfl

@[simp] theorem onto_retire (id : StrandId) (kept : Option (Outcome V)) :
    (s.onto past sink).retire id kept = (s.retire id kept).onto past sink := rfl

@[simp] theorem onto_release (id : StrandId) :
    (s.onto past sink).release id = (s.release id).onto past sink := rfl

@[simp] theorem onto_keepBody (id : StrandId) (body : B) :
    (s.onto past sink).keepBody id body = (s.keepBody id body).onto past sink := rfl

/-! ## What is written -/

theorem eventsOf_push (journal : Array (Record V)) (r : Record V) :
    eventsOf (journal.push r).toList = eventsOf journal.toList ++ r.event?.toList := by
  rw [eventsOf, Array.toList_push, List.filterMap_append]
  cases h : r.event? <;> simp [h, eventsOf]

@[simp] theorem onto_emit (id : StrandId) (h : Happening) :
    (s.onto past sink).emit id h = (s.emit id h).onto past sink := by
  simp only [emit, onto, Array.append_push, eventsOf_push, Record.event?, Option.toList,
    Channel.feed, List.foldl_append, Option.map_map]
  rfl

@[simp] theorem onto_answered (j : JobId) (answer : Outcome (List V)) :
    ({ s.onto past sink with
      journal := (s.onto past sink).journal.push (.answered j answer) } : Scheduler V B) =
      ({ s with journal := s.journal.push (.answered j answer) } : Scheduler V B).onto
        past sink := by
  simp only [onto, Array.append_push, eventsOf_push, Record.event?, Option.toList, List.append_nil]

@[simp] theorem onto_reportUnhandled (id : StrandId) (outcome : Outcome V) :
    (s.onto past sink).reportUnhandled id outcome =
      (s.reportUnhandled id outcome).onto past sink := by
  cases outcome with
  | ok v => rfl
  | err e => exact onto_emit id _

theorem onto_reports (left : List (ChildOutcome V)) :
    left.foldl (fun s c => s.reportUnhandled c.id c.outcome) (s.onto past sink) =
      (left.foldl (fun s c => s.reportUnhandled c.id c.outcome) s).onto past sink := by
  induction left generalizing s with
  | nil => rfl
  | cons c left ih => rw [List.foldl_cons, List.foldl_cons, onto_reportUnhandled, ih]

@[simp] theorem onto_releaseChildren (id : StrandId) :
    (s.onto past sink).releaseChildren id = (s.releaseChildren id).onto past sink := by
  unfold releaseChildren
  rw [onto_strand?]
  cases s.strand? id with
  | none => rfl
  | some st =>
    dsimp only
    rw [onto_updateStrand]
    exact onto_reports _

/-! ## Admission -/

/-- A new strand has its number, and nobody knows of it yet. -/
def enrolled (s : Scheduler V B) (r : SpawnRequest B) : Scheduler V B :=
  { s with
    strands := s.strands.add (Strand.create r.body r.name r.parent r.hook)
    live := s.live ++ [⟨s.strands.next⟩]
    counters := (s.counters.seeLive (s.live ++ [⟨s.strands.next⟩] : List StrandId).length).count
      .created }

/-- It is created, and the queue has not decided yet. -/
def created (s : Scheduler V B) (r : SpawnRequest B) : Scheduler V B :=
  (s.enrolled r).emit ⟨s.strands.next⟩ .created

/-- The queue has refused it. -/
def rejected (s : Scheduler V B) (r : SpawnRequest B) : Scheduler V B :=
  (({ s.created r with
    strands := (s.created r).strands.erase s.strands.next
    live := s.live } : Scheduler V B).count .rejected).emit ⟨s.strands.next⟩ .rejected

theorem spawn_eq {r : SpawnRequest B} (h : ¬ (r.admission = .external ∧ s.isStopping)) :
    s.spawn r =
      match s.queue.admit? ⟨s.strands.next⟩ (r.admission.limit s.maxPending) with
      | some queue => ({ s.created r with queue := queue }, .ok ⟨s.strands.next⟩)
      | none => (s.rejected r, .error (s.queueRefusal (r.admission.limit s.maxPending))) := by
  unfold spawn
  rw [if_neg h]
  rfl

theorem onto_created (r : SpawnRequest B) :
    (s.onto past sink).created r = (s.created r).onto past sink :=
  onto_emit (s := s.enrolled r) _ _

theorem onto_rejected (r : SpawnRequest B) :
    (s.onto past sink).rejected r = (s.rejected r).onto past sink := by
  unfold rejected
  rw [onto_created]
  exact onto_emit (s := ({ s.created r with
    strands := (s.created r).strands.erase s.strands.next
    live := s.live } : Scheduler V B).count .rejected) _ _

@[simp] theorem onto_spawn (r : SpawnRequest B) :
    (s.onto past sink).spawn r = ((s.spawn r).1.onto past sink, (s.spawn r).2) := by
  by_cases hlate : r.admission = .external ∧ s.isStopping
  · unfold spawn
    rw [if_pos hlate, if_pos (show _ ∧ (s.onto past sink).isStopping from hlate)]
  · rw [spawn_eq hlate, spawn_eq (show ¬ (_ ∧ (s.onto past sink).isStopping) from hlate),
      onto_created, onto_rejected, onto_queue, onto_strands, onto_maxPending]
    cases s.queue.admit? ⟨s.strands.next⟩ (r.admission.limit s.maxPending) <;> rfl

@[simp] theorem onto_spawnChild (parent : StrandId) (body : B) :
    (s.onto past sink).spawnChild parent body =
      ((s.spawnChild parent body).1.onto past sink, (s.spawnChild parent body).2) := by
  unfold spawnChild
  dsimp only
  rw [onto_updateStrand, onto_spawn]
  generalize (s.updateStrand parent fun st => { st with children := st.children.add }).spawn
    { body := body, admission := .internal, parent := some parent } = made
  obtain ⟨s', answer⟩ := made
  cases answer <;> rfl

@[simp] theorem onto_park (id : StrandId) :
    (s.onto past sink).park id = ((s.park id).1.onto past sink, (s.park id).2) := by
  unfold park
  rw [onto_strand?]
  cases s.strand? id with
  | none => rfl
  | some st =>
    dsimp only
    repeat' split
    all_goals rfl

/-! ## Completions and answers -/

/-- A cancellation that depends on nothing that is written down. -/
def Blind (nested : Cancel V B) : Prop :=
  ∀ (s : Scheduler V B) id reason past sink,
    nested (s.onto past sink) id reason =
      ((nested s id reason).1.onto past sink, (nested s id reason).2)

theorem onto_wakeWith (hn : Blind nested) (id : StrandId) :
    (s.onto past sink).wakeWith nested id =
      ((s.wakeWith nested id).1.onto past sink, (s.wakeWith nested id).2) := by
  unfold wakeWith
  rw [onto_terminated, onto_strand?, hn]
  split
  · rfl
  · cases s.strand? id with
    | none => rfl
    | some st =>
      dsimp only
      rw [onto_updateStrand]
      cases st.status.wake.2 with
      | enqueue => simp only [onto_count, onto_emit, onto_enqueue]
      | _ => rfl

theorem onto_deliverWith (hn : Blind nested) (b : BridgeId) (payload : Wakeup V) :
    (s.onto past sink).deliverWith nested b payload =
      ((s.deliverWith nested b payload).1.onto past sink, (s.deliverWith nested b payload).2) := by
  unfold deliverWith
  rw [onto_bridge?, onto_isShutDown]
  cases s.bridge? b with
  | none => rfl
  | some bridge =>
    dsimp only
    cases bridge.claim? payload with
    | none => rfl
    | some claimed =>
      dsimp only
      rw [onto_setBridge]
      exact onto_wakeWith hn bridge.strand

theorem onto_performWith (hn : Blind nested) (effects : List (Effect V)) :
    (s.onto past sink).performWith nested effects =
      (s.performWith nested effects).onto past sink := by
  induction effects generalizing s with
  | nil => rfl
  | cons e rest ih =>
    cases e with
    | panic => rfl
    | complete b payload =>
      unfold performWith
      rw [onto_deliverWith hn]
      exact ih

theorem onto_answerWith (hn : Blind nested) (j : JobId) (answer : Outcome (List V)) :
    (s.onto past sink).answerWith nested j answer =
      (s.answerWith nested j answer).onto past sink := by
  unfold answerWith
  rw [onto_job?]
  cases s.job? j with
  | none => rfl
  | some entry =>
    dsimp only
    rw [onto_answered]
    exact onto_performWith hn _

theorem onto_submitWith (hn : Blind nested) (j : JobId) (index : Nat) (r : Outcome V) :
    (s.onto past sink).submitWith nested j index r =
      ((s.submitWith nested j index r).1.onto past sink, (s.submitWith nested j index r).2) := by
  unfold submitWith
  rw [onto_job?]
  cases s.job? j with
  | none => rfl
  | some entry =>
    dsimp only
    cases entry.job.submit index r with
    | error e => rfl
    | ok p =>
      obtain ⟨job, answer⟩ := p
      dsimp only
      cases answer with
      | none => rfl
      | some answer =>
        dsimp only
        rw [onto_updateJob, onto_answerWith hn]

/-! ## The strands of a job -/

theorem onto_launch (j : JobId) (drive : Drive V B) (index : Nat) :
    (s.onto past sink).launch j drive index =
      ((s.launch j drive index).1.onto past sink, (s.launch j drive index).2) := by
  unfold launch
  cases (drive.inputs[index]?).join with
  | none => rfl
  | some input =>
    dsimp only
    rw [onto_updateJob]
    cases drive.callable index input with
    | error p => rfl
    | ok body =>
      dsimp only
      rw [onto_spawn]
      generalize Scheduler.spawn _ _ = made
      obtain ⟨s', answer⟩ := made
      cases answer <;> rfl

theorem onto_launchNextWith (hn : Blind nested) (j : JobId) (rounds : Nat) :
    launchNextWith nested j rounds (s.onto past sink) =
      ((launchNextWith nested j rounds s).1.onto past sink,
        (launchNextWith nested j rounds s).2) := by
  induction rounds generalizing s with
  | zero => rfl
  | succ rounds ih =>
    unfold launchNextWith
    rw [onto_job?]
    cases s.job? j with
    | none => rfl
    | some entry =>
      dsimp only
      cases entry.drive with
      | none => rfl
      | some drive =>
        dsimp only
        rw [onto_updateJob]
        cases entry.job.claim.2 with
        | none => rfl
        | some index =>
          dsimp only
          rw [onto_launch]
          generalize Scheduler.launch _ j drive index = launched
          obtain ⟨s', outcome⟩ := launched
          cases outcome with
          | launched => rfl
          | panicked p => rfl
          | refused failure =>
            dsimp only
            rw [onto_submitWith hn]
            split
            · exact ih
            · rfl

theorem onto_resolveWith (hn : Blind nested) (hook : Hook) (outcome : Outcome V) :
    (s.onto past sink).resolveWith nested hook outcome =
      (s.resolveWith nested hook outcome).onto past sink := by
  unfold resolveWith
  dsimp only
  rw [onto_submitWith hn]
  dsimp only
  rw [onto_job?, onto_launchRounds]
  split
  · split
    · rw [onto_launchNextWith hn]
    · rfl
  · rfl

/-! ## Cancelling -/

@[simp] theorem onto_closeBridge (id : StrandId) (slot : Option BridgeId) :
    (s.onto past sink).closeBridge id slot = (s.closeBridge id slot).onto past sink := by
  unfold closeBridge
  cases slot with
  | none => rfl
  | some b =>
    dsimp only
    rw [onto_updateStrand, onto_bridge?]
    split <;> rfl

theorem blind_cancelStep (hn : Blind nested) : Blind (cancelStep nested) := by
  intro s id reason past sink
  unfold cancelStep
  rw [onto_strand?]
  cases s.strand? id with
  | none => rfl
  | some st =>
    dsimp only
    cases st.status.cancel? with
    | none => rfl
    | some status =>
      dsimp only
      simp only [onto_updateStrand, onto_closeBridge, onto_releaseChildren, onto_count, onto_emit]
      cases st.hook with
      | none => rfl
      | some hook =>
        dsimp only
        rw [onto_resolveWith hn]
        rfl

theorem blind_cancelWithin (levels : Nat) : Blind (cancelWithin (V := V) (B := B) levels) := by
  induction levels with
  | zero => exact fun _ _ _ _ _ => rfl
  | succ levels ih => exact blind_cancelStep ih

/-- **A cancellation depends on nothing that is written down**, with everything that it sets
    off. -/
theorem blind_cancel : Blind (cancel (V := V) (B := B)) :=
  fun s id reason past sink => blind_cancelWithin s.live.length s id reason past sink

/-! ## Completing -/

@[simp] theorem onto_cancel (id : StrandId) (reason : Failure) :
    (s.onto past sink).cancel id reason =
      ((s.cancel id reason).1.onto past sink, (s.cancel id reason).2) :=
  blind_cancel s id reason past sink

@[simp] theorem onto_deliver (b : BridgeId) (payload : Wakeup V) :
    (s.onto past sink).deliver b payload =
      ((s.deliver b payload).1.onto past sink, (s.deliver b payload).2) :=
  onto_deliverWith blind_cancel b payload

@[simp] theorem onto_complete (b : BridgeId) (r : Outcome V) :
    (s.onto past sink).complete b r = ((s.complete b r).1.onto past sink, (s.complete b r).2) :=
  onto_deliver b (.completed r)

@[simp] theorem onto_tryComplete (b : BridgeId) (r : Outcome V) :
    (s.onto past sink).tryComplete b r =
      ((s.tryComplete b r).1.onto past sink, (s.tryComplete b r).2) := by
  unfold tryComplete
  rw [onto_bridge?]
  cases s.bridge? b with
  | none => rfl
  | some bridge =>
    dsimp only
    rw [onto_complete]
    split <;> rfl

@[simp] theorem onto_submit (j : JobId) (index : Nat) (r : Outcome V) :
    (s.onto past sink).submit j index r =
      ((s.submit j index r).1.onto past sink, (s.submit j index r).2) :=
  onto_submitWith blind_cancel j index r

@[simp] theorem onto_deliverFired (fired : Option (Delivery V)) :
    (s.onto past sink).deliverFired fired = (s.deliverFired fired).onto past sink := by
  cases fired with
  | none => rfl
  | some d => exact congrArg Prod.fst (onto_deliver d.bridge d.payload)

/-! ## Invocations -/

@[simp] theorem onto_addJob (length : Nat) (callback : Callback V) (d : Option (Drive V B)) :
    (s.onto past sink).addJob length callback d =
      ((s.addJob length callback d).1.onto past sink, (s.addJob length callback d).2) := by
  unfold addJob
  dsimp only
  cases (Job.start length : Job V × Option (Outcome (List V))).2 with
  | none => rfl
  | some answer =>
    exact Prod.ext (onto_answerWith
      (s := { s with jobs := s.jobs.add ⟨(Job.start length).1, callback, d⟩ }) blind_cancel _ _) rfl

@[simp] theorem onto_claim (j : JobId) :
    (s.onto past sink).claim j = ((s.claim j).1.onto past sink, (s.claim j).2) := by
  unfold claim
  rw [onto_job?]
  cases s.job? j <;> rfl

theorem onto_launchInitial (j : JobId) (n : Nat) :
    launchInitial j n (s.onto past sink) =
      ((launchInitial j n s).1.onto past sink, (launchInitial j n s).2) := by
  induction n generalizing s with
  | zero => rfl
  | succ n ih =>
    unfold launchInitial
    rw [onto_launchRounds, onto_launchNextWith blind_cancel]
    generalize launchNextWith cancel j (s.launchRounds j) s = launched
    obtain ⟨s', p⟩ := launched
    cases p with
    | none => exact ih
    | some p => rfl

@[simp] theorem onto_drive (inputs : List V) (callable : Nat → V → Except Panic B)
    (concurrency : Concurrency) (callback : Callback V) :
    (s.onto past sink).drive inputs callable concurrency callback =
      ((s.drive inputs callable concurrency callback).1.onto past sink,
        (s.drive inputs callable concurrency callback).2) := by
  unfold drive
  dsimp only
  rw [onto_addJob]
  dsimp only
  rw [onto_launchInitial]

@[simp] theorem onto_invoke (inputs : List V) (callable : Nat → V → Except Panic B)
    (concurrency : Concurrency) (callback : Callback V) :
    (s.onto past sink).invoke inputs callable concurrency callback =
      ((s.invoke inputs callable concurrency callback).1.onto past sink,
        (s.invoke inputs callable concurrency callback).2) := by
  unfold invoke
  rw [onto_isStopping, onto_drive]
  split
  · rfl
  · generalize s.drive inputs callable concurrency callback = driven
    obtain ⟨s', j, p⟩ := driven
    cases p <;> rfl

@[simp] theorem onto_invokeParked (id : StrandId) (inputs : List V)
    (callable : Nat → V → Except Panic B) (concurrency : Concurrency) :
    (s.onto past sink).invokeParked id inputs callable concurrency =
      ((s.invokeParked id inputs callable concurrency).1.onto past sink,
        (s.invokeParked id inputs callable concurrency).2) := by
  unfold invokeParked
  rw [onto_park]
  generalize s.park id = parked
  obtain ⟨s', answer⟩ := parked
  cases answer with
  | error e => rfl
  | ok b =>
    dsimp only
    rw [onto_drive]
    generalize Scheduler.drive _ _ _ _ _ = driven
    obtain ⟨s', j, p⟩ := driven
    cases p <;> rfl

/-! ## Segments -/

@[simp] theorem onto_takeWakeup (id : StrandId) (st : Strand V B) :
    (s.onto past sink).takeWakeup id st =
      ((s.takeWakeup id st).1.onto past sink, (s.takeWakeup id st).2) := by
  unfold takeWakeup
  simp only [onto_bridge?]
  split <;> rfl

@[simp] theorem onto_handOver (id : StrandId) (st : Strand V B) (outcome : Outcome V) :
    (s.onto past sink).handOver id st outcome =
      ((s.handOver id st outcome).1.onto past sink, (s.handOver id st outcome).2) := by
  unfold handOver
  simp only [onto_strand?]
  cases st.hook with
  | some hook => exact Prod.ext (onto_resolveWith blind_cancel hook outcome) rfl
  | none =>
    dsimp only
    split
    · next parent ps _ =>
      rw [onto_updateStrand]
      cases (ps.children.settle id outcome).2 with
      | recorded fired => exact Prod.ext (onto_deliverFired fired) rfl
      | returned outcome => exact Prod.ext (onto_reportUnhandled id outcome) rfl
    · exact Prod.ext (onto_reportUnhandled id outcome) rfl

@[simp] theorem onto_finish (id : StrandId) (outcome : Outcome V) :
    (s.onto past sink).finish id outcome = (s.finish id outcome).onto past sink := by
  unfold finish
  rw [onto_strand?]
  cases s.strand? id with
  | none => rfl
  | some st =>
    dsimp only
    cases st.status.finish? outcome.isOk with
    | none => rfl
    | some status =>
      dsimp only
      simp only [onto_updateStrand, onto_count, onto_emit, onto_releaseChildren, onto_handOver,
        onto_retire]

@[simp] theorem onto_beginSegment (id : StrandId) :
    (s.onto past sink).beginSegment id =
      ((s.beginSegment id).1.onto past sink, (s.beginSegment id).2) := by
  unfold beginSegment
  rw [onto_strand?]
  cases (s.strand? id).bind fun st => st.status.dispatch?.map (st, ·) with
  | none => rfl
  | some p =>
    dsimp only
    rw [onto_updateStrand, onto_count, onto_emit, onto_takeWakeup]
    cases p.1.body with
    | none =>
      dsimp only
      rw [onto_finish, onto_release]
    | some body => rfl

@[simp] theorem onto_dispatch :
    (s.onto past sink).dispatch = (s.dispatch.1.onto past sink, s.dispatch.2) := by
  unfold dispatch
  rw [onto_canDispatch, onto_queue]
  split
  · generalize s.queue.pop = popped
    obtain ⟨queue, p⟩ := popped
    cases p with
    | strand id => exact onto_beginSegment (s := { s with queue := queue }) id
    | _ => rfl
  · rfl

@[simp] theorem onto_block (id : StrandId) :
    (s.onto past sink).block id = (s.block id).onto past sink := by
  unfold block
  simp only [onto_count, onto_emit, onto_strand?]
  split
  · rfl
  · simp only [onto_updateStrand]
    split
    · simp only [onto_count, onto_emit, onto_enqueue]
    · rfl

@[simp] theorem onto_requeue (id : StrandId) :
    (s.onto past sink).requeue id = (s.requeue id).onto past sink := by
  unfold requeue
  simp only [onto_strand?]
  split <;> rfl

@[simp] theorem onto_blockOnChildren (id : StrandId) (mode : WaitMode) :
    (s.onto past sink).blockOnChildren id mode = (s.blockOnChildren id mode).onto past sink := by
  unfold blockOnChildren
  simp only [onto_issueBridge, onto_block, onto_strand?]
  split
  · rfl
  · simp only [onto_updateStrand, onto_deliverFired]

@[simp] theorem onto_follow (id : StrandId) (body : B) (step : Step V) :
    (s.onto past sink).follow id body step = (s.follow id body step).onto past sink := by
  unfold follow
  simp only [onto_strand?]
  cases step with
  | done outcome => exact onto_finish id outcome
  | yield => simp only [onto_keepBody, onto_block, onto_requeue]; split <;> rfl
  | park => simp only [onto_keepBody, onto_block, onto_finish]; split <;> rfl
  | await mode => simp only [onto_keepBody, onto_blockOnChildren, onto_finish]; split <;> rfl

@[simp] theorem onto_endSegment (id : StrandId) (body : B) (step : Step V) :
    (s.onto past sink).endSegment id body step =
      (s.endSegment id body step).onto past sink := by
  unfold endSegment
  rw [onto_isCancelling, onto_cancel, onto_follow]
  split <;> rfl

/-! ## Timers, handles and shutdowns -/

@[simp] theorem onto_armTimer (b : BridgeId) (d now : Duration) :
    (s.onto past sink).armTimer b d now =
      (s.armTimer b d now).map fun armed => (armed.1.onto past sink, armed.2) := by
  unfold armTimer
  split <;> rfl

@[simp] theorem onto_pollTimer (t : TimerId) :
    (s.onto past sink).pollTimer t = (s.pollTimer t).onto past sink := by
  unfold pollTimer
  simp only [onto_timer?]
  split <;> rfl

@[simp] theorem onto_expireTimer (t : TimerId) :
    (s.onto past sink).expireTimer t = (s.expireTimer t).onto past sink := by
  unfold expireTimer
  rw [onto_timer?]
  cases s.timer? t with
  | none => rfl
  | some timer =>
    dsimp only
    cases timer.expire.2 with
    | none => rfl
    | some e =>
      exact congrArg Prod.fst (onto_tryComplete (s := { s with
        timers := s.timers.update t.number fun _ => timer.expire.1 }) timer.bridge (.err e))

@[simp] theorem onto_join (id : StrandId) :
    (s.onto past sink).join id =
      (s.join id).map fun joined => (joined.1.onto past sink, joined.2) := by
  unfold join
  rw [onto_strand?]
  cases s.strand? id with
  | none => rfl
  | some st =>
    dsimp only
    cases st.join id <;> rfl

@[simp] theorem onto_beginShutdown (mode : ShutdownMode) :
    (s.onto past sink).beginShutdown mode =
      (s.beginShutdown mode).map (·.onto past sink) := by
  unfold beginShutdown
  show (s.phase.enter? mode.phase).map _ = _
  cases s.phase.enter? mode.phase <;> rfl

end Scheduler
end CoopSched
