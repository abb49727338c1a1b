import CoopSched.Proofs.Fallback.Agreement
import CoopSched.Proofs.Scheduler.Guards

/-!
# Unneeded — the bare scheduler always has an answer

The rest of a move is what its own strand does and what the embedder starts. A strand that a worker
takes is ready, has its body and is told something, one whose segment ends is running, and a job is
created with all of its inputs. So the bare scheduler has the answer of the scheduler after every
move (`Stable.agreed`), and a run of the one is a run of the other (`no_fallback`): no fallback is
ever taken.
-/

namespace CoopSched
namespace Scheduler

variable {V B : Type} {n : Nat} {drained : Bool} {busy : List StrandId} {s s₀ : Scheduler V B}
  {id : StrandId} {st : Strand V B}

/-! ## What the embedder starts -/

theorem agreed_tryComplete (h : Fit n s) (b : BridgeId) (r : Outcome V) :
    Agreed (Bare.tryComplete s b r) (s.tryComplete b r).1 := by
  unfold Bare.tryComplete tryComplete
  cases s.bridge? b with
  | none => exact ⟨rfl, h.figured⟩
  | some bridge =>
    dsimp only
    cases bridge.isCompleted with
    | true => exact ⟨rfl, h.figured⟩
    | false => exact agreed_deliverWith mirrors_cancel h b (.completed r)

theorem agreed_deliverFired (h : Fit n s) (fired : Option (Delivery V)) :
    Agreed (Bare.deliverFired s fired) (s.deliverFired fired) := by
  cases fired with
  | none => exact ⟨rfl, h.figured⟩
  | some d => exact agreed_deliverWith mirrors_cancel h d.bridge d.payload

theorem agreed_expireTimer (h : Fit n s) (t : TimerId) :
    Agreed (Bare.expireTimer s t) (s.expireTimer t) := by
  unfold Bare.expireTimer Scheduler.expireTimer
  cases s.timer? t with
  | none => exact ⟨rfl, h.figured⟩
  | some timer =>
    have hfit : Fit n { s with timers := s.timers.update t.number fun _ => timer.expire.1 } :=
      ⟨⟨h.sound.callbacks, h.sound.waiters, h.sound.listed, h.sound.closed⟩,
        fun alive => (h.placed alive).imp fun _ hp =>
          hp.of_same (fun _ => rfl) (fun _ => rfl) rfl rfl,
        h.figured.of_jobs rfl⟩
    dsimp only
    cases timer.expire.2 with
    | none => exact ⟨rfl, hfit.figured⟩
    | some e => exact agreed_tryComplete hfit timer.bridge (.err e)

theorem agreed_addJob (h : Fit n s) (length : Nat) (callback : Callback V)
    (d : Option (Drive V B))
    (hinputs : ∀ d', d = some d' → ∀ i < length, (d'.inputs[i]?).join.isSome = true) :
    Agreed (Bare.addJob s length callback d) (s.addJob length callback d).1 := by
  have hfits := JobEntry.Fits.start length callback d hinputs
  have hanswer := Job.start_answer (V := V) length
  unfold Bare.addJob Scheduler.addJob
  generalize (Job.start length : Job V × Option (Outcome (List V))) = started at hfits hanswer ⊢
  obtain ⟨job, answer⟩ := started
  have hadded : Fit n
      { s with jobs := s.jobs.add { job := job, callback := callback, drive := d } } :=
    h.changes (.single (.addJob s _ fun _ _ _ _ => trivial)) (h.figured.add hfits)
  cases answer with
  | none => exact ⟨rfl, hadded.figured⟩
  | some answer =>
    -- Only a job over no index answers when it is created, and that it has no values.
    have haccounts : Bare.accounts job answer = true := by
      dsimp only at hanswer
      split at hanswer
      · rw [Option.some.inj hanswer]
        rfl
      · cases hanswer
    dsimp only
    rw [if_pos haccounts]
    exact agreed_answerWith mirrors_cancel hadded ⟨s.jobs.next⟩ answer

theorem agreed_launchInitial (j : JobId) (k : Nat) (h : Fit n s) :
    Agreed (Bare.launchInitial j k s) (launchInitial j k s).1 := by
  induction k generalizing s with
  | zero => exact ⟨rfl, h.figured⟩
  | succ k ih =>
    obtain ⟨hsame, hfigured⟩ := agreed_launchNextWith mirrors_cancel j (s.launchRounds j) h
    have hnext :=
      h.changes (changes_launchNextWith cancels_cancel j (s.launchRounds j) h.sound) hfigured
    unfold Bare.launchInitial Scheduler.launchInitial
    rw [hsame]
    generalize launchNextWith cancel j (s.launchRounds j) s = launched at hnext ⊢
    obtain ⟨s', p⟩ := launched
    cases p with
    | none => exact ih hnext
    | some p => exact ⟨rfl, hnext.figured⟩

theorem agreed_drive (h : Fit n s) (inputs : List V) (callable : Nat → V → Except Panic B)
    (concurrency : Concurrency) (callback : Callback V) :
    Agreed (Bare.drive s inputs callable concurrency callback)
      (s.drive inputs callable concurrency callback).1 := by
  have hadd := agreed_addJob h inputs.length callback
    (some ⟨inputs.map some, callable, concurrency.isChained⟩) (by
      intro d' hd i hi
      obtain rfl := Option.some.inj hd
      simp [hi])
  have hadded := h.changes (changes_addJob h.sound inputs.length callback
    (some ⟨inputs.map some, callable, concurrency.isChained⟩) fun _ _ _ _ => trivial) hadd.figured
  have hlaunch := agreed_launchInitial ⟨s.jobs.next⟩ (concurrency.initial inputs.length) hadded
  rw [drive_eq]
  refine ⟨?_, hlaunch.figured⟩
  unfold Bare.drive
  rw [hadd.same, Option.bind_some, hlaunch.same]

theorem agreed_invoke (h : Fit n s) (inputs : List V) (callable : Nat → V → Except Panic B)
    (concurrency : Concurrency) (callback : Callback V) :
    Agreed (Bare.invoke s inputs callable concurrency callback)
      (s.invoke inputs callable concurrency callback).1 := by
  have hdrive := agreed_drive h inputs callable concurrency callback
  unfold Bare.invoke Scheduler.invoke
  cases s.isStopping with
  | true => exact ⟨rfl, h.figured⟩
  | false =>
    rw [if_neg Bool.false_ne_true, if_neg Bool.false_ne_true]
    generalize s.drive inputs callable concurrency callback = driven at hdrive ⊢
    obtain ⟨s', j, p⟩ := driven
    cases p <;> exact hdrive

theorem Mid.fit (h : Mid Anything busy s₀ s) (hf : Figured s) : ∃ n, Fit n s := by
  obtain ⟨n, hn⟩ := h.sound
  exact ⟨n, hn, fun _ => ⟨busy, h.placed⟩, hf⟩

theorem agreed_invokeParked (h : Mid Anything busy s₀ s) (hf : Figured s) (id : StrandId)
    (inputs : List V) (callable : Nat → V → Except Panic B) (concurrency : Concurrency) :
    Agreed (Bare.invokeParked s id inputs callable concurrency)
      (s.invokeParked id inputs callable concurrency).1 := by
  unfold Bare.invokeParked
  rcases invokeParked_cases s id inputs callable concurrency with
    ⟨⟨e, hpark⟩, heq⟩ | ⟨st, hst, hrun, hslot, hpark, heq⟩
  · rw [hpark, heq]
    exact ⟨rfl, hf⟩
  · rw [hpark, heq]
    obtain ⟨n, hn⟩ := (h.issue hst hrun hslot).fit (hf.of_jobs rfl)
    exact agreed_drive hn inputs callable concurrency _

/-! ## The end of a segment -/

theorem jobs_reportUnhandled (s : Scheduler V B) (id : StrandId) (outcome : Outcome V) :
    (s.reportUnhandled id outcome).jobs = s.jobs := by
  obtain ⟨journal, channel, heq⟩ := s.reportUnhandled_eq id outcome
  rw [heq]

theorem agreed_handOver (h : Fit n s) (id : StrandId) (st : Strand V B) (outcome : Outcome V) :
    Bare.handOver s id st outcome = some (s.handOver id st outcome) ∧
      Figured (s.handOver id st outcome).1 := by
  unfold Bare.handOver Scheduler.handOver
  cases st.hook with
  | some hook =>
    have hresolve := agreed_resolveWith mirrors_cancel h hook outcome
    refine ⟨?_, hresolve.figured⟩
    dsimp only
    rw [hresolve.same, Option.map_some]
  | none =>
    dsimp only
    cases hp : st.parent.bind fun p => (s.strand? p).map (p, ·) with
    | none => exact ⟨rfl, h.figured.of_jobs (jobs_reportUnhandled s id outcome)⟩
    | some p =>
      obtain ⟨parent, ps⟩ := p
      have hps : s.strand? parent = some ps := by
        obtain ⟨p, -, hmap⟩ := Option.bind_eq_some_iff.mp hp
        obtain ⟨ps', hps', heq⟩ := Option.map_eq_some_iff.mp hmap
        obtain ⟨rfl, rfl⟩ := Prod.mk.inj heq
        exact hps'
      have hsettled := h.changes (.single (change_settle id hps outcome)) (h.figured.of_jobs rfl)
      dsimp only
      cases (ps.children.settle id outcome).2 with
      | recorded fired =>
        have hfired := agreed_deliverFired hsettled fired
        refine ⟨?_, hfired.figured⟩
        dsimp only
        rw [hfired.same, Option.map_some]
      | returned outcome' =>
        exact ⟨rfl, hsettled.figured.of_jobs (jobs_reportUnhandled _ id outcome')⟩

theorem agreed_finish (h : Mid Anything busy s₀ s) (hf : Figured s) (hst : s.strand? id = some st)
    (hrun : st.status.isRunning = true) (outcome : Outcome V) :
    Agreed (Bare.finish s id outcome) (s.finish id outcome) := by
  obtain ⟨m, hm⟩ := Status.exists_of_running hrun
  have hmarked : Figured (s.markFinished id outcome.isOk) := by
    obtain ⟨counters, journal, channel, heq⟩ := s.markFinished_eq id outcome.isOk
    exact hf.of_jobs (by rw [heq])
  obtain ⟨n, hn⟩ := (h.markFinished hst hrun outcome.isOk).fit hmarked
  obtain ⟨hsame, hfigured⟩ := agreed_handOver hn id st outcome
  rw [finish_running hst hm]
  refine ⟨?_, hfigured.of_jobs rfl⟩
  unfold Bare.finish
  rw [hst, Option.bind_some, hm, Status.finish?, Option.bind_some, hsame, Option.map_some]

theorem bare_block (hst : s.strand? id = some st) (hrun : st.status.isRunning = true) :
    Bare.block s id = some (s.block id) := by
  obtain ⟨m, hm⟩ := Status.exists_of_running hrun
  unfold Bare.block
  rw [hst, Option.bind_some, hm]
  cases m <;> rfl

theorem jobs_block (hst : s.strand? id = some st) (hrun : st.status.isRunning = true) :
    (s.block id).jobs = s.jobs := by
  obtain ⟨m, hm⟩ := Status.exists_of_running hrun
  obtain ⟨counters, journal, channel, heq⟩ := block_running hst hm
  rw [heq]

theorem agreed_block (hf : Figured s) (hst : s.strand? id = some st)
    (hrun : st.status.isRunning = true) : Agreed (Bare.block s id) (s.block id) :=
  ⟨bare_block hst hrun, hf.of_jobs (jobs_block hst hrun)⟩

theorem agreed_requeue (hf : Figured s) (hst : s.strand? id = some st)
    (hrun : st.status.isRunning = true) : Agreed (Bare.requeue s id) (s.requeue id) := by
  obtain ⟨m, hm⟩ := Status.exists_of_running hrun
  refine ⟨?_, hf.of_jobs (by rw [requeue_running hst hm])⟩
  unfold Bare.requeue
  rw [hst, Option.bind_some, hm]
  rfl

theorem agreed_blockOnChildren (h : Mid Anything busy s₀ s) (hf : Figured s)
    (hst : s.strand? id = some st) (hrun : st.status.isRunning = true) (hslot : st.bridge = none)
    (hbody : st.body.isSome = true) (mode : WaitMode) :
    Agreed (Bare.blockOnChildren s id mode) (s.blockOnChildren id mode) := by
  have hrow := (issueBridge_strand? hst id).trans (if_pos rfl)
  obtain ⟨m, hm⟩ := Status.exists_of_running hrun
  have hblock := (h.issue hst hrun hslot).block hrow hrun rfl hbody
  have hrow' := (block_strand? hrow hm id).trans (if_pos rfl)
  have hblocked : Figured ((s.issueBridge id).1.block id) :=
    hf.of_jobs (jobs_block hrow hrun)
  obtain ⟨n, hn⟩ := (hblock.armed hrow' (b := (s.issueBridge id).2) (fun _ => trivial) mode).fit
    (hblocked.of_jobs rfl)
  have harm := agreed_deliverFired hn (st.children.arm mode (s.issueBridge id).2).2
  unfold Bare.blockOnChildren Scheduler.blockOnChildren
  rw [bare_block hrow hrun, Option.bind_some, hrow', Option.bind_some]
  dsimp only
  rw [hrow']
  exact harm

theorem agreed_follow (h : Mid Anything busy s₀ s) (hf : Figured s)
    (hst : s.strand? id = some st) (hrun : st.status.isRunning = true) (body : B)
    (step : Step V) : Agreed (Bare.follow s id body step) (s.follow id body step) := by
  have hkeep := h.keepBody hst hrun body
  have hfigured : Figured (s.keepBody id body) := hf.of_jobs rfl
  have hrow := (keepBody_strand? hst body id).trans (if_pos rfl)
  unfold Bare.follow Scheduler.follow
  rw [hst, Option.bind_some]
  cases hslot : st.bridge with
  | none =>
    cases step with
    | done outcome => exact agreed_finish h hf hst hrun outcome
    | yield => exact agreed_requeue hfigured hrow hrun
    | park => exact agreed_finish h hf hst hrun _
    | await mode => exact agreed_blockOnChildren hkeep hfigured hrow hrun hslot rfl mode
  | some b =>
    cases step with
    | done outcome => exact agreed_finish h hf hst hrun outcome
    | yield => exact agreed_block hfigured hrow hrun
    | park => exact agreed_block hfigured hrow hrun
    | await mode => exact agreed_finish h hf hst hrun _

theorem Stable.agreed_endSegment (h : Stable Anything drained s) (hf : Figured s)
    (hid : id ∈ s.held) (body : B) (step : Step V) :
    Agreed (Bare.endSegment s id body step) (s.endSegment id body step) := by
  obtain ⟨st, hst, hrun⟩ := (h.placed.busy_iff id).mp hid
  unfold Bare.endSegment Scheduler.endSegment
  split
  · obtain ⟨n, hn⟩ := h.mid.fit hf
    have hcancel := agreed_cancel hn
      (fun _ => h.placed.running_not_waiting hst hrun) shutDownReason
    refine ⟨?_, hcancel.figured.of_jobs rfl⟩
    rw [hcancel.same, Option.map_some]
  · have hfollow := agreed_follow h.mid hf hst hrun body step
    refine ⟨?_, hfollow.figured.of_jobs rfl⟩
    rw [hfollow.same, Option.map_some]

/-! ## The start of a segment -/

/-- A strand that is ready is told something: what its bridge holds, or what was left for it. -/
theorem told?_isSome (h : Placed busy s) (hp : Primed s) (hst : s.strand? id = some st)
    (hs : st.status = .runnable) : (Bare.told? s st).isSome = true := by
  unfold Bare.told?
  cases hslot : st.bridge with
  | none => exact hp id st hst (Or.inl hs) hslot
  | some b =>
    obtain ⟨w, hb⟩ := (h.slot id st hst).holding hslot (Or.inl hs)
    dsimp only
    rw [hb]
    rfl

theorem Stable.agreed_dispatch (h : Stable Anything drained s) (hf : Figured s)
    (hprimed : s.terminated = false → Primed s) : Agreed (Bare.dispatch s) s.dispatch.1 := by
  have hfigured : Figured s.dispatch.1 := by
    have hd := h.placed.dispatched
    generalize s.dispatch.1 = s', s.dispatch.2 = seg at hd
    cases hd <;> exact hf.of_jobs rfl
  refine ⟨?_, hfigured⟩
  unfold Bare.dispatch
  cases hcan : s.canDispatch with
  | false =>
    rw [dispatch_idle hcan]
    rfl
  | true =>
    obtain ⟨id, rest, hq⟩ : ∃ id rest, s.queue.waiting = id :: rest := by
      cases hw : s.queue.waiting with
      | nil =>
        rw [canDispatch, hw] at hcan
        simp at hcan
      | cons id rest => exact ⟨id, rest, rfl⟩
    obtain ⟨st, hst, hs⟩ := h.placed.waiting_runnable id (by rw [hq]; exact List.mem_cons_self)
    obtain ⟨body, hbody⟩ := Option.isSome_iff_exists.mp (h.placed.body id st hst (Or.inl hs))
    obtain ⟨w, hw⟩ := Option.isSome_iff_exists.mp
      (told?_isSome h.placed (hprimed (canDispatch_alive hcan)) hst hs)
    rw [dispatch_front hcan hq, if_pos rfl, pop_front hcan hq]
    unfold Bare.beginSegment
    have hst' : Scheduler.strand? { s with queue :=
        { s.queue with waiting := rest, running := s.queue.running + 1 } } id = some st := hst
    have hw' : Bare.told? { s with queue :=
        { s.queue with waiting := rest, running := s.queue.running + 1 } } st = some w := hw
    dsimp only
    rw [hst', Option.bind_some, hs, Status.dispatch?, Option.bind_some, hw', Option.bind_some,
      hbody, Option.map_some]

/-! ## Every move -/

theorem jobs_spawnChild (s : Scheduler V B) (parent : StrandId) (body : B) :
    (s.spawnChild parent body).1.jobs = s.jobs := by
  have hspawn := jobs_spawn (s.updateStrand parent fun st =>
    { st with children := st.children.add })
    { body := body, admission := .internal, parent := some parent }
  unfold spawnChild
  dsimp only
  split
  next heq =>
    rw [heq] at hspawn
    exact hspawn
  next heq =>
    rw [heq] at hspawn
    exact hspawn

/-- **After every move that may come the bare scheduler has the answer.** -/
theorem Stable.agreed (h : Stable Anything drained s) (hf : Figured s)
    (hprimed : s.terminated = false → Primed s) {m : Move V B} (ha : s.Allows m) :
    Agreed (Bare.after s m) (s.after m) := by
  obtain ⟨n, hn⟩ := h.mid.fit hf
  cases m with
  | spawn body name => exact ⟨rfl, hf.of_jobs (jobs_spawn s _)⟩
  | park id =>
    refine ⟨rfl, ?_⟩
    show Figured (s.park id).1
    rcases park_cases s id with ⟨e, heq⟩ | ⟨st, -, -, -, heq⟩ <;> rw [heq]
    · exact hf
    · exact hf.of_jobs rfl
  | complete b r => exact agreed_deliverWith mirrors_cancel hn b (.completed r)
  | tryComplete b r => exact agreed_tryComplete hn b r
  | deliver b payload => exact agreed_deliverWith mirrors_cancel hn b payload
  | invoke inputs callable concurrency callback =>
    exact agreed_invoke hn inputs callable concurrency callback
  | createJob length callback => exact agreed_addJob hn length callback none nofun
  | submit j index r => exact agreed_submitWith mirrors_cancel hn j index r
  | claim j => exact ⟨rfl, hf.claim j⟩
  | armTimer b d now =>
    refine ⟨rfl, hf.of_jobs ?_⟩
    obtain ⟨timers, heq⟩ := after_armTimer s b d now
    rw [heq]
  | pollTimer t =>
    refine ⟨rfl, hf.of_jobs ?_⟩
    obtain ⟨timers, heq⟩ := after_pollTimer s t
    rw [heq]
  | expireTimer t => exact agreed_expireTimer hn t
  | join id =>
    refine ⟨rfl, hf.of_jobs ?_⟩
    show (((s.join id).map (·.1)).getD s).jobs = s.jobs
    rcases join_cases s id with heq | ⟨outcome, heq⟩ <;> rw [heq]
    rfl
  | drainChannel =>
    refine ⟨rfl, hf.of_jobs ?_⟩
    show ((s.drainChannel.map (·.1)).getD s).jobs = s.jobs
    unfold Scheduler.drainChannel
    cases s.channel <;> rfl
  | spawnDetached id body => exact ⟨rfl, hf.of_jobs (jobs_spawn s _)⟩
  | spawnChild id body => exact ⟨rfl, hf.of_jobs (jobs_spawnChild s id body)⟩
  | invokeParked id inputs callable concurrency =>
    exact agreed_invokeParked h.mid hf id inputs callable concurrency
  | dispatch => exact h.agreed_dispatch hf hprimed
  | endSegment id body step => exact h.agreed_endSegment hf ha body step
  | beginShutdown mode =>
    refine ⟨rfl, hf.of_jobs ?_⟩
    show ((s.beginShutdown mode).getD s).jobs = s.jobs
    unfold Scheduler.beginShutdown
    cases s.phase.enter? mode.phase <;> rfl
  | cancel id =>
    refine agreed_cancel hn (fun alive => ?_) s.cleanUpReason
    rw [ha.1] at alive
    cases alive
  | disarmTimer | detachTimer | closeQueue | terminate | drain => exact ⟨rfl, hf.of_jobs rfl⟩

/-! ## Runs -/

theorem Initial.figured (hs : Initial s) : Figured s := by
  intro j entry hj
  rw [job?, hs.empty.2.2.1, get?_empty] at hj
  cases hj

/-- **No run needs a fallback: the bare scheduler comes through it as the scheduler does.** Every
    strand that is popped is ready, has its body and has something to be told, nobody is woken who
    stands in the queue, whoever is to finish, to park or to be queued again is running, no input
    is claimed twice, and every job answers what was submitted to it. -/
theorem no_fallback (hs : Initial s) {ms : List (Move V B)} (ha : s.Admissible ms) :
    Bare.run s ms = some (s.run ms) := by
  suffices h : ∀ before rest, s.Admissible (before ++ rest) → Figured (s.run before) →
      Bare.run (s.run before) rest = some ((s.run before).run rest) from
    h [] ms ha hs.figured
  -- On the moves still to come. What was before says where the strands are and what is left for
  -- them.
  intro before rest
  induction rest generalizing before with
  | nil => exact fun _ _ => rfl
  | cons m rest ih =>
    intro ha hf
    obtain ⟨hbefore, hm, -⟩ := admissible_append.mp ha
    have hagreed := (hs.stable_run hbefore).agreed hf (hs.primed_run hbefore) hm
    rw [Bare.run, hagreed.same, Option.bind_some, run_cons]
    have hnext := ih (before ++ [m])
    rw [run_snoc, List.append_assoc, List.singleton_append] at hnext
    exact hnext ha hagreed.figured

/-- A strand parks on a job over two inputs that runs them in turn, is woken by its answer, and
    finishes while an immediate shutdown has begun. -/
theorem no_fallback_shut_down :
    let ms : List (Move Nat Unit) := [.spawn () none, .dispatch,
      .invokeParked ⟨1⟩ [10, 20] (fun _ _ => .ok ()) (.bounded 1), .endSegment ⟨1⟩ () .park,
      .dispatch, .endSegment ⟨2⟩ () (.done (.ok 1)), .dispatch,
      .endSegment ⟨3⟩ () (.done (.ok 2)), .dispatch, .beginShutdown .immediate,
      .endSegment ⟨1⟩ () (.done (.ok 3)), .closeQueue, .terminate, .drain, .cancel ⟨1⟩]
    single.Admissible ms ∧ Bare.run single ms = some (single.run ms) ∧
      (single.run ms).live = [] := by
  intro ms
  have ha : single.Admissible ms := by simp [ms, Admissible, Allows]; decide
  exact ⟨ha, no_fallback single_initial ha, rfl⟩

end Scheduler
end CoopSched
