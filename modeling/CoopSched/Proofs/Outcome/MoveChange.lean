import CoopSched.Proofs.Children.FamilyChange
import CoopSched.Proofs.Outcome.Reports
import CoopSched.Proofs.Scheduler.Cascade

/-!
# What a move changes, with everything that it sets off

`MoveChange` says of every move what it does to the rows of the strands, to the live list, to the
ready queue and to the reports, cancellations included. Most moves are mild: nothing happens but
cascades and changes that no group, no outcome and no report shows. What is left are the few moves
that a strand's family or the holder of its handle could tell from the others: a strand spawns a
child, waits for its children or finishes, or it is joined.

Whoever wants to know what a move has done to a strand takes the cases of `MoveChange`, or those of
`Became`, which has what has become of one row.
-/

namespace CoopSched

variable {V B : Type}

/-- Does the move take strands out of the ready queue? -/
def Scheduler.Move.takesOut : Scheduler.Move V B → Bool
  | .dispatch | .drain => true
  | _ => false

theorem Strand.Alike.of_running {st st' : Strand V B} (hrun : st.status.isRunning = true)
    (hparent : st'.parent = st.parent) (hhook : st'.hook = st.hook)
    (hchildren : st'.children = st.children) (houtcome : st'.outcome = st.outcome)
    (hcomplete : st'.complete = st.complete) (hend : st'.status.isTerminal = false) :
    st.Alike st' :=
  ⟨hparent, hhook, hchildren, houtcome, hcomplete,
    hend.trans (Status.not_terminal_of_running hrun).symm,
    fun h => absurd (Status.not_terminal_of_running hrun) (by simp [h])⟩

namespace Scheduler

variable {Ok : BridgeId → Wakeup V → Prop} {drained : Bool} {grows : Prop}
  {s s₁ s₂ s' : Scheduler V B} {m : Move V B} {p k id : StrandId} {st st' st₁ : Strand V B}
  {r : Outcome V} {kept : Option (Outcome V)}

/-! ## Mild changes -/

/-- Nothing has changed but rows, and what decides how strands go on. -/
structure Level (s s' : Scheduler V B) : Prop where
  lasts : Lasts s s'
  live : s'.live = s.live
  mute : Mute s s'

theorem Level.trans (h : Level s s₁) (h' : Level s₁ s') : Level s s' where
  lasts := h.lasts.trans h'.lasts
  live := h'.live.trans h.live
  mute := h.mute.trans h'.mute

theorem Level.of_fields (hphase : s'.phase = s.phase) (hterm : s'.terminated = s.terminated)
    (hclosed : s'.queue.closed = s.queue.closed) (haborted : s'.queue.aborted = s.queue.aborted)
    (hjobs : s'.jobs = s.jobs) (hlive : s'.live = s.live) (hmute : Mute s s') : Level s s' :=
  ⟨.of_jobs hphase hterm hclosed haborted hjobs, hlive, hmute⟩

/-- Cascades, and changes that no group, no outcome and no report shows. The ready queue only
    grows, where that is said (`grows`). -/
inductive Mild (grows : Prop) : Scheduler V B → Scheduler V B → Prop
  | refl (s : Scheduler V B) : Mild grows s s
  | cascade {s s₁ s₂ : Scheduler V B} (h : Mild grows s s₁) (hset : Cascade True s₁ s₂) :
      Mild grows s s₂
  | still {s s₁ s₂ : Scheduler V B} (h : Mild grows s s₁)
      (hrows : ∀ k, s₂.strand? k = s₁.strand? k) (hlevel : Level s₁ s₂)
      (hgrows : grows → QueueGrows s₁ s₂) : Mild grows s s₂
  | row {s s₁ s₂ : Scheduler V B} {id : StrandId} {st st₁ : Strand V B} (h : Mild grows s s₁)
      (hst : s₁.strand? id = some st) (hend : st.status.isTerminal = false)
      (hlike : st.Alike st₁)
      (hrows : ∀ k, s₂.strand? k = if id = k then some st₁ else s₁.strand? k)
      (hlevel : Level s₁ s₂) (hgrows : grows → QueueGrows s₁ s₂) : Mild grows s s₂
  | spawn {s s₁ : Scheduler V B} (h : Mild grows s s₁) (r : SpawnRequest B)
      (hr : r.parent = none) : Mild grows s (s₁.spawn r).1

theorem Lasts.updateStrand (s : Scheduler V B) (id : StrandId) (f : Strand V B → Strand V B) :
    Lasts s (s.updateStrand id f) := .of_jobs rfl rfl rfl rfl rfl

theorem Lasts.reportUnhandled (s : Scheduler V B) (id : StrandId) (outcome : Outcome V) :
    Lasts s (s.reportUnhandled id outcome) := by
  obtain ⟨journal, channel, heq⟩ := s.reportUnhandled_eq id outcome
  rw [heq]
  exact .of_jobs rfl rfl rfl rfl rfl

theorem Lasts.release (s : Scheduler V B) (id : StrandId) : Lasts s (s.release id) :=
  .of_jobs rfl rfl rfl rfl rfl

theorem Lasts.spawn (s : Scheduler V B) (r : SpawnRequest B) : Lasts s (s.spawn r).1 :=
  .of_steady (.spawn s r) (spawn_rows s r).2.1

theorem Mild.lasts (h : Mild grows s s') : Lasts s s' := by
  induction h with
  | refl => exact .refl s
  | cascade _ hset ih => exact ih.trans hset.lasts
  | still _ _ hlevel _ ih => exact ih.trans hlevel.lasts
  | row _ _ _ _ _ hlevel _ ih => exact ih.trans hlevel.lasts
  | spawn _ r hr ih => exact ih.trans (.spawn _ r)

theorem Mild.queueGrows (h : Mild grows s s') (hgrow : grows) : QueueGrows s s' := by
  induction h with
  | refl => exact .of_queue rfl
  | cascade _ hset ih => exact ih.trans hset.queueGrows
  | still _ _ _ hgrows ih => exact ih.trans (hgrows hgrow)
  | row _ _ _ _ _ _ hgrows ih => exact ih.trans (hgrows hgrow)
  | spawn _ r hr ih => exact ih.trans (.spawn _ r)

theorem Mild.row_alikeOrCancelled (h : Mild grows s s') (hst : s.strand? k = some st) :
    ∃ st', s'.strand? k = some st' ∧ AlikeOrCancelled True s s' st st' := by
  induction h generalizing st with
  | refl => exact ⟨st, hst, .alike (.refl st)⟩
  | cascade hmild hset ih =>
    obtain ⟨st₁, hst₁, hleft⟩ := ih hst
    obtain ⟨st₂, hst₂, hleft₂⟩ := hset.row hst₁
    exact ⟨st₂, hst₂, hleft.trans hmild.lasts hleft₂ hset.lasts⟩
  | still hmild hrows hlevel _ ih =>
    obtain ⟨st₁, hst₁, hleft⟩ := ih hst
    exact ⟨st₁, (hrows k).trans hst₁, hleft.trans hmild.lasts (.alike (.refl st₁)) hlevel.lasts⟩
  | @row s₁ s₂ id old new hmild hold hend hlike hrows hlevel _ ih =>
    obtain ⟨st₁, hst₁, hleft⟩ := ih hst
    rw [hrows]
    split
    next hk =>
      subst hk
      obtain rfl := Option.some.inj (hold.symm.trans hst₁)
      exact ⟨new, rfl, hleft.trans hmild.lasts (.alike hlike) hlevel.lasts⟩
    next => exact ⟨st₁, hst₁, hleft.trans hmild.lasts (.alike (.refl st₁)) hlevel.lasts⟩
  | spawn hmild r hr ih =>
    obtain ⟨st₁, hst₁, hleft⟩ := ih hst
    exact ⟨st₁, strand?_spawn hst₁ r, hleft.trans hmild.lasts (.alike (.refl st₁)) (.spawn _ r)⟩

theorem Mild.new (h : Mild grows s s') (hnone : s.strand? k = none)
    (hst' : s'.strand? k = some st') : s.queue.closed = false ∧ st'.Newborn := by
  induction h generalizing st' with
  | refl => cases hnone.symm.trans hst'
  | @cascade s₁ s₂ hmild hset ih =>
    cases hst₁ : s₁.strand? k with
    | none =>
      rw [← hmild.lasts.closed]
      exact hset.new hst₁ hst'
    | some st₁ =>
      obtain ⟨hopen, hnew⟩ := ih hst₁
      obtain ⟨st₂, hst₂, hleft⟩ := hset.row hst₁
      obtain rfl := Option.some.inj (hst₂.symm.trans hst')
      exact ⟨hopen, hleft.newborn hnew⟩
  | still _ hrows _ _ ih => exact ih ((hrows k).symm.trans hst')
  | @row s₁ s₂ id old new hmild hold hend hlike hrows hlevel _ ih =>
    rw [hrows] at hst'
    split at hst'
    next hk =>
      subst hk
      obtain ⟨hopen, hnew⟩ := ih hold
      obtain rfl := Option.some.inj hst'
      exact ⟨hopen, hnew.alike hlike⟩
    next => exact ih hst'
  | @spawn s₁ hmild r hr ih =>
    cases hst₁ : s₁.strand? k with
    | none =>
      rw [← hmild.lasts.closed]
      exact spawn_newborn s₁ hr hst₁ hst'
    | some st₁ =>
      obtain rfl := Option.some.inj ((strand?_spawn hst₁ r).symm.trans hst')
      exact ih hst₁

/-- What a completion sets off is mild. -/
theorem Mild.set (h : Mild grows s s₁) (hset : Cascade (s₁.terminated = true) s₁ s₂) :
    Mild grows s s₂ :=
  h.cascade (hset.mono fun _ => trivial)

/-! ## The outcome of a strand that finishes -/

/-- Where the outcome of a strand that finishes goes. What is kept goes to the handle. -/
inductive Handed (k : StrandId) (st : Strand V B) (r : Outcome V) (s : Scheduler V B) :
    Scheduler V B → Option (Outcome V) → Prop
  | told {hook : Hook} {s' : Scheduler V B} (hhook : st.hook = some hook)
      (hset : Cascade False s s')
      (htold : (∃ entry, s.job? hook.job = some entry) → JobTold s s' hook r) :
      Handed k st r s s' none
  | settled {p : StrandId} {ps : Strand V B} {fired : Option (Delivery V)} {s' : Scheduler V B}
      (hhook : st.hook = none) (hp : st.parent = some p) (hps : s.strand? p = some ps)
      (hsettle : (ps.children.settle k r).2 = .recorded fired)
      (hset : Cascade False
        (s.updateStrand p fun ps' => { ps' with children := (ps.children.settle k r).1 }) s') :
      Handed k st r s s' none
  | returned {p : StrandId} {ps : Strand V B} {outcome : Outcome V} (hhook : st.hook = none)
      (hp : st.parent = some p) (hps : s.strand? p = some ps)
      (hsettle : (ps.children.settle k r).2 = .returned outcome) :
      Handed k st r s
        ((s.updateStrand p fun ps' =>
          { ps' with children := (ps.children.settle k r).1 }).reportUnhandled k outcome)
        (some outcome)
  | orphan (hhook : st.hook = none) (hp : st.parent = none) :
      Handed k st r s (s.reportUnhandled k r) (some r)

theorem cascade_of_alive {stop : Prop} (alive : s.terminated = false)
    (h : Cascade (s.terminated = true) s s') : Cascade stop s s' :=
  h.mono fun gone => absurd (alive.symm.trans gone) (by decide)

/-- **What a strand finishes with goes to its receiver.** -/
theorem handed_over (alive : s.terminated = false)
    (hparent : ∀ p, st.parent = some p → ∃ ps, s.strand? p = some ps) (r : Outcome V) :
    Handed k st r s (s.handOver k st r).1 (s.handOver k st r).2 := by
  unfold Scheduler.handOver
  cases hhook : st.hook with
  | some hook =>
    obtain ⟨hset, htold⟩ : Cascade (s.terminated = true) s (s.resolveWith cancel hook r) ∧ _ :=
      cascade_resolveWith s (fun s' hterm => by rw [← hterm]; exact absorbs_cascade s') hook r
    exact .told hhook (cascade_of_alive alive hset) htold
  | none =>
    cases hp : st.parent with
    | none => exact .orphan hhook hp
    | some p =>
      obtain ⟨ps, hps⟩ := hparent p hp
      simp only [Option.bind_some, hps, Option.map_some]
      cases hsettle : (ps.children.settle k r).2 with
      | recorded fired =>
        refine .settled hhook hp hps hsettle ?_
        exact cascade_of_alive (s := s.updateStrand p fun ps' =>
          { ps' with children := (ps.children.settle k r).1 }) alive
          ((bears_cascade _ _).deliverFired (absorbs_cascade _) (.refl _) fun _ _ => trivial)
      | returned outcome => exact .returned hhook hp hps hsettle

/-! ## Moves -/

/-- A shutdown may have come further, and not back, and every job has gone on. -/
structure Advances (s s' : Scheduler V B) : Prop where
  phase : s.phase = .accepting ∨ s'.phase = s.phase
  terminated : s.terminated = true → s'.terminated = true
  closed : s.queue.closed = true → s'.queue.closed = true
  aborted : s.queue.aborted = true → s'.queue.aborted = true
  jobs : JobsOnward s s'

theorem Advances.refl (s : Scheduler V B) : Advances s s :=
  ⟨Or.inr rfl, id, id, id, .of_same rfl⟩

theorem Advances.trans (h : Advances s s₁) (h' : Advances s₁ s') : Advances s s' where
  phase := by
    rcases h.phase with haccepting | hphase
    · exact Or.inl haccepting
    · exact h'.phase.imp hphase.symm.trans (·.trans hphase)
  terminated := fun ht => h'.terminated (h.terminated ht)
  closed := fun hc => h'.closed (h.closed hc)
  aborted := fun ha => h'.aborted (h.aborted ha)
  jobs := h.jobs.trans h'.jobs

theorem Lasts.advances (h : Lasts s s') : Advances s s' where
  phase := Or.inr h.phase
  terminated := h.terminated.trans
  closed := h.closed.trans
  aborted := h.aborted.trans
  jobs := h.jobs

/-- What a move changes. A shutdown may come further with it (`announced`). -/
inductive MoveChange (s : Scheduler V B) (m : Move V B) : Scheduler V B → Prop
  | mild {s' : Scheduler V B} (hfin : s.finishes m = none) (hawaits : ∀ p, s.awaits p m = none)
      (h : Mild (m.takesOut = false) s s') : MoveChange s m s'
  | announced {s' : Scheduler V B} (hfin : s.finishes m = none)
      (hawaits : ∀ p, s.awaits p m = none) (hadvances : Advances s s')
      (hrows : ∀ k, s'.strand? k = s.strand? k) (hlive : s'.live = s.live)
      (hjournal : s'.journal = s.journal) (hwaiting : s'.queue.waiting = s.queue.waiting) :
      MoveChange s m s'
  | joined {id : StrandId} (hm : m = .join id) (outcome : Option (Outcome V)) :
      MoveChange s m (s.updateStrand id fun st => { st with outcome := outcome })
  | spawned {s' : Scheduler V B} {p : StrandId} {st : Strand V B} {body : B}
      (hm : m = .spawnChild p body) (hst : s.strand? p = some st)
      (hrun : st.status.isRunning = true) (hopen : s.queue.closed = false)
      (hrows : ∀ i, s'.strand? i = if i = ⟨s.strands.next⟩
        then some (Strand.create body none (some p) none)
        else (s.updateStrand p fun st => { st with children := st.children.add }).strand? i)
      (hlive : s'.live = s.live ++ [⟨s.strands.next⟩]) (hlasts : Lasts s s') (hmute : Mute s s')
      (hgrows : QueueGrows s s') : MoveChange s m s'
  | awaited {s₁ s₂ : Scheduler V B} {p : StrandId} {st st₁ : Strand V B} {mode : WaitMode}
      {b : BridgeId} (hawaits : s.awaits p m = some (mode, b)) (hfin : s.finishes m = none)
      (hrun : st.status.isRunning = true) (hown : Own s s₁ p st st₁) (hlike : st.Alike st₁)
      (hlevel : Level s s₁) (hgrows : QueueGrows s s₁)
      (hset : Cascade False
        (s₁.updateStrand p fun st' => { st' with children := (st.children.arm mode b).1 }) s₂) :
      MoveChange s m (s₂.release p)
  | finished {s₂ : Scheduler V B} {k : StrandId} {st : Strand V B} {r : Outcome V}
      {kept : Option (Outcome V)} (hfin : s.finishes m = some (k, r))
      (hst : s.strand? k = some st) (hrun : st.status.isRunning = true)
      (hhanded : Handed k st r (s.markFinished k r.isOk) s₂ kept) :
      MoveChange s m ((s₂.retire k kept).release k)

/-! ### Mild moves -/

theorem Mild.of_still (hrows : ∀ k, s'.strand? k = s.strand? k) (hlevel : Level s s')
    (hwaiting : s'.queue.waiting = s.queue.waiting) : Mild grows s s' :=
  (Mild.refl s).still hrows hlevel fun _ => .of_queue hwaiting

theorem Mild.release (h : Mild grows s s') (id : StrandId) : Mild grows s (s'.release id) :=
  h.still (fun _ => rfl) (.of_fields rfl rfl rfl rfl rfl rfl (.of_journal rfl))
    fun _ => .of_queue rfl

theorem Mild.issue (h : Mild grows s s₁) (hst : s₁.strand? id = some st)
    (hrun : st.status.isRunning = true) : Mild grows s (s₁.issueBridge id).1 := by
  have hend := Status.not_terminal_of_running hrun
  have hlike : st.Alike { st with bridge := some ⟨s₁.bridges.next⟩ } :=
    .of_running hrun rfl rfl rfl rfl rfl hend
  exact h.row hst hend hlike (issueBridge_strand? hst)
    (.of_fields rfl rfl rfl rfl rfl rfl (.of_journal rfl)) fun _ => .of_queue rfl

theorem Mild.keepBody (h : Mild grows s s₁) (hst : s₁.strand? id = some st)
    (hrun : st.status.isRunning = true) (body : B) : Mild grows s (s₁.keepBody id body) := by
  have hend := Status.not_terminal_of_running hrun
  have hlike : st.Alike { st with body := some body } :=
    .of_running hrun rfl rfl rfl rfl rfl hend
  exact h.row hst hend hlike (keepBody_strand? hst body)
    (.of_fields rfl rfl rfl rfl rfl rfl (.of_journal rfl)) fun _ => .of_queue rfl

theorem parked_alike (mark : Bool) (hrun : st.status.isRunning = true) :
    st.Alike (st.parked mark) :=
  .of_running hrun rfl rfl rfl rfl rfl (by cases mark <;> rfl)

theorem level_block (hst : s.strand? id = some st) (hrun : st.status.isRunning = true) :
    Level s (s.block id) ∧ QueueGrows s (s.block id) := by
  obtain ⟨mark, hs⟩ := Status.exists_of_running hrun
  have hmute := mute_block s id
  obtain ⟨counters, journal, channel, heq⟩ := block_running hst hs
  rw [heq] at hmute ⊢
  cases mark with
  | true => exact ⟨.of_fields rfl rfl rfl rfl rfl rfl hmute, [id], rfl⟩
  | false => exact ⟨.of_fields rfl rfl rfl rfl rfl rfl hmute, .of_queue rfl⟩

theorem Mild.block (h : Mild grows s s₁) (hst : s₁.strand? id = some st)
    (hrun : st.status.isRunning = true) : Mild grows s (s₁.block id) := by
  obtain ⟨mark, hs⟩ := Status.exists_of_running hrun
  obtain ⟨hlevel, hgrows⟩ := level_block hst hrun
  exact h.row hst (Status.not_terminal_of_running hrun) (parked_alike mark hrun)
    (Own.block hst hs).rows hlevel fun _ => hgrows

theorem Mild.requeue (h : Mild grows s s₁) (hst : s₁.strand? id = some st)
    (hrun : st.status.isRunning = true) : Mild grows s (s₁.requeue id) := by
  obtain ⟨mark, hs⟩ := Status.exists_of_running hrun
  have hlike : st.Alike st.requeued := .of_running hrun rfl rfl rfl rfl rfl rfl
  refine h.row hst (Status.not_terminal_of_running hrun) hlike (Own.requeue hst hs).rows ?_
    fun _ => ?_ <;> rw [requeue_running hst hs]
  · exact .of_fields rfl rfl rfl rfl rfl rfl (.of_journal rfl)
  · exact ⟨[id], rfl⟩

theorem begun_alike (resumed : Bool) (hs : st.status = .runnable) :
    st.Alike (st.begun resumed) :=
  ⟨rfl, rfl, rfl, rfl, rfl, by rw [hs]; rfl, fun h => by rw [hs] at h; cases h⟩

theorem Mild.dispatch (hp : Placed s.held s) (hgrow : ¬ grows) : Mild grows s s.dispatch.1 := by
  have hmute := mute_dispatch hp
  have hd := hp.dispatched
  generalize s.dispatch.1 = s' at hd hmute
  generalize s.dispatch.2 = seg at hd
  cases hd with
  | idle _ => exact .refl s
  | plain counters journal channel _ _ hst hs _ _ =>
    exact (Mild.refl s).row hst (by rw [hs]; rfl) (begun_alike false hs)
      (strand?_of_update_some (f := Strand.begun false) rfl hst)
      (.of_fields rfl rfl rfl rfl rfl rfl hmute) fun h => absurd h hgrow
  | resumed counters journal channel _ _ hst hs _ _ _ =>
    exact (Mild.refl s).row hst (by rw [hs]; rfl) (begun_alike true hs)
      (strand?_of_update_some (f := Strand.begun true) rfl hst)
      (.of_fields rfl rfl rfl rfl rfl rfl hmute) fun h => absurd h hgrow

theorem Mild.invokeParked (s : Scheduler V B) (id : StrandId) (inputs : List V)
    (callable : Nat → V → Except Panic B) (concurrency : Concurrency) :
    Mild grows s (s.invokeParked id inputs callable concurrency).1 := by
  rcases invokeParked_cases s id inputs callable concurrency with
    ⟨-, heq⟩ | ⟨st, hst, hrun, hslot, hpark, heq⟩ <;> rw [heq]
  · exact .refl s
  · exact ((Mild.refl s).issue hst hrun).set ((bears_cascade _ _).drive (absorbs_cascade _)
      (.refl _) (fun hf => hf) inputs callable concurrency fun _ _ _ _ => trivial)

theorem Mild.expireTimer (s : Scheduler V B) (t : TimerId) : Mild grows s (s.expireTimer t) := by
  unfold Scheduler.expireTimer
  split
  · exact .refl s
  next timer ht =>
    have hexpired : Mild grows s
        { s with timers := s.timers.update t.number fun _ => timer.expire.1 } :=
      .of_still (fun _ => rfl) (.of_fields rfl rfl rfl rfl rfl rfl (.of_journal rfl)) rfl
    dsimp only
    split
    · exact hexpired
    · exact hexpired.set ((bears_cascade _ _).tryComplete (absorbs_cascade _) (.refl _) trivial _)

/-- A segment ends in which the strand neither finishes nor waits for children. -/
theorem Mild.endSegment (hst : s.strand? id = some st) (hrun : st.status.isRunning = true)
    {body : B} {step : Step V} (hfin : s.finishes (.endSegment id body step) = none)
    (hawait : s.issued (.endSegment id body step) = none) :
    Mild grows s (s.endSegment id body step) := by
  unfold Scheduler.endSegment
  split
  next hcut =>
    rw [Bool.and_eq_true] at hcut
    exact ((Mild.refl s).cascade ((Cascade.refl s).cancel trivial id
      (by rw [isShutDown, hcut.1, Bool.true_or]) (Or.inl rfl))).release id
  next hnot =>
    refine Mild.release ?_ id
    rw [finishes, if_neg hnot, Option.map_eq_none_iff] at hfin
    have hkeep : Mild grows s (s.keepBody id body) := (Mild.refl s).keepBody hst hrun body
    have hrow := (keepBody_strand? hst body id).trans (if_pos rfl)
    unfold Scheduler.follow
    rw [hst, Option.bind_some] at hfin ⊢
    cases hslot : st.bridge with
    | none =>
      rw [hslot] at hfin
      cases step with
      | yield => exact hkeep.requeue hrow hrun
      | await mode =>
        -- The wait is a legal one, so there is a bridge for it.
        have hcancelling : s.isCancelling = false := by simpa [Step.isDone] using hnot
        rw [issued_await hst hslot hcancelling] at hawait
        cases hawait
      | _ => cases hfin
    | some b =>
      rw [hslot] at hfin
      cases step with
      | yield => exact hkeep.block hrow hrun
      | park => exact hkeep.block hrow hrun
      | _ => cases hfin

/-- Is the move one with which a shutdown comes further? -/
def Move.announces : Move V B → Bool
  | .beginShutdown _ | .closeQueue | .terminate => true
  | _ => false

theorem Stable.mild (hs : Stable Ok drained s) (ha : s.Allows m)
    (hspawn : ∀ id body, m ≠ .spawnChild id body) (hjoin : ∀ id, m ≠ .join id)
    (hannounces : m.announces = false) (hfin : s.finishes m = none)
    (hawait : ∀ id b, s.issued m ≠ some (id, .children, b)) :
    Mild (m.takesOut = false) s (s.after m) := by
  have hcascade : ∀ {s'}, Cascade (s.terminated = true) s s' → Mild (m.takesOut = false) s s' :=
    fun h => (Mild.refl s).set h
  have hbears := bears_cascade (s.terminated = true) s
  have hnested := absorbs_cascade s
  have still : ∀ {s' : Scheduler V B}, s'.strands = s.strands → s'.queue = s.queue →
      Level s s' → Mild (m.takesOut = false) s s' := fun hstrands hqueue hlevel =>
    .of_still (fun k => by rw [strand?, strand?, hstrands]) hlevel (by rw [hqueue])
  have hlevel : ∀ timers channel, Level s { s with timers := timers, channel := channel } :=
    fun _ _ => .of_fields rfl rfl rfl rfl rfl rfl (.of_journal rfl)
  cases m with
  | spawn body name => exact (Mild.refl s).spawn _ rfl
  | park id =>
    show Mild _ s (s.park id).1
    rcases park_cases s id with ⟨e, heq⟩ | ⟨st, hst, hrun, hslot, heq⟩ <;> rw [heq]
    · exact .refl s
    · exact (Mild.refl s).issue hst hrun
  | complete b r => exact hcascade (hbears.deliver hnested (.refl s) trivial _)
  | tryComplete b r => exact hcascade (hbears.tryComplete hnested (.refl s) trivial r)
  | deliver b payload => exact hcascade (hbears.deliver hnested (.refl s) trivial payload)
  | invoke inputs callable concurrency callback =>
    exact hcascade (hbears.invoke hnested (.refl s) (fun hf => hf) inputs callable concurrency
      fun _ _ _ _ => trivial)
  | createJob length callback =>
    exact hcascade (hbears.addJob hnested (.refl s) (fun hf => hf) length none
      fun _ _ _ _ => trivial)
  | submit j index r =>
    exact hcascade (hbears.submitWith hnested (.refl s) (fun hf => hf) index r)
  | claim j => exact hcascade (hbears.claim (.refl s) fun hf => hf)
  | armTimer b d now =>
    obtain ⟨timers, heq⟩ := after_armTimer s b d now
    rw [heq]
    exact still rfl rfl (hlevel _ _)
  | disarmTimer t => exact still rfl rfl (hlevel _ _)
  | detachTimer t => exact still rfl rfl (hlevel _ _)
  | pollTimer t =>
    obtain ⟨timers, heq⟩ := after_pollTimer s t
    rw [heq]
    exact still rfl rfl (hlevel _ _)
  | expireTimer t => exact .expireTimer s t
  | join id => exact absurd rfl (hjoin id)
  | drainChannel =>
    show Mild _ s ((s.drainChannel.map (·.1)).getD s)
    unfold Scheduler.drainChannel
    cases s.channel with
    | none => exact .refl s
    | some c => exact still rfl rfl (hlevel _ _)
  | spawnDetached id body => exact (Mild.refl s).spawn _ rfl
  | spawnChild id body => exact absurd rfl (hspawn id body)
  | invokeParked id inputs callable concurrency =>
    exact .invokeParked s id inputs callable concurrency
  | dispatch => exact .dispatch hs.placed (by simp [Move.takesOut])
  | endSegment id body step =>
    obtain ⟨st, hst, hrun⟩ := (hs.placed.busy_iff id).mp ha
    refine .endSegment hst hrun hfin ?_
    cases hi : s.issued (.endSegment id body step) with
    | none => rfl
    | some x =>
      obtain ⟨k, o, b⟩ := x
      obtain rfl := origin_of_end hi
      exact absurd hi (hawait k b)
  | drain =>
    exact (Mild.refl s).still (fun _ => rfl) (.of_fields rfl rfl rfl rfl rfl rfl (.of_journal rfl))
      fun h => by cases h
  | cancel id =>
    exact (Mild.refl s).cascade ((Cascade.refl s).cancel trivial id
      (by rw [isShutDown, ha.1, Bool.or_true]) (Or.inr rfl))
  | _ => cases hannounces

/-! ### The other moves -/

theorem moveChange_announced (hannounces : m.announces = true) : MoveChange s m (s.after m) := by
  cases m with
  | beginShutdown mode =>
    show MoveChange s _ ((s.beginShutdown mode).getD s)
    unfold Scheduler.beginShutdown
    cases hp : s.phase.enter? mode.phase with
    | none => exact .announced rfl (fun _ => rfl) (.refl s) (fun _ => rfl) rfl rfl rfl
    | some phase =>
      have haccepting : s.phase = .accepting := by
        cases hphase : s.phase <;> rw [hphase] at hp <;> first | rfl | cases hp
      refine .announced rfl (fun _ => rfl) ⟨Or.inl haccepting, id, ?_, ?_, .of_same rfl⟩
        (fun _ => rfl) rfl rfl ?_ <;> dsimp only [Option.map_some, Option.getD_some] <;> split <;>
        first | rfl | exact id | exact fun _ => rfl
  | closeQueue =>
    exact .announced rfl (fun _ => rfl) ⟨Or.inr rfl, id, fun _ => rfl, id, .of_same rfl⟩
      (fun _ => rfl) rfl rfl rfl
  | terminate =>
    exact .announced rfl (fun _ => rfl) ⟨Or.inr rfl, fun _ => rfl, id, id, .of_same rfl⟩
      (fun _ => rfl) rfl rfl rfl
  | _ => cases hannounces

theorem moveChange_joined (s : Scheduler V B) (id : StrandId) :
    MoveChange s (.join id) (s.after (.join id)) := by
  show MoveChange s _ (((s.join id).map (·.1)).getD s)
  rcases join_cases s id with heq | ⟨outcome, heq⟩ <;> rw [heq]
  · exact .mild rfl (fun _ => rfl) (.refl s)
  · exact .joined rfl outcome

/-- A child that is admitted joins the live list and the ready queue, and one that is refused leaves
    both as they were. -/
theorem spawnChild_fields (s : Scheduler V B) (p : StrandId) (body : B) :
    Lasts s (s.spawnChild p body).1 ∧ Mute s (s.spawnChild p body).1 ∧
      QueueGrows s (s.spawnChild p body).1 ∧
      ((s.spawnChild p body).2 = .ok ⟨s.strands.next⟩ ∧ s.queue.closed = false ∧
          (s.spawnChild p body).1.live = s.live ++ [⟨s.strands.next⟩] ∨
        (∃ e, (s.spawnChild p body).2 = .error e) ∧ (s.spawnChild p body).1.live = s.live) := by
  have hnext : (s.updateStrand p fun st => { st with children := st.children.add }).strands.next =
      s.strands.next := Table.next_update _ _ _
  have hsteady := Steady.spawn (s.updateStrand p fun st => { st with children := st.children.add })
    { body := body, admission := .internal, parent := some p }
  have hmute : Mute s _ := (Mute.of_journal rfl : Mute s
    (s.updateStrand p fun st => { st with children := st.children.add })).trans
      (mute_spawn _ { body := body, admission := .internal, parent := some p })
  have hgrows : QueueGrows s _ := (QueueGrows.of_queue rfl : QueueGrows s
    (s.updateStrand p fun st => { st with children := st.children.add })).trans
      (.spawn _ { body := body, admission := .internal, parent := some p })
  have hjobs := (spawn_rows (s.updateStrand p fun st => { st with children := st.children.add })
    { body := body, admission := .internal, parent := some p }).2.1
  have hcases := spawn_cases (s.updateStrand p fun st => { st with children := st.children.add })
    { body := body, admission := .internal, parent := some p }
  unfold Scheduler.spawnChild
  dsimp only
  generalize (s.updateStrand p fun st => { st with children := st.children.add }).spawn
    { body := body, admission := .internal, parent := some p } = result at *
  obtain ⟨s₁, answer⟩ := result
  have hlasts : Lasts s s₁ :=
    .of_jobs hsteady.phase hsteady.terminated hsteady.closed hsteady.aborted hjobs
  cases answer with
  | ok id =>
    refine ⟨hlasts, hmute, hgrows, Or.inl ?_⟩
    rcases hcases with ⟨hopen, _, _, _, heq⟩ | ⟨_, _, _, _, _, heq, -⟩
    · rw [hnext] at heq
      obtain ⟨rfl, hid⟩ := Prod.mk.inj heq
      exact ⟨hid, hopen, rfl⟩
    · cases (Prod.mk.inj heq).2
  | error e =>
    refine ⟨⟨hlasts.phase, hlasts.terminated, hlasts.closed, hlasts.aborted, hlasts.jobs⟩, hmute,
      hgrows, Or.inr ⟨⟨e, rfl⟩, ?_⟩⟩
    rcases hcases with ⟨-, _, _, _, heq⟩ | ⟨_, _, _, _, _, heq, -⟩
    · cases (Prod.mk.inj heq).2
    · obtain ⟨rfl, -⟩ := Prod.mk.inj heq
      rfl

theorem moveChange_spawned (hst : s.strand? p = some st) (hrun : st.status.isRunning = true)
    (body : B) : MoveChange s (.spawnChild p body) (s.after (.spawnChild p body)) := by
  obtain ⟨-, -, hrows⟩ := spawnChild_rows s p body
  obtain ⟨hlasts, hmute, hgrows, hlive⟩ := spawnChild_fields s p body
  rcases hrows with ⟨hok, hrows⟩ | ⟨⟨e, he⟩, hrows⟩
  · rcases hlive with ⟨-, hopen, hlive⟩ | ⟨⟨e, he⟩, -⟩
    · exact .spawned rfl hst hrun hopen hrows hlive hlasts hmute hgrows
    · cases hok.symm.trans he
  · rcases hlive with ⟨hok, -⟩ | ⟨-, hlive⟩
    · cases hok.symm.trans he
    · exact .mild rfl (fun _ => rfl) ((Mild.refl s).still hrows ⟨hlasts, hlive, hmute⟩
        fun _ => hgrows)

/-- The strand that waits keeps its body and blocks on a new bridge. -/
theorem moveChange_awaited (hs : Stable Ok drained s) (hst : s.strand? p = some st)
    (hrun : st.status.isRunning = true) {body : B} {mode : WaitMode} {b : BridgeId}
    (hi : s.issued (.endSegment p body (.await mode)) = some (p, .children, b)) :
    MoveChange s (.endSegment p body (.await mode))
      (s.after (.endSegment p body (.await mode))) := by
  obtain ⟨-, rfl, hcancelling, hslot⟩ := issued_await_eq hst hi
  have hmark := hs.placed.unmarked hst hrun hslot
  have alive := hs.placed.alive hst hrun
  obtain ⟨s₁, st₁, hown, hlike, hlevel, hgrows, hafter⟩ :
      ∃ s₁ st₁, Own s s₁ p st st₁ ∧ st.Alike st₁ ∧ Level s s₁ ∧ QueueGrows s s₁ ∧
        s.after (.endSegment p body (.await mode)) =
          ((s₁.updateStrand p fun st' =>
            { st' with children := (st.children.arm mode ⟨s.bridges.next⟩).1 }).deliverFired
              (st.children.arm mode ⟨s.bridges.next⟩).2).release p := by
    have hkeep := Own.keepBody hst body
    have hissue := hkeep.trans (.issue hkeep.self)
    have hblock := hissue.trans (.block hissue.self hmark)
    have hlevel₁ : Level s ((s.keepBody p body).issueBridge p).1 :=
      .of_fields rfl rfl rfl rfl rfl rfl (.of_journal rfl)
    obtain ⟨hlevel₂, hgrows⟩ := level_block hissue.self hrun
    refine ⟨_, _, hblock, .of_running hrun rfl rfl rfl rfl rfl rfl, hlevel₁.trans hlevel₂,
      (QueueGrows.of_queue rfl).trans hgrows, ?_⟩
    show s.endSegment p body (.await mode) = _
    unfold Scheduler.endSegment Scheduler.follow
    rw [if_neg (by simp [hcancelling]), hst, Option.bind_some, hslot]
    show ((s.keepBody p body).blockOnChildren p mode).release p = _
    unfold Scheduler.blockOnChildren
    dsimp only
    rw [show ((s.keepBody p body).issueBridge p).1.block p = _ from rfl, hblock.self]
    rfl
  rw [hafter]
  refine .awaited (awaits_iff.mpr ⟨hi, body, rfl⟩) (finishes_await body mode hst hslot hcancelling)
    hrun hown hlike hlevel hgrows ?_
  exact cascade_of_alive (s := s₁.updateStrand p fun st' =>
    { st' with children := (st.children.arm mode ⟨s.bridges.next⟩).1 })
    (hown.terminated.trans alive)
    ((bears_cascade _ _).deliverFired (absorbs_cascade _) (.refl _) fun _ _ => trivial)

theorem moveChange_finished (hs : Stable Ok drained s) (ha : s.Allows m) (hkin : Kin s)
    (hfin : s.finishes m = some (k, r)) : MoveChange s m (s.after m) := by
  obtain ⟨st, hst, hrun⟩ := hs.placed.finishes ha hfin
  obtain ⟨mark, hmark⟩ := Status.exists_of_running hrun
  obtain ⟨-, -, hterm⟩ := markFinished_same s k r.isOk
  rw [after_finishes hfin, finish_running hst hmark]
  refine .finished hfin hst hrun (handed_over (hterm.trans (hs.placed.alive hst hrun)) ?_ r)
  intro p hp
  obtain ⟨-, hne, ps, hps⟩ := hkin k st p hst hp
  exact ⟨ps, by rw [markFinished_rows hst, if_neg (Ne.symm hne), hps]⟩

/-- **Every move that may come changes the scheduler in one of these ways.** -/
theorem Stable.moveChange (hs : Stable Ok drained s) (ha : s.Allows m) (hkin : Kin s) :
    MoveChange s m (s.after m) := by
  cases hannounces : m.announces with
  | true => exact moveChange_announced hannounces
  | false =>
  by_cases hjoin : ∃ id, m = .join id
  · obtain ⟨id, rfl⟩ := hjoin
    exact moveChange_joined s id
  by_cases hspawn : ∃ p body, m = .spawnChild p body
  · obtain ⟨p, body, rfl⟩ := hspawn
    obtain ⟨st, hst, hrun⟩ := (hs.placed.busy_iff p).mp ha
    exact moveChange_spawned hst hrun body
  cases hfin : s.finishes m with
  | some x => exact moveChange_finished hs ha hkin hfin
  | none =>
    by_cases hawait : ∃ p b, s.issued m = some (p, .children, b)
    · obtain ⟨p, b, hi⟩ := hawait
      obtain ⟨body, mode, rfl⟩ := await_of_issued hi
      obtain ⟨st, hst, hrun⟩ := (hs.placed.busy_iff p).mp ha
      exact moveChange_awaited hs hst hrun hi
    · refine .mild hfin (fun p => ?_) (hs.mild ha (fun p body h => hspawn ⟨p, body, h⟩)
        (fun id h => hjoin ⟨id, h⟩) hannounces hfin fun p b hi => hawait ⟨p, b, hi⟩)
      cases hw : s.awaits p m with
      | none => rfl
      | some w => exact absurd ⟨p, w.2, (awaits_iff.mp hw).1⟩ hawait

/-! ### The course of a shutdown -/

theorem Handed.lasts (h : Handed k st r s s' kept) : Lasts s s' := by
  cases h with
  | told hhook hset htold => exact hset.lasts
  | settled hhook hp hps hsettle hset =>
    exact (Lasts.updateStrand s _ _).trans hset.lasts
  | returned hhook hp hps hsettle =>
    exact (Lasts.updateStrand s _ _).trans (.reportUnhandled _ _ _)
  | orphan hhook hp => exact .reportUnhandled s k r

/-- No move takes a shutdown back. -/
theorem MoveChange.advances (h : MoveChange s m s') : Advances s s' := by
  cases h with
  | mild hfin hawaits hmild => exact hmild.lasts.advances
  | announced hfin hawaits hadvances => exact hadvances
  | joined hm outcome => exact (Lasts.updateStrand s _ _).advances
  | spawned hm hst hrun hopen hrows hlive hlasts => exact hlasts.advances
  | awaited hawaits hfin hrun hown hlike hlevel hgrows hset =>
    exact (((hlevel.lasts.trans (.updateStrand _ _ _)).trans hset.lasts).trans
      (.release _ _)).advances
  | finished hfin hst hrun hhanded =>
    exact ((((Lasts.markFinished s _ _).trans hhanded.lasts).trans (.retire _ _ _)).trans
      (.release _ _)).advances

theorem Initial.moveChange {ms : List (Move V B)} (hs : Initial s) (ha : s.Admissible (ms ++ [m])) :
    MoveChange (s.run ms) m (s.run (ms ++ [m])) := by
  obtain ⟨hprev, hm, -⟩ := admissible_append.mp ha
  rw [run_snoc]
  exact (hs.stable_run hprev).moveChange hm (hs.kin_run hprev)

theorem Initial.advances_run {before rest : List (Move V B)} (hs : Initial s)
    (ha : s.Admissible (before ++ rest)) : Advances (s.run before) (s.run (before ++ rest)) := by
  induction rest using List.reverseRecOn with
  | nil =>
    rw [List.append_nil]
    exact .refl _
  | append_singleton rest m ih =>
    rw [← List.append_assoc] at ha ⊢
    exact (ih (admissible_append.mp ha).1).trans (hs.moveChange ha).advances

end Scheduler
end CoopSched
