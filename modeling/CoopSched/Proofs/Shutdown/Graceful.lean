import CoopSched.Proofs.Scheduler.Entries
import CoopSched.Proofs.Scheduler.Wakeups
import CoopSched.Proofs.Shutdown.Cutting
import CoopSched.Proofs.Shutdown.Immediate

/-!
# Graceful shutdowns — what is finished, and what is cancelled

A graceful shutdown waits for the moment when nothing is ready and nothing runs. Until then whoever
is ready is dispatched, and whoever runs goes on until he finishes or blocks, and that is so of the
strands that come into being or become ready meanwhile, too. At that moment nobody is left but the
strands that wait for a bridge, and as long as nobody completes one of those from outside nothing
happens any more: so these are the ones that the shutdown cancels, and it finds the ready queue
empty (`drained_first`).
-/

namespace CoopSched
namespace Scheduler

variable {V B : Type} {Ok : BridgeId → Wakeup V → Prop} {drained : Bool}
  {s s₁ s' : Scheduler V B} {m : Move V B} {before rest ms : List (Move V B)}
  {k : StrandId} {st st' st₁ : Strand V B} {r : Outcome V} {mode : ShutdownMode}

/-! ## While there are workers -/

theorem Initial.alive_before (hs : Initial s) (ha : s.Admissible (before ++ rest))
    (alive : (s.run (before ++ rest)).terminated = false) : (s.run before).terminated = false := by
  cases hterm : (s.run before).terminated with
  | false => rfl
  | true => cases ((hs.advances_run ha).terminated hterm).symm.trans alive

/-- A strand that is ready stays ready until it is dispatched. -/
theorem Stable.stays_ready (hs : Stable Ok drained s) (ha : s.Allows m) (hr : Respects Ok s m)
    (alive : s.terminated = false) (hst : s.strand? k = some st) (hready : st.status = .runnable) :
    (∃ st', (s.after m).strand? k = some st' ∧ st'.status = .runnable) ∨
      ∃ seg, m = .dispatch ∧ s.segment? m = some seg ∧ seg.strand = k := by
  obtain ⟨s₁, hturn, hrows⟩ := (hs.apart ha hr).rows alive
  have hsame : s₁.strand? k = some st → ∃ st', (s.after m).strand? k = some st' ∧
      st'.status = .runnable := by
    intro hst₁
    obtain ⟨st', hst', hlater⟩ := hrows.old k st hst₁
    refine ⟨st', hst', ?_⟩
    rcases hlater.status with hs' | hs' <;> rw [hs', hready]
    rfl
  -- The row of a ready strand is not one that a running strand changes.
  have hother : ∀ {id : StrandId} {old new : Strand V B}, Own s s₁ id old new →
      old.status ≠ .runnable → s₁.strand? k = some st := by
    intro id old new hown hold
    rw [hown.rows k, if_neg, hst]
    rintro rfl
    rw [Option.some.inj (hown.row.symm.trans hst)] at hold
    exact hold hready
  have hbusy : ∀ {old : Strand V B}, old.status.isRunning = true → old.status ≠ .runnable := by
    rintro old hrun heq
    rw [heq] at hrun
    cases hrun
  have htaken : ∀ {id : StrandId} {old new : Strand V B} {seg : Segment V B},
      Own s s₁ id old new → s.dispatch.2 = some seg → seg.strand = id →
      s₁.strand? k = some st ∨
        ∃ seg, (.dispatch : Move V B) = .dispatch ∧ s.segment? .dispatch = some seg ∧
          seg.strand = k := by
    rintro id old new seg hown hseg rfl
    by_cases hk : seg.strand = k
    · exact Or.inr ⟨seg, rfl, hseg, hk⟩
    · exact Or.inl (by rw [hown.rows k, if_neg hk, hst])
  cases hturn with
  | quiet _ _ _ hstill => exact Or.inl (hsame ((hstill.strands k).trans hst))
  | issue _ _ _ hrun _ hown => exact Or.inl (hsame (hother hown (hbusy hrun)))
  | begun hseg _ _ hown => exact (htaken hown hseg rfl).imp_left hsame
  | resumed hseg _ _ _ hown => exact (htaken hown hseg rfl).imp_left hsame
  | ended _ _ _ hown _ _ _ hwhere =>
    rcases hwhere with hrun | ⟨gone, -⟩
    · exact Or.inl (hsame (hother hown (hbusy hrun)))
    · cases alive.symm.trans gone
  | requeued hrun _ hown => exact Or.inl (hsame (hother hown (hbusy hrun)))
  | parked _ hrun _ hown => exact Or.inl (hsame (hother hown (hbusy hrun)))
  | awaiting hrun _ _ hown => exact Or.inl (hsame (hother hown (hbusy hrun)))

/-- A strand that was ready, and is not any more, has been dispatched. -/
theorem Initial.dispatched_run (hs : Initial s) (ha : s.Admissible (before ++ rest))
    (alive : (s.run (before ++ rest)).terminated = false)
    (hst : (s.run before).strand? k = some st) (hready : st.status = .runnable)
    (hgone : ∀ st', (s.run (before ++ rest)).strand? k = some st' → st'.status ≠ .runnable) :
    ∃ mid tail seg, rest = mid ++ .dispatch :: tail ∧
      (s.run (before ++ mid)).segment? .dispatch = some seg ∧ seg.strand = k := by
  induction rest using List.reverseRecOn with
  | nil =>
    rw [List.append_nil] at hgone
    exact absurd hready (hgone st hst)
  | append_singleton rest m ih =>
    rw [← List.append_assoc] at ha alive hgone
    obtain ⟨hprev, hm, -⟩ := admissible_append.mp ha
    have alive' := hs.alive_before ha alive
    by_cases hstill : ∃ st₁, (s.run (before ++ rest)).strand? k = some st₁ ∧
        st₁.status = .runnable
    · obtain ⟨st₁, hst₁, hready₁⟩ := hstill
      rcases (hs.stable_run hprev).stays_ready hm (respects_all _ m) alive' hst₁ hready₁ with
        ⟨st', hst', hready'⟩ | ⟨seg, rfl, hseg, hk⟩
      · rw [run_snoc] at hgone
        exact absurd hready' (hgone st' hst')
      · exact ⟨rest, [], seg, rfl, hseg, hk⟩
    · obtain ⟨mid, tail, seg, rfl, hseg⟩ :=
        ih hprev alive' fun st₁ hst₁ hready₁ => hstill ⟨st₁, hst₁, hready₁⟩
      exact ⟨mid, tail ++ [m], seg, by simp, hseg⟩

/-! ## When nothing is ready and nothing runs -/

/-- Who has not ended waits for a bridge that nobody has completed. -/
theorem Placed.blocked_of_idle (h : Placed s.held s) (hq : Queued s)
    (hwaiting : s.queue.waiting = []) (hheld : s.held = []) (hst : s.strand? k = some st)
    (hend : st.status.isTerminal = false) :
    st.status = .blocked ∧ ∃ b, st.bridge = some b ∧ s.bridge? b = some ⟨k, .pending⟩ := by
  have hs : st.status = .blocked := by
    cases hs : st.status with
    | runnable =>
      have hmem := hq k st hst hs
      rw [hwaiting] at hmem
      cases hmem
    | running mark =>
      have hmem := (h.busy_iff k).mpr ⟨st, hst, by rw [hs]; rfl⟩
      rw [hheld] at hmem
      cases hmem
    | blocked => rfl
    | doneOk => cases hend.symm.trans (congrArg Status.isTerminal hs)
    | doneError => cases hend.symm.trans (congrArg Status.isTerminal hs)
  obtain ⟨b, hslot⟩ := (h.slot k st hst).exists_bridge (Or.inl hs)
  exact ⟨hs, b, hslot, (h.slot k st hst).unclaimed hslot (Or.inl hs)⟩

/-- There are workers, and nobody has come into being. -/
structure Barren (s s' : Scheduler V B) : Prop where
  alive : s'.terminated = false
  rows : ∀ k, s.strand? k = none → s'.strand? k = none

theorem Barren.of_strands (h : Barren s s₁) (hterm : s'.terminated = s₁.terminated)
    (hstrands : s'.strands = s₁.strands) : Barren s s' :=
  ⟨hterm.trans h.alive, fun k hnone => by rw [strand?, hstrands]; exact h.rows k hnone⟩

theorem Barren.update (h : Barren s s₁) (id : StrandId) {f : Strand V B → Strand V B}
    (hterm : s'.terminated = s₁.terminated)
    (hstrands : s'.strands = s₁.strands.update id.number f) : Barren s s' := by
  refine ⟨hterm.trans h.alive, fun k hnone => ?_⟩
  rw [strand?_of_update hstrands, h.rows k hnone]
  split <;> rfl

/-- What completions set off brings nobody into being, where no strand has ended. -/
theorem bears_barren (s : Scheduler V B) :
    Bears (fun _ => True) (fun _ => True) (Barren s) where
  update := by
    intro s₁ s₂ hr h
    cases hr with
    | setBridge hb x => exact h.of_strands rfl rfl
    | wake alive id =>
      obtain ⟨queue, counters, journal, channel, heq⟩ := wake_row alive id
      exact h.update id (f := Strand.woken) (by rw [heq]) (by rw [heq])
    | answered hj => exact absurd trivial hj
    | job hj => exact absurd trivial hj
    | addJob entry hj => exact absurd trivial hj
    | launch body hook hj => exact absurd trivial hj
  callbacks := fun _ _ _ => trivial

theorem absorbs_barren (s : Scheduler V B) : Absorbs (Barren s) Scheduler.cancel :=
  fun _ _ h gone => absurd (h.alive.symm.trans gone) (by decide)

theorem Barren.answer (h : Barren s s₁) (j : JobId) (answer : Outcome (List V)) :
    Barren s (s₁.answerWith Scheduler.cancel j answer) := by
  unfold answerWith
  split
  · exact h
  next entry _ =>
    have hanswered : Barren s { s₁ with journal := s₁.journal.push (.answered j answer) } :=
      h.of_strands rfl rfl
    exact (bears_barren s).performWith (absorbs_barren s) hanswered fun _ _ _ => trivial

theorem Barren.submit (h : Barren s s₁) (j : JobId) (index : Nat) (r : Outcome V) :
    Barren s (s₁.submit j index r).1 := by
  unfold Scheduler.submit submitWith
  split
  · exact h
  · split
    · exact h
    next job answer _ =>
      have hupdated : Barren s (s₁.updateJob j fun e => { e with job := job }) :=
        h.of_strands rfl rfl
      cases answer with
      | none => exact hupdated
      | some answer => exact hupdated.answer j answer

theorem Barren.createJob (h : Barren s s₁) (length : Nat) (callback : Callback V) :
    Barren s (s₁.createJob length callback).1 := by
  have hadded : ∀ entry, Barren s { s₁ with jobs := s₁.jobs.add entry } := fun entry =>
    h.of_strands rfl rfl
  unfold Scheduler.createJob Scheduler.addJob
  dsimp only
  split
  · exact (hadded _).answer _ _
  · exact hadded _

theorem Barren.expireTimer (h : Barren s s) (t : TimerId) : Barren s (s.expireTimer t) := by
  unfold Scheduler.expireTimer
  split
  · exact h
  next timer ht =>
    have hexpired : Barren s
        { s with timers := s.timers.update t.number fun _ => timer.expire.1 } :=
      h.of_strands rfl rfl
    dsimp only
    split
    · exact hexpired
    · exact (bears_barren s).tryComplete (absorbs_barren s) hexpired trivial _

/-- Nobody comes into being when a shutdown has begun and no segment is under way. -/
theorem Stable.barren (hs : Stable Ok drained s) (ha : s.Allows m) (alive : s.terminated = false)
    (hstop : s.isStopping = true) (hheld : s.held = []) (hwaiting : s.queue.waiting = [])
    (k : StrandId) (hnone : s.strand? k = none) : (s.after m).strand? k = none := by
  have hbase : Barren s s := ⟨alive, fun _ h => h⟩
  have hbears := bears_barren s
  have hnested := absorbs_barren s
  have hbody : ∀ {id : StrandId}, id ∈ s.held → (s.after m).strand? k = none := fun hid => by
    rw [hheld] at hid
    cases hid
  cases m with
  | spawn body name =>
    show (s.spawnExternal body name).1.strand? k = none
    unfold spawnExternal spawn
    rw [if_pos ⟨rfl, hstop⟩]
    exact hnone
  | park id =>
    show (s.park id).1.strand? k = none
    rcases park_cases s id with ⟨e, heq⟩ | ⟨st, hst, hrun, -⟩
    · rw [heq]
      exact hnone
    · exact hbody ((hs.placed.busy_iff id).mpr ⟨st, hst, hrun⟩)
  | complete b r => exact (hbears.deliver hnested hbase trivial _).rows k hnone
  | tryComplete b r => exact (hbears.tryComplete hnested hbase trivial r).rows k hnone
  | deliver b payload => exact (hbears.deliver hnested hbase trivial payload).rows k hnone
  | invoke inputs callable concurrency callback =>
    show (s.invoke inputs callable concurrency callback).1.strand? k = none
    unfold Scheduler.invoke
    rw [if_pos hstop]
    exact hnone
  | createJob length callback => exact (hbase.createJob length callback).rows k hnone
  | submit j index r => exact (hbase.submit j index r).rows k hnone
  | claim j =>
    show (s.claim j).1.strand? k = none
    unfold Scheduler.claim
    split <;> exact hnone
  | armTimer b d now =>
    obtain ⟨timers, heq⟩ := after_armTimer s b d now
    rw [heq]
    exact hnone
  | pollTimer t =>
    obtain ⟨timers, heq⟩ := after_pollTimer s t
    rw [heq]
    exact hnone
  | expireTimer t => exact (hbase.expireTimer t).rows k hnone
  | join id =>
    show (((s.join id).map (·.1)).getD s).strand? k = none
    rcases join_cases s id with heq | ⟨outcome, heq⟩ <;> rw [heq]
    · exact hnone
    · rw [strand?_updateStrand, hnone]
      split <;> rfl
  | drainChannel =>
    show ((s.drainChannel.map (·.1)).getD s).strand? k = none
    unfold Scheduler.drainChannel
    cases s.channel <;> exact hnone
  | spawnDetached id body => exact hbody ha
  | spawnChild id body => exact hbody ha
  | invokeParked id inputs callable concurrency => exact hbody ha
  | dispatch =>
    show s.dispatch.1.strand? k = none
    rw [dispatch_idle (by rw [canDispatch, hwaiting]; simp)]
    exact hnone
  | endSegment id body step => exact hbody ha
  | beginShutdown mode =>
    show ((s.beginShutdown mode).getD s).strand? k = none
    unfold Scheduler.beginShutdown
    cases s.phase.enter? mode.phase <;> exact hnone
  | cancel id => cases alive.symm.trans ha.1
  | _ => exact hnone

/-- Does nobody complete a bridge from outside, as long as there are workers? -/
def Untouched (s : Scheduler V B) (ms : List (Move V B)) : Prop :=
  ∀ mid m tail, ms = mid ++ m :: tail → (s.run mid).terminated = false →
    ∀ b k, (s.run mid).bridge? b = some ⟨k, .pending⟩ →
      (s.run (mid ++ [m])).bridge? b = some ⟨k, .pending⟩

theorem untouched_nil (s : Scheduler V B) : Untouched s [] := by
  intro mid m tail heq
  cases mid <;> cases heq

theorem untouched_cons (hfirst : s.terminated = false → ∀ b k,
      s.bridge? b = some ⟨k, .pending⟩ → (s.after m).bridge? b = some ⟨k, .pending⟩)
    (hrest : Untouched (s.after m) ms) : Untouched s (m :: ms) := by
  intro mid m' tail heq alive
  cases mid with
  | nil =>
    obtain ⟨rfl, rfl⟩ := List.cons.inj heq
    exact hfirst alive
  | cons first mid =>
    obtain ⟨rfl, rfl⟩ := List.cons.inj heq
    exact hrest mid m' tail rfl alive

/-- Nothing is ready and nothing runs, and nobody is there who was not there in `s₀`. -/
structure Rested (s₀ s : Scheduler V B) : Prop where
  waiting : s.queue.waiting = []
  held : s.held = []
  rows : ∀ k st, s.strand? k = some st → ∃ st₀, s₀.strand? k = some st₀

/-- Somebody who is ready would have been woken by a completion, or have come into being. -/
theorem Initial.rested_after {s₀ : Scheduler V B} (hs : Initial s)
    (ha : s.Admissible (ms ++ [m])) (h : Rested s₀ (s.run ms))
    (alive : (s.run ms).terminated = false) (hstop : (s.run ms).isStopping = true)
    (huntouched : ∀ b k, (s.run ms).bridge? b = some ⟨k, .pending⟩ →
      (s.run (ms ++ [m])).bridge? b = some ⟨k, .pending⟩) : Rested s₀ (s.run (ms ++ [m])) := by
  obtain ⟨hprev, hm, -⟩ := admissible_append.mp ha
  have hstable := hs.stable_run hprev
  have hplaced := (hs.stable_run ha).placed
  obtain ⟨s₁, hturn, hrows⟩ := (hstable.apart hm (respects_all _ m)).rows alive
  rw [← run_snoc] at hrows
  have hold : ∀ k st', (s.run (ms ++ [m])).strand? k = some st' →
      ∃ st, (s.run ms).strand? k = some st := by
    intro k st' hst'
    cases hst : (s.run ms).strand? k with
    | some st => exact ⟨st, rfl⟩
    | none =>
      have hnone := hstable.barren hm alive hstop h.held h.waiting k hst
      rw [← run_snoc] at hnone
      cases hnone.symm.trans hst'
  -- So whoever has not ended was blocked before, and no turn moves a blocked strand.
  have hstays : ∀ k st', (s.run (ms ++ [m])).strand? k = some st' →
      st'.status.isTerminal = false → st'.status = .blocked := by
    intro k st' hst' hend'
    obtain ⟨st, hst⟩ := hold k st' hst'
    have hend : st.status.isTerminal = false := by
      refine Bool.eq_false_of_not_eq_true fun hend => ?_
      cases hend'.symm.trans ((hs.hasEnded_run ha ⟨st, hst, hend⟩).all st' hst')
    obtain ⟨hblocked, b, hslot, hpending⟩ :=
      hstable.placed.blocked_of_idle (hs.queued_run hprev alive) h.waiting h.held hst hend
    obtain ⟨st'', hst'', hlater⟩ := hrows.old k st (hturn.blocked alive hst hblocked)
    obtain rfl := Option.some.inj (hst''.symm.trans hst')
    rcases (hplaced.slot k st'' hst').pending (hlater.bridge.trans hslot)
      (huntouched b k hpending) with hrun | hs'
    · have hrun' := hlater.running
      rw [hrun, hblocked] at hrun'
      cases hrun'
    · exact hs'
  refine ⟨List.eq_nil_iff_forall_not_mem.mpr fun k hk => ?_,
    List.eq_nil_iff_forall_not_mem.mpr fun k hk => ?_, fun k st' hst' => ?_⟩
  · obtain ⟨st', hst', hready⟩ := hplaced.waiting_runnable k hk
    cases hready.symm.trans (hstays k st' hst' (by rw [hready]; rfl))
  · obtain ⟨st', hst', hrun⟩ := (hplaced.busy_iff k).mp hk
    have hblocked := hstays k st' hst' (Status.not_terminal_of_running hrun)
    rw [hblocked] at hrun
    cases hrun
  · obtain ⟨st, hst⟩ := hold k st' hst'
    exact h.rows k st hst

/-- **Nothing happens any more**, until the shutdown ends, if nobody completes a bridge. -/
theorem Initial.rested_run (hs : Initial s) (ha : s.Admissible (ms ++ rest))
    (hstop : (s.run ms).isStopping = true) (hwaiting : (s.run ms).queue.waiting = [])
    (hheld : (s.run ms).held = []) (huntouched : Untouched (s.run ms) rest) :
    Rested (s.run ms) (s.run (ms ++ rest)) := by
  induction rest using List.reverseRecOn with
  | nil =>
    rw [List.append_nil]
    exact ⟨hwaiting, hheld, fun k st hst => ⟨st, hst⟩⟩
  | append_singleton rest m ih =>
    rw [← List.append_assoc] at ha ⊢
    have hprev := (admissible_append.mp ha).1
    have hrested := ih hprev fun mid m' tail heq => huntouched mid m' (tail ++ [m]) (by simp [heq])
    cases hterm : (s.run (ms ++ rest)).terminated with
    | false =>
      refine hs.rested_after ha hrested hterm ((hs.advances_run hprev).isStopping hstop)
        fun b k hb => ?_
      have hlast := huntouched rest m [] rfl (by rwa [← run_append]) b k
      rw [← run_append, ← run_append, ← List.append_assoc] at hlast
      exact hlast hb
    | true =>
      -- Once the workers are gone the queue is closed, and nobody comes into it.
      obtain ⟨n, hn⟩ := (hs.stable_run hprev).sound
      refine ⟨hs.emptied_run ha hterm hrested.waiting,
        (hs.stable_run ha).placed.gone ((hs.advances_run ha).terminated hterm),
        fun k st' hst' => ?_⟩
      obtain ⟨st, hst⟩ := hs.nobody_new ha (hn.closed hterm).1 hst'
      exact hrested.rows k st hst

/-! ## The shutdown -/

/-- The strand is blocked, and nobody has completed its bridge. -/
def WaitsFor (s : Scheduler V B) (k : StrandId) (b : BridgeId) : Prop :=
  ∃ st, s.strand? k = some st ∧ st.status = .blocked ∧ st.bridge = some b ∧
    s.bridge? b = some ⟨k, .pending⟩

theorem draining_after (hopen : s.isStopping = false) :
    (s.after (.beginShutdown .graceful)).phase = .draining := by
  show ((s.beginShutdown .graceful).getD s).phase = .draining
  unfold Scheduler.beginShutdown
  rw [isStopping] at hopen
  cases hphase : s.phase <;> rw [hphase] at hopen <;> first | rfl | cases hopen

theorem Advances.draining (h : Advances s s') (hphase : s.phase = .draining) :
    s'.phase = .draining := by
  rcases h.phase with haccepting | hsame
  · cases hphase.symm.trans haccepting
  · exact hsame.trans hphase

/-- A strand that ends while a graceful shutdown waits for the workers has finished. -/
theorem Initial.ended_draining (hs : Initial s) (ha : s.Admissible (before ++ rest))
    (hphase : (s.run before).phase = .draining)
    (alive : (s.run (before ++ rest)).terminated = false)
    (hst : (s.run before).strand? k = some st) (hend : st.status.isTerminal = false)
    (hended : (s.run (before ++ rest)).HasEnded k) : ∃ r, EndedIn (s.run before) rest k r := by
  obtain ⟨mid, m, tail, st₁, st₂, rfl, hst₁, hend₁, hst₂, hend₂, hbecame⟩ :=
    hs.ends_run ha hst hend hended
  rw [← List.append_assoc] at ha alive
  have hmid := (admissible_append.mp ha).1
  rcases hbecame.ends hend₁ hend₂ with ⟨r, hfin⟩ | ⟨_, _, _, hover, -⟩
  · exact ⟨r, mid, m, tail, rfl, by rwa [← run_append]⟩
  · -- Nobody is cancelled as long as there are workers.
    rw [isShutDown, isCancelling, (hs.advances_run hmid).draining hphase,
      hs.alive_before ha alive] at hover
    cases hover

/-- **What a graceful shutdown has done** that began with the last move of `begun`, and found
    nothing ready and nothing running after `draining`. -/
structure DrainedFirst (s : Scheduler V B) (begun draining ending : List (Move V B)) : Prop where
  /-- Whoever was ready, or became ready, was dispatched. -/
  dispatched : ∀ mid tail k st, draining = mid ++ tail →
    (s.run (begun ++ mid)).strand? k = some st → st.status = .runnable →
    ∃ mid' tail' seg, tail = mid' ++ .dispatch :: tail' ∧
      (s.run (begun ++ (mid ++ mid'))).segment? .dispatch = some seg ∧ seg.strand = k
  /-- He went on until he finished or was blocked, and so did everybody who was running. -/
  through : ∀ mid tail k st, draining = mid ++ tail →
    (s.run (begun ++ mid)).strand? k = some st →
    st.status = .runnable ∨ st.status.isRunning = true →
    (∃ r, EndedIn (s.run (begun ++ mid)) tail k r) ∨
      ∃ b, (s.run (begun ++ draining)).WaitsFor k b
  waiting : (s.run (begun ++ draining)).queue.waiting = []
  running : (s.run (begun ++ draining)).queue.running = 0
  held : (s.run (begun ++ draining)).held = []
  /-- Whoever was cancelled was blocked then. -/
  cancelled : ∀ k, (s.run (begun ++ draining ++ ending)).WasCut k →
    ∃ b, (s.run (begun ++ draining)).WaitsFor k b
  /-- Nothing that was ready is thrown away, whenever the queue is emptied and the shutdown ends. -/
  discarded : ∀ mid tail, ending = mid ++ tail →
    (s.run (begun ++ draining ++ mid)).queue.drain.2 = [] ∧
      (s.run (begun ++ draining ++ mid)).finishShutdown.2.discarded = 0

/-- **A graceful shutdown finishes what can be finished.** Only who waits for a bridge is cancelled,
    if nobody completes one of those from outside after the workers have run out of work. -/
theorem drained_first {draining ending : List (Move V B)} (hs : Initial s)
    (ha : s.Admissible (before ++ [.beginShutdown .graceful] ++ draining ++ ending))
    (hopen : (s.run before).isStopping = false)
    (hidle : (s.run (before ++ [.beginShutdown .graceful] ++ draining)).queue.isIdle = true)
    (hwaits : (s.run (before ++ [.beginShutdown .graceful] ++ draining)).queue.closed = false)
    (huntouched : Untouched (s.run (before ++ [.beginShutdown .graceful] ++ draining)) ending) :
    DrainedFirst s (before ++ [.beginShutdown .graceful]) draining ending := by
  have hphase : (s.run (before ++ [.beginShutdown .graceful])).phase = .draining := by
    rw [run_snoc]
    exact draining_after hopen
  generalize before ++ [.beginShutdown .graceful] = begun at *
  have hdrained := (admissible_append.mp ha).1
  have hstable := hs.stable_run hdrained
  have hphase' := (hs.advances_run hdrained).draining hphase
  have alive : (s.run (begun ++ draining)).terminated = false := by
    refine Bool.eq_false_of_not_eq_true fun gone => ?_
    obtain ⟨n, hn⟩ := hstable.sound
    cases hwaits.symm.trans (hn.closed gone).1
  rw [ReadyQueue.isIdle, Bool.and_eq_true, List.isEmpty_iff, beq_iff_eq] at hidle
  obtain ⟨hwaiting, hrunning⟩ := hidle
  have hheld : (s.run (begun ++ draining)).held = [] :=
    List.length_eq_zero_iff.mp (hstable.running.symm.trans hrunning)
  have hqueued := hs.queued_run hdrained alive
  have hblocked : ∀ {k st}, (s.run (begun ++ draining)).strand? k = some st →
      st.status.isTerminal = false → ∃ b, (s.run (begun ++ draining)).WaitsFor k b := by
    intro k st hst hend
    obtain ⟨hs', b, hslot, hb⟩ :=
      hstable.placed.blocked_of_idle hqueued hwaiting hheld hst hend
    exact ⟨b, st, hst, hs', hslot, hb⟩
  have hrested : ∀ mid tail, ending = mid ++ tail →
      Rested (s.run (begun ++ draining)) (s.run (begun ++ draining ++ mid)) := by
    rintro mid tail rfl
    rw [← List.append_assoc] at ha
    refine hs.rested_run (admissible_append.mp ha).1 (by rw [isStopping, hphase']; rfl) hwaiting
      hheld fun mid' m tail' heq => huntouched mid' m (tail' ++ tail) (by simp [heq])
  refine ⟨?_, ?_, hwaiting, hrunning, hheld, fun k hcut => ?_, fun mid tail heq => ?_⟩
  · rintro mid tail k st rfl hst hready
    rw [← List.append_assoc] at hdrained alive hwaiting hqueued
    obtain ⟨mid', tail', seg, rfl, hseg, hk⟩ :=
      hs.dispatched_run hdrained alive hst hready fun st' hst' hready' => by
        have hmem := hqueued k st' hst' hready'
        rw [hwaiting] at hmem
        cases hmem
    exact ⟨mid', tail', seg, rfl, by rwa [← List.append_assoc], hk⟩
  · rintro mid tail k st rfl hst hactive
    have hend : st.status.isTerminal = false := by
      rcases hactive with hready | hrun
      · rw [hready]
        rfl
      · exact Status.not_terminal_of_running hrun
    rw [← List.append_assoc] at hdrained alive hblocked ⊢
    obtain ⟨st', hst', -⟩ := hs.row_run hdrained hst
    cases hend' : st'.status.isTerminal with
    | false => exact Or.inr (hblocked hst' hend')
    | true =>
      exact Or.inl (hs.ended_draining hdrained
        ((hs.advances_run (admissible_append.mp hdrained).1).draining hphase) alive hst hend
        ⟨st', hst', hend'⟩)
  · obtain ⟨st, hst, -⟩ := (hs.wasCut_run ha hcut).2
    obtain ⟨st₀, hst₀⟩ := (hrested ending [] (List.append_nil _).symm).rows k st hst
    cases hend : st₀.status.isTerminal with
    | false => exact hblocked hst₀ hend
    | true =>
      have hnot : ¬ (s.run (begun ++ draining)).WasCut k := fun hcut' => by
        have hover := (hs.wasCut_run hdrained hcut').1
        rw [isShutDown, isCancelling, hphase', alive] at hover
        cases hover
      exact absurd hcut (hs.uncut_run ha ⟨st₀, hst₀, hend⟩ hnot)
  · have hempty := (hrested mid tail heq).waiting
    exact ⟨hempty, congrArg List.length hempty⟩

/-- A strand spawns a child while the scheduler drains, and blocks. The child is run, and the strand
    is cancelled. -/
theorem drained_first_child :
    let before : List (Move Nat Unit) := [.spawn () none, .dispatch]
    let draining : List (Move Nat Unit) := [.spawnChild ⟨1⟩ (), .park ⟨1⟩,
      .endSegment ⟨1⟩ () .park, .dispatch, .endSegment ⟨2⟩ () (.done (.ok 5))]
    let ending : List (Move Nat Unit) := [.closeQueue, .terminate, .drain, .cancel ⟨1⟩]
    DrainedFirst single (before ++ [.beginShutdown .graceful]) draining ending ∧
      (single.run (before ++ [.beginShutdown .graceful] ++ draining ++ ending)).WasCut ⟨1⟩ := by
  intro before draining ending
  have ha : single.Admissible (before ++ [.beginShutdown .graceful] ++ draining ++ ending) := by
    simp [before, draining, ending, Admissible, Allows]
    decide
  have huntouched :
      Untouched (single.run (before ++ [.beginShutdown .graceful] ++ draining)) ending :=
    untouched_cons (fun _ _ _ hb => hb) (untouched_cons (fun _ _ _ hb => hb)
      (untouched_cons (fun alive => by cases alive)
        (untouched_cons (fun alive => by cases alive) (untouched_nil _))))
  refine ⟨drained_first single_initial ha rfl rfl rfl huntouched, ?_⟩
  have hjournal : (single.run (before ++ [.beginShutdown .graceful] ++ draining ++
      ending)).journal.toList = [⟨⟨1⟩, .created⟩, ⟨⟨1⟩, .dispatched⟩, ⟨⟨2⟩, .created⟩,
        ⟨⟨1⟩, .parked⟩, ⟨⟨2⟩, .dispatched⟩, ⟨⟨2⟩, .finished true⟩,
        ⟨⟨1⟩, .cancelled⟩].map .event := by
    simp only [before, draining, ending]
    rfl
  rw [WasCut, hjournal]
  simp

end Scheduler
end CoopSched
