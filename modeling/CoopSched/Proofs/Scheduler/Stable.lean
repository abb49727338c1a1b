import CoopSched.Proofs.Scheduler.Ending
import CoopSched.Proofs.Scheduler.Move

/-!
# Stability — what every move keeps

`Stable` is what is true of a scheduler between any two moves: it is sound for the rule `Ok`, every
strand is placed with the held strands as the busy ones, and there are no more of those than
workers. The rule is one that the embedder keeps to when it completes a bridge (`Respects`); under
the rule that allows everything that is no condition.
-/

namespace CoopSched

/-! ## Timers stay with their bridges -/

theorem Timer.disarm_bridge (t : Timer) : t.disarm.bridge = t.bridge := by
  unfold Timer.disarm
  split <;> rfl

theorem Timer.detach_bridge (t : Timer) : t.detach.bridge = t.bridge := by
  unfold Timer.detach
  split <;> rfl

theorem Timer.poll_bridge (t : Timer) (completed : Bool) :
    (t.poll completed).bridge = t.bridge := by
  unfold Timer.poll
  split
  · split <;> rfl
  all_goals rfl

theorem Timer.expire_bridge (t : Timer) : t.expire.1.bridge = t.bridge := by
  unfold Timer.expire
  split <;> rfl

namespace Scheduler

variable {V B : Type} {Ok : BridgeId → Wakeup V → Prop} {drained : Bool} {s : Scheduler V B}

/-- What is true between moves, before the clean-up or (`drained`) at any time. -/
structure Stable (Ok : BridgeId → Wakeup V → Prop) (drained : Bool) (s : Scheduler V B) :
    Prop where
  sound : ∃ n, Sound Ok n s
  timers : ∀ t timer, s.timer? t = some timer → ∀ r, Ok timer.bridge (.completed r)
  placed : Placed s.held s
  queued : drained = false → Queued s
  running : s.queue.running = s.held.length
  workers : s.held.length ≤ s.workers

/-- Does a move keep to the rule: where it completes bridges or has them completed later, and where
    it obtains a bridge that is not handed out? -/
structure Respects (Ok : BridgeId → Wakeup V → Prop) (s : Scheduler V B) (m : Move V B) :
    Prop where
  targets : ∀ b w, m.Targets b w → Ok b w
  issued : ∀ id o b, s.issued m = some (id, o, b) → o ≠ .park → ∀ w, o.Fits w → Ok b w

theorem Stable.mid (h : Stable Ok drained s) : Mid Ok s.held s s :=
  ⟨.refl s, h.sound, h.placed, fun hq => hq⟩

theorem Mid.stable {s' : Scheduler V B} (hm : Mid Ok s.held s s') (h : Stable Ok drained s) :
    Stable Ok drained s' where
  sound := hm.sound
  timers := by
    intro t timer ht
    rw [timer?, hm.steady.timers] at ht
    exact h.timers t timer ht
  placed := by
    rw [hm.steady.held]
    exact hm.placed
  queued := fun hd => hm.queued (h.queued hd)
  running := by rw [hm.steady.running, hm.steady.held, h.running]
  workers := by rw [hm.steady.held, hm.steady.workers]; exact h.workers

/-! ## Moves that change a strand, with nested changes at most -/

/-- To park is to be refused or to obtain a new bridge. -/
theorem park_cases (s : Scheduler V B) (id : StrandId) :
    (∃ e, s.park id = (s, .error e)) ∨ ∃ st, s.strand? id = some st ∧
      st.status.isRunning = true ∧ st.bridge = none ∧
      s.park id = ((s.issueBridge id).1, .ok ⟨s.bridges.next⟩) := by
  unfold Scheduler.park
  cases hst : s.strand? id with
  | none => exact Or.inl ⟨_, rfl⟩
  | some st =>
    dsimp only
    split
    · exact Or.inl ⟨_, rfl⟩
    split
    · exact Or.inl ⟨_, rfl⟩
    next hrun =>
      split
      · exact Or.inl ⟨_, rfl⟩
      next hslot => exact Or.inr ⟨st, rfl, by simpa using hrun, by simpa using hslot, rfl⟩

theorem Mid.park {s₀ : Scheduler V B} {busy : List StrandId} (h : Mid Ok busy s₀ s)
    (id : StrandId) : Mid Ok busy s₀ (s.park id).1 := by
  rcases park_cases s id with ⟨e, heq⟩ | ⟨st, hst, hrun, hslot, heq⟩
  · rw [heq]
    exact h
  · rw [heq]
    exact h.issue hst hrun hslot

/-- A running strand that parks on an invocation obtains a bridge and starts the invocation. -/
theorem invokeParked_cases (s : Scheduler V B) (id : StrandId) (inputs : List V)
    (callable : Nat → V → Except Panic B) (concurrency : Concurrency) :
    ((∃ e, s.park id = (s, .error e)) ∧
      (s.invokeParked id inputs callable concurrency).1 = s) ∨
    ∃ st, s.strand? id = some st ∧ st.status.isRunning = true ∧ st.bridge = none ∧
      s.park id = ((s.issueBridge id).1, .ok ⟨s.bridges.next⟩) ∧
      (s.invokeParked id inputs callable concurrency).1 =
        ((s.issueBridge id).1.drive inputs callable concurrency fun answer =>
          [.complete ⟨s.bridges.next⟩ (.mapped answer)]).1 := by
  unfold Scheduler.invokeParked
  rcases park_cases s id with ⟨e, heq⟩ | ⟨st, hst, hrun, hslot, heq⟩
  · rw [heq]
    exact Or.inl ⟨⟨e, rfl⟩, rfl⟩
  · refine Or.inr ⟨st, hst, hrun, hslot, heq, ?_⟩
    rw [heq]
    dsimp only
    split
    next hdrive => rw [hdrive]
    next hdrive => rw [hdrive]

/-- What an invocation completes is its bridge, with its answer. -/
theorem changes_driveParked {n : Nat} (hn : Sound Ok n s) {b : BridgeId} (inputs : List V)
    (callable : Nat → V → Except Panic B) (concurrency : Concurrency)
    (hok : ∀ answer, Ok b (.mapped answer)) :
    Changes Ok s (s.drive inputs callable concurrency fun answer =>
      [.complete b (.mapped answer)]).1 := by
  apply changes_drive hn inputs callable concurrency _
  intro answer b' w hmem
  obtain ⟨rfl, rfl⟩ := Effect.complete.inj (List.mem_singleton.mp hmem)
  exact hok answer

theorem Mid.invokeParked {s₀ : Scheduler V B} {busy : List StrandId} (h : Mid Ok busy s₀ s)
    (id : StrandId) (inputs : List V) (callable : Nat → V → Except Panic B)
    (concurrency : Concurrency)
    (hok : ∀ b, (s.park id).2 = .ok b → ∀ answer, Ok b (.mapped answer)) :
    Mid Ok busy s₀ (s.invokeParked id inputs callable concurrency).1 := by
  rcases invokeParked_cases s id inputs callable concurrency with
    ⟨-, heq⟩ | ⟨st, hst, hrun, hslot, hpark, heq⟩
  · rw [heq]
    exact h
  · rw [heq]
    rw [hpark] at hok
    exact (h.issue hst hrun hslot).changes_of fun n hn =>
      changes_driveParked hn inputs callable concurrency (hok _ rfl)

/-! ## The workers -/

theorem Mid.release {s' : Scheduler V B} {id : StrandId} (hm : Mid Ok (s.held.erase id) s s')
    (h : Stable Ok drained s) (hid : id ∈ s.held) : Stable Ok drained (s'.release id) where
  sound := by
    obtain ⟨n, hn⟩ := hm.sound
    exact ⟨n, hn.callbacks, hn.waiters, hn.listed, hn.closed⟩
  timers := by
    intro t timer ht
    have ht' : s'.timer? t = some timer := ht
    rw [timer?, hm.steady.timers] at ht'
    exact h.timers t timer ht'
  placed := by
    show Placed (s'.held.erase id) (s'.release id)
    rw [hm.steady.held]
    exact hm.placed.of_same (fun _ => rfl) (fun _ => rfl) rfl rfl
  queued := fun hd => hm.queued (h.queued hd)
  running := by
    show s'.queue.running - 1 = (s'.held.erase id).length
    rw [hm.steady.running, hm.steady.held, h.running, List.length_erase_of_mem hid]
  workers := by
    show (s'.held.erase id).length ≤ s'.workers
    rw [hm.steady.held, hm.steady.workers]
    exact (List.length_erase_le).trans h.workers

theorem Respects.follows {id : StrandId} {body : B} {step : Step V}
    (hr : Respects Ok s (.endSegment id body step))
    (hcancelling : (s.isCancelling && !step.isDone) = false) : Follows Ok s id step := by
  rintro mode rfl hslot outcome
  rw [show (Step.await mode : Step V).isDone = false from rfl, Bool.not_false,
    Bool.and_true] at hcancelling
  refine hr.issued id .children _ ?_ (by decide) _ trivial
  simp only [Scheduler.issued, hcancelling, hslot]
  rfl

theorem Stable.endSegment (h : Stable Ok drained s) {id : StrandId} (hid : id ∈ s.held) (body : B)
    {step : Step V} (hr : Respects Ok s (.endSegment id body step)) :
    Stable Ok drained (s.endSegment id body step) := by
  obtain ⟨st, hst, hrun⟩ := (h.placed.busy_iff id).mp hid
  unfold Scheduler.endSegment
  split
  · exact (h.mid.cancel (h.placed.running_not_waiting hst hrun) _).release h hid
  next hnot =>
    exact (h.mid.follow hst hrun body (hr.follows (Bool.eq_false_of_not_eq_true hnot))).release h
      hid

/-- What a free worker does: there is nobody to take, or the strand in front begins a segment,
    told what was left for it or what its bridge holds. -/
inductive Dispatched (s : Scheduler V B) : Scheduler V B → Option (Segment V B) → Prop
  | idle (h : s.canDispatch = false) : Dispatched s s none
  | plain {id : StrandId} {rest : List StrandId} {st : Strand V B} {body : B}
      (counters : Counters) (journal : Array (Record V)) (channel : Option Channel)
      (hcan : s.canDispatch = true) (hq : s.queue.waiting = id :: rest)
      (hst : s.strand? id = some st) (hs : st.status = .runnable) (hslot : st.bridge = none)
      (hbody : st.body = some body) :
      Dispatched s
        { s with
          strands := s.strands.update id.number (Strand.begun false)
          queue := { s.queue with waiting := rest, running := s.queue.running + 1 }
          held := s.held ++ [id]
          counters := counters
          journal := journal
          channel := channel }
        (some ⟨id, st.wakeup.getD .yielded, body⟩)
  | resumed {id : StrandId} {rest : List StrandId} {st : Strand V B} {body : B} {b : BridgeId}
      {w : Wakeup V} (counters : Counters) (journal : Array (Record V))
      (channel : Option Channel) (hcan : s.canDispatch = true)
      (hq : s.queue.waiting = id :: rest) (hst : s.strand? id = some st)
      (hs : st.status = .runnable) (hslot : st.bridge = some b)
      (hb : s.bridge? b = some ⟨id, .holding w⟩) (hbody : st.body = some body) :
      Dispatched s
        { s with
          strands := s.strands.update id.number (Strand.begun true)
          bridges := s.bridges.update b.number fun _ => ⟨id, .spent⟩
          queue := { s.queue with waiting := rest, running := s.queue.running + 1 }
          held := s.held ++ [id]
          counters := counters
          journal := journal
          channel := channel }
        (some ⟨id, w, body⟩)

/-- A strand that waits is ready and has its body, so nothing goes wrong when it is taken. -/
theorem Placed.dispatched {busy : List StrandId} (h : Placed busy s) :
    Dispatched s s.dispatch.1 s.dispatch.2 := by
  cases hcan : s.canDispatch with
  | false =>
    rw [dispatch_idle hcan]
    exact .idle hcan
  | true =>
    obtain ⟨id, rest, hq⟩ : ∃ id rest, s.queue.waiting = id :: rest := by
      cases hw : s.queue.waiting with
      | nil =>
        rw [canDispatch, hw] at hcan
        simp at hcan
      | cons id rest => exact ⟨id, rest, rfl⟩
    obtain ⟨st, hst, hs⟩ := h.waiting_runnable id (by rw [hq]; exact List.mem_cons_self)
    obtain ⟨body, hbody⟩ := Option.isSome_iff_exists.mp (h.body id st hst (Or.inl hs))
    rw [dispatch_front hcan hq]
    cases hslot : st.bridge with
    | none =>
      obtain ⟨counters, journal, channel, heq⟩ := beginSegment_plain
        (s := { s with queue := { s.queue with waiting := rest, running := s.queue.running + 1 } })
        hst hs hslot hbody
      rw [heq]
      exact .plain counters journal channel hcan hq hst hs hslot hbody
    | some b =>
      obtain ⟨w, hb⟩ := (h.slot id st hst).holding hslot (Or.inl hs)
      obtain ⟨counters, journal, channel, heq⟩ := beginSegment_resumed
        (s := { s with queue := { s.queue with waiting := rest, running := s.queue.running + 1 } })
        hst hs hslot hb hbody
      rw [heq]
      exact .resumed counters journal channel hcan hq hst hs hslot hb hbody

theorem canDispatch_alive (h : s.canDispatch = true) : s.terminated = false := by
  simp only [canDispatch, Bool.and_eq_true, Bool.not_eq_true'] at h
  exact h.1.1.1

theorem canDispatch_free (h : s.canDispatch = true) : s.held.length < s.workers := by
  simp only [canDispatch, Bool.and_eq_true, decide_eq_true_eq] at h
  exact h.2

theorem Stable.dispatch (h : Stable Ok drained s) : Stable Ok drained s.dispatch.1 := by
  have hd := h.placed.dispatched
  generalize s.dispatch.1 = s', s.dispatch.2 = seg at hd
  obtain ⟨n, hn⟩ := h.sound
  cases hd with
  | idle hcan => exact h
  | plain counters journal channel hcan hq hst hs hslot hbody =>
    refine ⟨⟨n, hn.begun hst hs rfl rfl rfl rfl rfl⟩, h.timers, ?_,
      fun hd => (h.queued hd).begun hq rfl rfl, ?_, ?_⟩
    · exact h.placed.begun hst hs hq (canDispatch_alive hcan) rfl rfl rfl (fun _ _ _ _ => Iff.rfl)
        hslot fun _ hb => hb
    · show s.queue.running + 1 = _
      rw [List.length_append, h.running]
      rfl
    · show (s.held ++ [_]).length ≤ s.workers
      rw [List.length_append]
      exact canDispatch_free hcan
  | resumed counters journal channel hcan hq hst hs hslot hb hbody =>
    refine ⟨⟨n, hn.begun hst hs rfl rfl rfl rfl rfl⟩, h.timers, ?_,
      fun hd => (h.queued hd).begun hq rfl rfl, ?_, ?_⟩
    · refine h.placed.begun hst hs hq (canDispatch_alive hcan) rfl rfl rfl ?_ rfl ?_
      · intro a k stage hk
        exact bridge?_of_update_iff (s := s) rfl hb rfl hk a stage
      · intro a ha
        rw [bridge?_of_update (s := s) rfl] at ha
        split at ha
        next heq =>
          rw [← heq, hb] at ha
          cases ha
        next => exact ha
    · show s.queue.running + 1 = _
      rw [List.length_append, h.running]
      rfl
    · show (s.held ++ [_]).length ≤ s.workers
      rw [List.length_append]
      exact canDispatch_free hcan

/-! ## Timers -/

theorem timer?_update (s : Scheduler V B) (t k : TimerId) (f : Timer → Timer) :
    { s with timers := s.timers.update t.number f }.timer? k =
      if t = k then (s.timer? k).map f else s.timer? k := by
  have hinj : t.number = k.number ↔ t = k := by
    cases t
    cases k
    simp
  simp only [timer?, Table.get?_update, hinj]

/-- A timer stays with its bridge. -/
theorem Stable.updateTimer (h : Stable Ok drained s) (t : TimerId) {f : Timer → Timer}
    (hf : ∀ timer, s.timer? t = some timer → (f timer).bridge = timer.bridge) :
    Stable Ok drained { s with timers := s.timers.update t.number f } where
  sound := by
    obtain ⟨n, hn⟩ := h.sound
    exact ⟨n, hn.callbacks, hn.waiters, hn.listed, hn.closed⟩
  timers := by
    intro k timer hk
    rw [timer?_update] at hk
    split at hk
    next heq =>
      subst heq
      obtain ⟨old, hold, rfl⟩ := Option.map_eq_some_iff.mp hk
      rw [hf old hold]
      exact h.timers t old hold
    next => exact h.timers k timer hk
  placed := h.placed.of_same (fun _ => rfl) (fun _ => rfl) rfl rfl
  queued := h.queued
  running := h.running
  workers := h.workers

theorem Stable.armTimer (h : Stable Ok drained s) {b : BridgeId} (hok : ∀ r, Ok b (.completed r))
    (d now : Duration) : Stable Ok drained (((s.armTimer b d now).map (·.1)).getD s) := by
  unfold Scheduler.armTimer
  split
  · refine ⟨?_, ?_, h.placed.of_same (fun _ => rfl) (fun _ => rfl) rfl rfl, h.queued, h.running,
      h.workers⟩
    · obtain ⟨n, hn⟩ := h.sound
      exact ⟨n, hn.callbacks, hn.waiters, hn.listed, hn.closed⟩
    · intro t timer ht
      have ht' : (s.timers.add { bridge := b, duration := d }).get? t.number = some timer := ht
      rw [Table.get?_add] at ht'
      split at ht'
      · rw [← Option.some.inj ht']
        exact hok
      · exact h.timers t timer ht'
  · exact h

theorem Stable.expireTimer (h : Stable Ok drained s) (t : TimerId) :
    Stable Ok drained (s.expireTimer t) := by
  unfold Scheduler.expireTimer
  split
  · exact h
  next timer ht =>
    have hupdate := h.updateTimer t (f := fun _ => timer.expire.1) fun timer' ht' => by
      rw [← Option.some.inj (ht.symm.trans ht')]
      exact timer.expire_bridge
    dsimp only
    split
    · exact hupdate
    next e he =>
      exact Mid.stable (hupdate.mid.changes_of fun n hn =>
        changes_tryComplete hn (h.timers t timer ht (.err e))) hupdate

/-! ## Shutdown -/

theorem Stable.beginShutdown (h : Stable Ok drained s) (mode : ShutdownMode) :
    Stable Ok drained ((s.beginShutdown mode).getD s) := by
  unfold Scheduler.beginShutdown
  cases hp : s.phase.enter? mode.phase with
  | none => exact h
  | some phase =>
    obtain ⟨n, hn⟩ := h.sound
    show Stable Ok drained { s with
      phase := phase
      queue := if phase.isCancelling then s.queue.abort else s.queue }
    split
    · exact ⟨⟨n, hn.callbacks, hn.waiters, hn.listed,
        fun gone => ⟨rfl, (hn.closed gone).2⟩⟩, h.timers,
        h.placed.of_same (fun _ => rfl) (fun _ => rfl) rfl rfl, h.queued, h.running, h.workers⟩
    · exact ⟨⟨n, hn.callbacks, hn.waiters, hn.listed, hn.closed⟩, h.timers,
        h.placed.of_same (fun _ => rfl) (fun _ => rfl) rfl rfl, h.queued, h.running, h.workers⟩

theorem Stable.closeQueue (h : Stable Ok drained s) : Stable Ok drained s.closeQueue := by
  obtain ⟨n, hn⟩ := h.sound
  exact ⟨⟨n, hn.callbacks, hn.waiters, hn.listed, fun gone => ⟨rfl, (hn.closed gone).2⟩⟩, h.timers,
    h.placed.of_same (fun _ => rfl) (fun _ => rfl) rfl rfl, h.queued, h.running, h.workers⟩

/-- The workers leave when nobody is held any more and the queue takes no new strand. -/
theorem Stable.terminate (h : Stable Ok drained s) (hclosed : s.queue.closed = true)
    (hheld : s.held = []) : Stable Ok drained s.terminate := by
  obtain ⟨n, hn⟩ := h.sound
  refine ⟨⟨s.unfinished.card, hn.callbacks, hn.waiters, hn.listed,
    fun _ => ⟨hclosed, Nat.le_refl _⟩⟩, h.timers, ?_, h.queued, h.running, h.workers⟩
  obtain ⟨h₁, h₂, h₃, h₄, h₅, h₆, h₇, -⟩ := h.placed
  exact ⟨h₁, h₂, h₃, h₄, h₅, h₆, h₇, fun _ => hheld⟩

theorem Stable.drain (h : Stable Ok drained s) :
    Stable Ok true { s with queue := s.queue.drain.1 } := by
  obtain ⟨n, hn⟩ := h.sound
  refine ⟨⟨n, hn.callbacks, hn.waiters, hn.listed, hn.closed⟩, h.timers, ?_,
    fun hd => absurd hd (by decide), h.running, h.workers⟩
  obtain ⟨-, -, h₃, h₄, h₅, h₆, h₇, h₈⟩ := h.placed
  exact ⟨List.nodup_nil, fun _ hmem => absurd hmem List.not_mem_nil, h₃, h₄, h₅, h₆, h₇, h₈⟩

theorem Stable.cancel (h : Stable Ok drained s) (gone : s.terminated = true)
    (hwaiting : s.queue.waiting = []) (id : StrandId) (reason : Failure) :
    Stable Ok true (s.cancel id reason).1 := by
  have hnot : id ∉ s.queue.waiting := by
    rw [hwaiting]
    exact List.not_mem_nil
  have hcancel := h.mid.cancel hnot reason
  rw [h.placed.gone gone, List.erase_nil, ← h.placed.gone gone] at hcancel
  have hstable := hcancel.stable h
  exact { hstable with queued := fun hd => absurd hd (by decide) }

/-! ## Every move -/

theorem join_outcome {st st' : Strand V B} {id : StrandId} {r : Outcome V}
    (h : st.join id = some (st', r)) : ∃ outcome, st' = { st with outcome := outcome } := by
  unfold Strand.join Strand.take at h
  split at h
  · cases ho : st.outcome with
    | none =>
      rw [ho] at h
      obtain ⟨rfl, -⟩ := Prod.mk.inj (Option.some.inj h)
      exact ⟨st.outcome, rfl⟩
    | some r' =>
      rw [ho] at h
      obtain ⟨rfl, -⟩ := Prod.mk.inj (Option.some.inj h)
      exact ⟨none, rfl⟩
  · cases h

theorem join_cases (s : Scheduler V B) (id : StrandId) :
    ((s.join id).map (·.1)).getD s = s ∨ ∃ outcome, ((s.join id).map (·.1)).getD s =
      s.updateStrand id fun st => { st with outcome := outcome } := by
  unfold Scheduler.join
  cases hst : s.strand? id with
  | none => exact Or.inl rfl
  | some st =>
    cases hj : st.join id with
    | none =>
      left
      simp only [hj]
      rfl
    | some p =>
      obtain ⟨st', r⟩ := p
      obtain ⟨outcome, rfl⟩ := join_outcome hj
      refine Or.inr ⟨outcome, ?_⟩
      simp only [hj]
      refine updateStrand_congr fun st' hst' => ?_
      rw [Option.some.inj (hst.symm.trans hst')]

theorem Stable.join (h : Stable Ok drained s) (id : StrandId) :
    Stable Ok drained (((s.join id).map (·.1)).getD s) := by
  rcases join_cases s id with heq | ⟨outcome, heq⟩
  · rw [heq]
    exact h
  · rw [heq]
    obtain ⟨n, hn⟩ := h.sound
    refine ⟨⟨n, ?_⟩, h.timers, ?_, fun hd => ?_, h.running, h.workers⟩
    · exact hn.of_row rfl (fun _ _ => Or.inl rfl) (fun _ _ hrun => hrun) rfl rfl (fun hc => hc)
        (fun _ hk _ => hk)
    · exact h.placed.of_row rfl (fun _ _ => ⟨rfl, rfl, rfl⟩) rfl rfl rfl
    · exact (h.queued hd).of_row rfl (fun st hst hs => h.queued hd id st hst hs) fun _ hk _ => hk

/-- **Every move that may come keeps a scheduler stable.** -/
theorem Stable.after (h : Stable Ok drained s) {m : Move V B} (ha : s.Allows m)
    (hr : Respects Ok s m) :
    Stable Ok (drained || m.isCleanUp) (s.after m) := by
  rw [show (drained || m.isCleanUp) = if m.isCleanUp then true else drained by
    cases drained <;> cases m.isCleanUp <;> rfl]
  have hchanges : ∀ {s'}, (∀ n, Sound Ok n s → Changes Ok s s') → Stable Ok drained s' :=
    fun hd => (h.mid.changes_of hd).stable h
  cases m with
  | spawn body name => exact hchanges fun n hn => .single (.spawn s _)
  | park id => exact (h.mid.park id).stable h
  | complete b r => exact hchanges fun n hn => changes_deliver hn (hr.targets b _ ⟨rfl, rfl⟩)
  | tryComplete b r => exact hchanges fun n hn => changes_tryComplete hn (hr.targets b _ ⟨rfl, rfl⟩)
  | deliver b payload => exact hchanges fun n hn => changes_deliver hn (hr.targets b _ ⟨rfl, rfl⟩)
  | invoke inputs callable concurrency callback =>
    exact hchanges fun n hn => changes_invoke hn inputs callable concurrency callback
      fun answer b w hmem => hr.targets b w ⟨answer, hmem⟩
  | createJob length callback =>
    exact hchanges fun n hn => changes_addJob hn length callback none
      fun answer b w hmem => hr.targets b w ⟨answer, hmem⟩
  | submit j index r => exact hchanges fun n hn => changes_submitWith cancels_cancel hn j index r
  | claim j => exact hchanges fun n hn => changes_claim s j
  | armTimer b d now => exact h.armTimer (fun r => hr.targets b _ ⟨rfl, r, rfl⟩) d now
  | disarmTimer t => exact h.updateTimer t fun timer _ => timer.disarm_bridge
  | detachTimer t => exact h.updateTimer t fun timer _ => timer.detach_bridge
  | pollTimer t =>
    show Stable Ok drained (s.pollTimer t)
    unfold Scheduler.pollTimer
    split
    · exact h
    · exact h.updateTimer t fun timer _ => timer.poll_bridge _
  | expireTimer t => exact h.expireTimer t
  | join id => exact h.join id
  | drainChannel =>
    show Stable Ok drained ((s.drainChannel.map (·.1)).getD s)
    unfold Scheduler.drainChannel
    cases s.channel with
    | none => exact h
    | some c =>
      obtain ⟨n, hn⟩ := h.sound
      exact ⟨⟨n, hn.callbacks, hn.waiters, hn.listed, hn.closed⟩, h.timers,
        h.placed.of_same (fun _ => rfl) (fun _ => rfl) rfl rfl, h.queued, h.running, h.workers⟩
  | spawnDetached id body => exact hchanges fun n hn => .single (.spawn s _)
  | spawnChild id body => exact hchanges fun n hn => changes_spawnChild s id body
  | invokeParked id inputs callable concurrency =>
    refine (h.mid.invokeParked id inputs callable concurrency ?_).stable h
    intro b hb answer
    refine hr.issued id .invocation b ?_ (by decide) _ trivial
    simp only [Scheduler.issued, hb]
  | dispatch => exact h.dispatch
  | endSegment id body step => exact h.endSegment ha body hr
  | beginShutdown mode => exact h.beginShutdown mode
  | closeQueue => exact h.closeQueue
  | terminate => exact h.terminate ha.1 ha.2
  | drain => exact h.drain
  | cancel id => exact h.cancel ha.1 ha.2 id _

/-! ## What most moves leave alone -/

/-- Is the move none of a worker, of a timer and of a shutdown? -/
def Move.isSteady : Move V B → Bool
  | .armTimer .. | .disarmTimer _ | .detachTimer _ | .pollTimer _ | .expireTimer _ | .dispatch
  | .endSegment .. | .beginShutdown _ | .closeQueue | .terminate | .drain => false
  | _ => true

theorem Stable.steady_after (h : Stable (fun _ _ => True) drained s) {m : Move V B}
    (ha : s.Allows m) (hm : m.isSteady = true) : Steady s (s.after m) := by
  obtain ⟨n, hn⟩ := h.sound
  cases m with
  | spawn body name => exact .spawn s _
  | park id => exact (h.mid.park id).steady
  | complete b r => exact (changes_deliver hn trivial).steady
  | tryComplete b r => exact (changes_tryComplete hn trivial).steady
  | deliver b payload => exact (changes_deliver hn trivial).steady
  | invoke inputs callable concurrency callback =>
    exact (changes_invoke hn inputs callable concurrency callback fun _ _ _ _ => trivial).steady
  | createJob length callback =>
    exact (changes_addJob hn length callback none fun _ _ _ _ => trivial).steady
  | submit j index r => exact (changes_submitWith cancels_cancel hn j index r).steady
  | claim j => exact (show Changes (fun _ _ => True) s _ from changes_claim s j).steady
  | join id =>
    show Steady s (((s.join id).map (·.1)).getD s)
    rcases join_cases s id with heq | ⟨outcome, heq⟩ <;> rw [heq]
    · exact .refl s
    · exact ⟨rfl, rfl, rfl, rfl, rfl, rfl, rfl, rfl⟩
  | drainChannel =>
    show Steady s ((s.drainChannel.map (·.1)).getD s)
    unfold Scheduler.drainChannel
    cases s.channel with
    | none => exact .refl s
    | some c => exact ⟨rfl, rfl, rfl, rfl, rfl, rfl, rfl, rfl⟩
  | spawnDetached id body => exact .spawn s _
  | spawnChild id body =>
    exact (show Changes (fun _ _ => True) s _ from changes_spawnChild s id body).steady
  | invokeParked id inputs callable concurrency =>
    exact (h.mid.invokeParked id inputs callable concurrency fun _ _ _ => trivial).steady
  | cancel id =>
    have hwaiting : id ∉ s.queue.waiting := by
      rw [ha.2]
      exact List.not_mem_nil
    exact (h.mid.cancel hwaiting _).steady
  | _ => cases hm

/-- At the end of a segment a worker gives its strand back, after everything else. -/
theorem Stable.steady_endSegment (h : Stable (fun _ _ => True) drained s) {id : StrandId}
    (hid : id ∈ s.held) (body : B) (step : Step V) :
    ∃ s', Steady s s' ∧ s.endSegment id body step = s'.release id := by
  obtain ⟨st, hst, hrun⟩ := (h.placed.busy_iff id).mp hid
  unfold Scheduler.endSegment
  split
  · exact ⟨_, (h.mid.cancel (h.placed.running_not_waiting hst hrun) _).steady, rfl⟩
  · exact ⟨_, (h.mid.follow hst hrun body fun _ _ _ _ => trivial).steady, rfl⟩

/-- No move hires a worker. -/
theorem Stable.workers_after (h : Stable (fun _ _ => True) drained s) {m : Move V B}
    (ha : s.Allows m) : (s.after m).workers = s.workers := by
  cases hm : m.isSteady with
  | true => exact (h.steady_after ha hm).workers
  | false =>
    cases m with
    | dispatch =>
      have hd := h.placed.dispatched
      show s.dispatch.1.workers = s.workers
      generalize s.dispatch.1 = s', s.dispatch.2 = seg at hd
      cases hd <;> rfl
    | endSegment id body step =>
      obtain ⟨s', hsteady, heq⟩ := h.steady_endSegment ha body step
      show (s.endSegment id body step).workers = s.workers
      rw [heq]
      exact hsteady.workers
    | beginShutdown mode =>
      show ((s.beginShutdown mode).getD s).workers = s.workers
      unfold Scheduler.beginShutdown
      cases s.phase.enter? mode.phase <;> rfl
    | armTimer b d now =>
      obtain ⟨timers, heq⟩ := after_armTimer s b d now
      rw [heq]
    | pollTimer t =>
      obtain ⟨timers, heq⟩ := after_pollTimer s t
      rw [heq]
    | expireTimer t =>
      show (s.expireTimer t).workers = s.workers
      unfold Scheduler.expireTimer
      split
      · rfl
      next timer ht =>
        have hupdate := h.updateTimer t (f := fun _ => timer.expire.1) fun timer' ht' => by
          rw [← Option.some.inj (ht.symm.trans ht')]
          exact timer.expire_bridge
        obtain ⟨n, hn⟩ := hupdate.sound
        dsimp only
        split
        · rfl
        · exact (changes_tryComplete hn trivial).steady.workers
    | disarmTimer | detachTimer | closeQueue | terminate | drain => rfl
    | _ => cases hm

/-! ## The end of a shutdown -/

theorem cleanUpReason_congr {s' : Scheduler V B} (h : s'.phase = s.phase) :
    s'.cleanUpReason = s.cleanUpReason := by
  unfold cleanUpReason isCancelling
  rw [h]

theorem cancelAll_eq_run {ids : List StrandId} (h : Stable Ok drained s)
    (gone : s.terminated = true) (hwaiting : s.queue.waiting = []) :
    (cancelAll s.cleanUpReason ids s).1 = s.run (ids.map .cancel) := by
  induction ids generalizing s drained with
  | nil => rfl
  | cons id rest ih =>
    have hnext := h.cancel gone hwaiting id s.cleanUpReason
    have hnot : id ∉ s.queue.waiting := by
      rw [hwaiting]
      exact List.not_mem_nil
    have hsteady := (h.mid.cancel hnot s.cleanUpReason).steady
    have hreason := cleanUpReason_congr hsteady.phase
    obtain ⟨n, hn⟩ := h.sound
    have hrest := ih hnext (hsteady.terminated.trans gone)
      (by rw [cancel_queue hn gone, hwaiting])
    rw [hreason] at hrest
    exact hrest

/-- Ending a shutdown is closing the queue, sending the workers home, emptying the queue and
    cancelling whatever is live, with nothing in between. -/
theorem finishShutdown_eq_run (h : Stable Ok drained s) (hheld : s.held = []) :
    s.finishShutdown.1 =
      s.run ([.closeQueue, .terminate, .drain] ++ s.live.map .cancel) := by
  have hterm := (h.closeQueue.terminate rfl hheld).drain
  exact cancelAll_eq_run hterm rfl rfl

end Scheduler
end CoopSched
