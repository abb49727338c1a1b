import CoopSched.Proofs.Shutdown.Tidy

/-!
# Stopped — what a shutdown leaves behind

When a shutdown returns, everything has ended: nobody is live, waits or runs, every strand can be
joined, and every bridge is shut (`Stopped`). That is so whatever ran, waited or was blocked when
the shutdown began, and whatever the cancellations set off: results for jobs, callbacks, completions
of other bridges, launches that come too late. And it stays so, whatever anybody does afterwards
(`stopped_for_good`).
-/

namespace CoopSched

theorem Status.done_of_terminal {status : Status} (h : status.isTerminal = true) :
    status = .doneOk ∨ status = .doneError := by
  cases status with
  | doneOk => exact Or.inl rfl
  | doneError => exact Or.inr rfl
  | _ => cases h

namespace Scheduler

variable {V B : Type} {s : Scheduler V B} {m : Move V B} {ms before rest : List (Move V B)}
  {k : StrandId} {st : Strand V B} {mode : ShutdownMode}

/-- A shutdown begins in the run, the first one, and returns in it: the workers leave, the queue is
    emptied, and whoever is live then is cancelled. Anybody may move in between. -/
def ShutsDown (s : Scheduler V B) (mode : ShutdownMode) (ms : List (Move V B)) : Prop :=
  ∃ before waiting leaving counting cancelling,
    ms = before ++ [.beginShutdown mode] ++ waiting ++ [.terminate] ++ leaving ++ [.drain] ++
      counting ++ cancelling ∧
    (s.run before).isStopping = false ∧
    ∀ k ∈ (s.run (before ++ [.beginShutdown mode] ++ waiting ++ [.terminate] ++ leaving ++
      [.drain] ++ counting)).live, .cancel k ∈ cancelling

/-- Everything has ended, and nothing can begin. -/
structure Stopped (s : Scheduler V B) : Prop where
  live : s.live = []
  waiting : s.queue.waiting = []
  held : s.held = []
  running : s.queue.running = 0
  ended : ∀ k st, s.strand? k = some st →
    (st.status = .doneOk ∨ st.status = .doneError) ∧ st.complete = true ∧ st.bridge = none
  /-- Whoever joins a strand gets an answer at once. -/
  joined : ∀ k st, s.strand? k = some st → (s.join k).isSome = true
  /-- Every completion of a bridge is refused. -/
  completed : ∀ b r, (s.complete b r).2 = .error .shutDown
  /-- So is every strand, whoever asks for it. -/
  spawned : ∀ r, (s.spawn r).2 = .error .shutDown
  child : ∀ p body, (s.spawnChild p body).2 = .error .shutDown
  invoked : ∀ inputs callable concurrency callback,
    (s.invoke inputs callable concurrency callback).2 = .refused .shutDown
  /-- No segment begins. -/
  idle : ∀ m, s.segment? m = none
  /-- A further shutdown has nothing to report. -/
  repeated : ∀ mode, s.requestShutdown mode = .error {}

/-! ## What is refused -/

theorem spawn_refused (hclosed : s.queue.closed = true) (hstop : s.isStopping = true)
    (r : SpawnRequest B) : (s.spawn r).2 = .error .shutDown := by
  rcases spawn_cases s r with ⟨hopen, -⟩ | ⟨_, _, _, _, cause, heq, -, -⟩
  · cases hclosed.symm.trans hopen
  rcases spawn_told s r with ⟨-, heq'⟩ | ⟨_, _, heq'⟩ | ⟨_, _, heq'⟩
  · rw [heq']
  · cases (Prod.mk.inj (heq.symm.trans heq')).2
  · rw [heq']
    show Except.error (s.queueRefusal _) = _
    unfold queueRefusal
    split
    · rw [if_pos hstop]
    · rfl

theorem spawnChild_refused (hclosed : s.queue.closed = true) (hstop : s.isStopping = true)
    (p : StrandId) (body : B) : (s.spawnChild p body).2 = .error .shutDown := by
  have hrefused := spawn_refused
    (s := s.updateStrand p fun st => { st with children := st.children.add }) hclosed hstop
    { body := body, admission := .internal, parent := some p }
  unfold Scheduler.spawnChild
  dsimp only
  split
  next heq =>
    rw [heq] at hrefused
    cases hrefused
  next heq =>
    rw [heq] at hrefused
    exact hrefused

theorem invoke_refused (hstop : s.isStopping = true) (inputs : List V)
    (callable : Nat → V → Except Panic B) (concurrency : Concurrency) (callback : Callback V) :
    (s.invoke inputs callable concurrency callback).2 = .refused .shutDown := by
  unfold Scheduler.invoke
  rw [if_pos hstop]

/-- When the workers are gone, whoever completes a bridge is told so, first or not. -/
theorem complete_refused (gone : s.terminated = true) (b : BridgeId) (r : Outcome V) :
    (s.complete b r).2 = .error .shutDown := by
  show (s.deliverWith Scheduler.cancel b (.completed r)).2 = _
  unfold deliverWith
  split
  · rfl
  · split
    · rw [if_pos (by rw [isShutDown, gone, Bool.or_true])]
    next bridge _ claimed _ =>
      have gone' : (s.setBridge b claimed).terminated = true := gone
      unfold wakeWith
      rw [if_pos gone']

theorem segment_refused (gone : s.terminated = true) (m : Move V B) : s.segment? m = none := by
  cases hseg : s.segment? m with
  | none => rfl
  | some seg => cases (segment_alive hseg).symm.trans gone

theorem shutdown_refused (hstop : s.isStopping = true) (mode : ShutdownMode) :
    s.requestShutdown mode = .error {} := by
  unfold requestShutdown Scheduler.beginShutdown
  rw [Phase.enter?_eq_none_iff.mpr hstop]
  rfl

theorem join_isSome (hst : s.strand? k = some st) (hcomplete : st.complete = true) :
    (s.join k).isSome = true := by
  unfold Scheduler.join Strand.join
  rw [hst]
  dsimp only
  rw [if_pos hcomplete]
  split <;> rfl

/-! ## When the workers are gone -/

theorem Advances.isStopping (h : Advances s s') (hstop : s.isStopping = true) :
    s'.isStopping = true := by
  rcases h.phase with haccepting | hphase
  · rw [Scheduler.isStopping, haccepting] at hstop
    cases hstop
  · rw [Scheduler.isStopping, hphase]
    exact hstop

theorem beginShutdown_isStopping (s : Scheduler V B) (mode : ShutdownMode) :
    (s.after (.beginShutdown mode)).isStopping = true := by
  show ((s.beginShutdown mode).getD s).isStopping = true
  unfold Scheduler.beginShutdown
  cases hphase : s.phase <;> cases mode <;>
    simp [Phase.enter?, ShutdownMode.phase, Scheduler.isStopping, Phase.isStopping, hphase]

/-- A queue that was emptied then stays empty. -/
theorem Initial.emptied_run (hs : Initial s) (ha : s.Admissible (before ++ rest))
    (gone : (s.run before).terminated = true) (hempty : (s.run before).queue.waiting = []) :
    (s.run (before ++ rest)).queue.waiting = [] := by
  induction rest using List.reverseRecOn with
  | nil => rwa [List.append_nil]
  | append_singleton rest m ih =>
    rw [← List.append_assoc] at ha ⊢
    obtain ⟨hprev, hm, -⟩ := admissible_append.mp ha
    have hstable := hs.stable_run hprev
    have hshrinks := (hstable.apart hm (respects_all _ m)).queueShrinks hstable
      ((hs.advances_run hprev).terminated gone)
    rw [run_snoc]
    refine List.eq_nil_iff_forall_not_mem.mpr fun k hk => ?_
    have hmem := hshrinks.waiting k hk
    rw [ih hprev] at hmem
    cases hmem

/-- A strand that is cancelled ends with that, if it is there. -/
theorem Stable.hasEnded_cancel {Ok : BridgeId → Wakeup V → Prop} {drained : Bool}
    (hs : Stable Ok drained s) (hst : s.strand? k = some st) (reason : Failure) :
    (s.cancel k reason).1.HasEnded k := by
  obtain ⟨n, hn⟩ := hs.sound
  cases hend : st.status.isTerminal with
  | true =>
    rw [cancel_terminal ⟨st, hst, hend⟩]
    exact ⟨st, hst, hend⟩
  | false =>
    obtain ⟨s', kept, hd, heq⟩ := cancel_running hn hst hend reason
    obtain ⟨st', hst', hend'⟩ : s'.HasEnded k :=
      hd.hasEnded ⟨st.cut, (cut_row hst k).trans (if_pos rfl), rfl⟩
    rw [heq]
    exact ⟨st'.publish kept, by rw [retire_row, if_pos rfl, hst', Option.map_some], hend'⟩

/-- When the queue is emptied, the workers are gone, and the shutdown has begun. -/
theorem ShutsDown.emptied (hdown : ShutsDown s mode ms) (hs : Initial s) (ha : s.Admissible ms) :
    ∃ counted cancelling, ms = counted ++ cancelling ∧ (s.run counted).terminated = true ∧
      (s.run counted).isStopping = true ∧ (s.run counted).queue.waiting = [] ∧
      ∀ k ∈ (s.run counted).live, .cancel k ∈ cancelling := by
  obtain ⟨before, waiting, leaving, counting, cancelling, rfl, -, hcancelled⟩ := hdown
  have hcounted := (admissible_append.mp ha).1
  have hdrained := (admissible_append.mp hcounted).1
  have hleft := (admissible_append.mp hdrained).1
  have hterminated := (admissible_append.mp hleft).1
  have hwaited := (admissible_append.mp hterminated).1
  refine ⟨_, cancelling, rfl, ?_, ?_, ?_, hcancelled⟩
  · -- The workers leave with the `terminate` of the run, and nobody brings them back.
    have gone : (s.run (before ++ [.beginShutdown mode] ++ waiting ++ [.terminate])).terminated =
        true := by
      rw [run_snoc]
      rfl
    exact (hs.advances_run hcounted).terminated
      ((hs.advances_run hdrained).terminated ((hs.advances_run hleft).terminated gone))
  · have hstop : (s.run (before ++ [.beginShutdown mode])).isStopping = true := by
      rw [run_snoc]
      exact beginShutdown_isStopping _ mode
    exact (hs.advances_run hcounted).isStopping ((hs.advances_run hdrained).isStopping
      ((hs.advances_run hleft).isStopping ((hs.advances_run hterminated).isStopping
        ((hs.advances_run hwaited).isStopping hstop))))
  · have gone := (admissible_append.mp hdrained).2.1
    refine hs.emptied_run hcounted ((hs.advances_run hdrained).terminated gone) ?_
    rw [run_snoc]
    rfl

/-- Everybody has ended when the shutdown returns. -/
theorem ShutsDown.hasEnded (hdown : ShutsDown s mode ms) (hs : Initial s) (ha : s.Admissible ms)
    (hst : (s.run ms).strand? k = some st) : (s.run ms).HasEnded k := by
  obtain ⟨counted, cancelling, rfl, gone, -, -, hcancelled⟩ := hdown.emptied hs ha
  have hprev := (admissible_append.mp ha).1
  obtain ⟨n, hn⟩ := (hs.stable_run hprev).sound
  obtain ⟨st₁, hst₁⟩ := hs.nobody_new ha (hn.closed gone).1 hst
  cases hend : st₁.status.isTerminal with
  | true => exact hs.hasEnded_run ha ⟨st₁, hst₁, hend⟩
  | false =>
    have hlive := ((hs.tidy_run hprev).live_iff hst₁).mpr hend
    obtain ⟨earlier, later, rfl⟩ := List.append_of_mem (hcancelled k hlive)
    rw [List.append_cons earlier, ← List.append_assoc, ← List.append_assoc] at ha ⊢
    have hthen := (admissible_append.mp ha).1
    obtain ⟨st₂, hst₂, -⟩ := hs.row_run (admissible_append.mp hthen).1 hst₁
    refine hs.hasEnded_run ha ?_
    rw [run_snoc]
    exact (hs.stable_run (admissible_append.mp hthen).1).hasEnded_cancel hst₂ _

/-- Strands may be cancelled one after the other once the queue is empty and the workers are
    gone. -/
theorem Stable.admissible_cancels {Ok : BridgeId → Wakeup V → Prop} {drained : Bool}
    (hs : Stable Ok drained s) (gone : s.terminated = true) (hempty : s.queue.waiting = [])
    (ids : List StrandId) : s.Admissible (ids.map .cancel) := by
  induction ids generalizing s drained with
  | nil => trivial
  | cons id rest ih =>
    have hnext := hs.cancel gone hempty id s.cleanUpReason
    have hnot : id ∉ s.queue.waiting := by simp [hempty]
    have hsteady := (hs.mid.cancel hnot s.cleanUpReason).steady
    obtain ⟨n, hn⟩ := hs.sound
    have hqueue := cancel_queue hn gone id s.cleanUpReason
    exact ⟨⟨gone, hempty⟩, ih hnext (hsteady.terminated.trans gone)
      ((congrArg ReadyQueue.waiting hqueue).trans hempty)⟩

/-- The end of a shutdown, move by move, with nothing in between. -/
def closing (s : Scheduler V B) : List (Move V B) :=
  [.closeQueue, .terminate, .drain] ++ s.live.map .cancel

/-- **Ending a shutdown is such a return**, with nothing in between. -/
theorem Initial.shutsDown_finish {waiting : List (Move V B)} (hs : Initial s)
    (ha : s.Admissible (before ++ [.beginShutdown mode] ++ waiting))
    (hopen : (s.run before).isStopping = false)
    (hheld : (s.run (before ++ [.beginShutdown mode] ++ waiting)).held = []) :
    s.Admissible (before ++ [.beginShutdown mode] ++ waiting ++
        (s.run (before ++ [.beginShutdown mode] ++ waiting)).closing) ∧
      ShutsDown s mode (before ++ [.beginShutdown mode] ++ waiting ++
        (s.run (before ++ [.beginShutdown mode] ++ waiting)).closing) ∧
      s.run (before ++ [.beginShutdown mode] ++ waiting ++
          (s.run (before ++ [.beginShutdown mode] ++ waiting)).closing) =
        (s.run (before ++ [.beginShutdown mode] ++ waiting)).finishShutdown.1 := by
  have hstable := hs.stable_run ha
  have hstop : (s.run (before ++ [.beginShutdown mode] ++ waiting)).isStopping = true := by
    refine (hs.advances_run ha).isStopping ?_
    rw [run_snoc]
    exact beginShutdown_isStopping _ mode
  generalize hms : before ++ [.beginShutdown mode] ++ waiting = ms at *
  have hleave : (s.run ms).Admissible [.closeQueue, .terminate, .drain] :=
    ⟨hstop, ⟨rfl, hheld⟩, rfl, trivial⟩
  refine ⟨admissible_append.mpr ⟨ha, admissible_append.mpr ⟨hleave, ?_⟩⟩, ?_,
    by rw [run_append, closing, finishShutdown_eq_run hstable hheld]⟩
  · exact ((hstable.closeQueue.terminate rfl hheld).drain).admissible_cancels rfl rfl _
  · refine ⟨before, waiting ++ [.closeQueue], [], [], (s.run ms).live.map .cancel, ?_, hopen,
      fun k hk => List.mem_map_of_mem ?_⟩
    · simp [closing, ← hms]
    · have hcounted : before ++ [.beginShutdown mode] ++ (waiting ++ [.closeQueue]) ++
          [.terminate] ++ [] ++ [.drain] ++ [] = ms ++ [.closeQueue, .terminate, .drain] := by
        simp [← hms]
      rw [hcounted, run_append] at hk
      exact hk

/-! ## After the shutdown -/

/-- A shutdown that has returned leaves a scheduler stopped. -/
theorem ShutsDown.stopped (hdown : ShutsDown s mode ms) (hs : Initial s)
    (ha : s.Admissible (ms ++ rest)) : Stopped (s.run (ms ++ rest)) := by
  have hms := (admissible_append.mp ha).1
  have hend : ∀ k st, (s.run (ms ++ rest)).strand? k = some st → st.status.isTerminal = true := by
    intro k st hst
    obtain ⟨counted, cancelling, rfl, gone, -⟩ := hdown.emptied hs hms
    obtain ⟨n, hn⟩ := (hs.stable_run hms).sound
    have gone' := (hs.advances_run hms).terminated gone
    obtain ⟨st₁, hst₁⟩ := hs.nobody_new ha (hn.closed gone').1 hst
    exact (hs.hasEnded_run ha (hdown.hasEnded hs hms hst₁)).all st hst
  obtain ⟨counted, cancelling, rfl, gone, hstop, hempty, -⟩ := hdown.emptied hs hms
  rw [List.append_assoc] at ha hend ⊢
  have hadvances := hs.advances_run ha
  have hwaiting := hs.emptied_run ha gone hempty
  have hstable := hs.stable_run ha
  have htidy := hs.tidy_run ha
  generalize s.run (counted ++ (cancelling ++ rest)) = s' at *
  have gone' := hadvances.terminated gone
  have hstop' := hadvances.isStopping hstop
  obtain ⟨n, hn⟩ := hstable.sound
  have hclosed := (hn.closed gone').1
  have hheld := hstable.placed.gone gone'
  have hcomplete : ∀ k st, s'.strand? k = some st → st.complete = true :=
    fun k st hst => (htidy.rows k st hst).complete.trans (hend k st hst)
  refine ⟨?_, hwaiting, hheld, ?_, fun k st hst => ⟨?_, hcomplete k st hst, ?_⟩,
    fun k st hst => join_isSome hst (hcomplete k st hst), complete_refused gone',
    spawn_refused hclosed hstop', spawnChild_refused hclosed hstop', invoke_refused hstop',
    segment_refused gone', shutdown_refused hstop'⟩
  · refine List.eq_nil_iff_forall_not_mem.mpr fun k hk => ?_
    obtain ⟨st, hst, hlive⟩ := Option.map_eq_some_iff.mp ((htidy.listed.live k).mp hk)
    rw [hcomplete k st hst] at hlive
    cases hlive
  · rw [hstable.running, hheld]
    rfl
  · exact Status.done_of_terminal (hend k st hst)
  · exact (hstable.placed.slot k st hst).terminal (hend k st hst)

/-- **A shutdown that has returned leaves nothing behind, for good.** Every strand that was ever
    admitted is there and has ended, and no strand changes its status any more. -/
theorem stopped_for_good (hs : Initial s) (ha : s.Admissible (ms ++ rest))
    (hdown : ShutsDown s mode ms) :
    Stopped (s.run (ms ++ rest)) ∧
      (∀ earlier, earlier <+: ms ++ rest → ∀ k st, (s.run earlier).strand? k = some st →
        ∃ st', (s.run (ms ++ rest)).strand? k = some st') ∧
      ∀ k, ((s.run (ms ++ rest)).strand? k).map (·.status) =
        ((s.run ms).strand? k).map (·.status) := by
  have hms := (admissible_append.mp ha).1
  refine ⟨hdown.stopped hs ha, ?_, fun k => ?_⟩
  · rintro earlier ⟨later, hlater⟩ k st hst
    rw [← hlater] at ha ⊢
    obtain ⟨st', hst', -⟩ := hs.row_run ha hst
    exact ⟨st', hst'⟩
  · cases hst : (s.run ms).strand? k with
    | some st =>
      obtain ⟨st', hst', hremains⟩ :=
        hs.remains_run ha hst ((hdown.hasEnded hs hms hst).all st hst)
      rw [hst', Option.map_some, Option.map_some, hremains.status]
    | none =>
      cases hst' : (s.run (ms ++ rest)).strand? k with
      | none => rfl
      | some st' =>
        obtain ⟨counted, cancelling, rfl, gone, -⟩ := hdown.emptied hs hms
        obtain ⟨n, hn⟩ := (hs.stable_run hms).sound
        have gone' := (hs.advances_run hms).terminated gone
        obtain ⟨st, hst₁⟩ := hs.nobody_new ha (hn.closed gone').1 hst'
        cases hst.symm.trans hst₁

/-- One strand is blocked and one is ready when everything is to be cut off. A completion and a
    launch that come too late change nothing. -/
theorem stopped_for_good_blocked :
    let ms : List (Move Nat Unit) := [.spawn () none, .dispatch, .park ⟨1⟩,
      .endSegment ⟨1⟩ () .park, .spawn () none, .beginShutdown .immediate, .terminate, .drain,
      .cancel ⟨1⟩, .cancel ⟨2⟩]
    let rest : List (Move Nat Unit) := [.complete ⟨1⟩ (.ok 7), .spawn () none]
    Stopped (single.run (ms ++ rest)) ∧
      ∀ k, ((single.run (ms ++ rest)).strand? k).map (·.status) =
        ((single.run ms).strand? k).map (·.status) := by
  intro ms rest
  have ha : single.Admissible (ms ++ rest) := by
    simp [ms, rest, Admissible, Allows]
    decide
  have hdown : ShutsDown single .immediate ms := by
    refine ⟨[.spawn () none, .dispatch, .park ⟨1⟩, .endSegment ⟨1⟩ () .park, .spawn () none], [],
      [], [], [.cancel ⟨1⟩, .cancel ⟨2⟩], rfl, rfl, fun k hk => ?_⟩
    have hlive : k ∈ [(⟨1⟩ : StrandId), ⟨2⟩] := hk
    simp only [List.mem_cons, List.not_mem_nil, or_false] at hlive
    rcases hlive with rfl | rfl <;> simp
  obtain ⟨hstopped, -, hstatus⟩ := stopped_for_good single_initial ha hdown
  exact ⟨hstopped, hstatus⟩

end Scheduler
end CoopSched
