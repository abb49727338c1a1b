import CoopSched.Proofs.Peak.Shown

/-!
# What a move does to the live list and to the peak

Whatever move it is, the longest live list that the counter is shown in it is known from the live
list before the move, the one after it, and how many strands were created (`shown`). If the move did
nothing but create strands, that is the live list that it leaves. If anybody was refused in it or
ended, the counter was shown one strand more than there are before the move or after it.

With what the move writes down that is a `LiveChange`. Every move makes one (`Stable.liveChange`): a
strand finishes or is cut off before its job launches anybody, and everything else either only
creates strands or, when the workers are gone, only ends them.
-/

namespace CoopSched
namespace Scheduler

variable {V B : Type} {drained : Bool} {s s₀ s₁ s' : Scheduler V B} {m : Move V B} {id : StrandId}
  {st : Strand V B} {recs pre post : List (Record V)}

/-- The length of the longest live list that the counter is shown in a move that creates so many
    strands. -/
def shown (s s' : Scheduler V B) (created : Nat) : Nat :=
  if created = 0 then 0
  else if s'.live.length = s.live.length + created then s'.live.length
  else max s.live.length s'.live.length + 1

/-- Nobody comes in the first part of a move to stay, and nobody goes in the second. The peak is as
    high as the live lists that were shown. When the workers are gone the peak may be lower, and
    then the live list does not become longer. -/
structure LiveChange (s s' : Scheduler V B) (pre post : List (Record V)) : Prop where
  tells : Tells s s' (pre ++ post)
  pre_refused : ∀ k ∈ bornIn pre, k ∈ refusedIn pre
  stay : goneIn post = []
  refused : ∀ k ∈ refusedIn (pre ++ post), k ∈ bornIn (pre ++ post)
  mono : s.counters.peakLive ≤ s'.counters.peakLive
  peak : s'.counters.peakLive ≤
    max s.counters.peakLive (shown s s' (bornIn (pre ++ post)).length)
  reached : s.terminated = false →
    shown s s' (bornIn (pre ++ post)).length ≤ s'.counters.peakLive
  fewer : s.terminated = true → s'.live.length ≤ s.live.length

/-! ## Parts of moves -/

theorem LiveChange.of_quiet (hlive : s'.live = s.live)
    (hpeak : s'.counters.peakLive = s.counters.peakLive) (htells : Tells s s' recs)
    (hquiet : ∀ rec ∈ recs, rec.isMilestone = false) : LiveChange s s' [] recs := by
  obtain ⟨hborn, hrefused, hgone⟩ := NoMilestone.of_all hquiet
  have hnobody : shown s s' (bornIn ([] ++ recs)).length = 0 := by
    rw [List.nil_append, hborn]
    rfl
  exact
    { tells := htells
      pre_refused := fun k hk => absurd hk List.not_mem_nil
      stay := hgone
      refused := fun k hk => by
        rw [List.nil_append, hrefused] at hk
        exact absurd hk List.not_mem_nil
      mono := hpeak.ge
      peak := hpeak.le.trans (le_max_left _ _)
      reached := fun _ => hnobody ▸ Nat.zero_le _
      fewer := fun _ => le_of_eq (congrArg _ hlive) }

theorem LiveChange.still (hlive : s'.live = s.live) (hcounters : s'.counters = s.counters)
    (hjournal : s'.journal = s.journal) : ∃ pre post, LiveChange s s' pre post :=
  ⟨[], [], .of_quiet hlive (congrArg _ hcounters) (.of_journal hjournal)
    fun _ hrec => absurd hrec List.not_mem_nil⟩

theorem LiveKept.liveChange (h : LiveKept s s') : ∃ pre post, LiveChange s s' pre post := by
  obtain ⟨recs, htells, hquiet⟩ := h.told
  exact ⟨[], recs, .of_quiet h.live h.peak htells hquiet⟩

/-- What is not seen in the live list, in the peak and in the journal can come after. -/
theorem LiveChange.same (h : LiveChange s s₁ pre post) (hlive : s'.live = s₁.live)
    (hcounters : s'.counters = s₁.counters) (hjournal : s'.journal = s₁.journal) :
    LiveChange s s' pre post := by
  have hshown : ∀ n, shown s s' n = shown s s₁ n := fun n => by rw [shown, shown, hlive]
  obtain ⟨htells, hpre, hstay, hrefused, hmono, hpeak, hreached, hfewer⟩ := h
  refine ⟨?_, hpre, hstay, hrefused, ?_, ?_, ?_, ?_⟩
  · rw [Tells, hjournal]
    exact htells
  all_goals simp only [hshown, hlive, hcounters]
  · exact hmono
  · exact hpeak
  · exact hreached
  · exact hfewer

/-- When the workers are gone the queue is closed, so no strand that is created then is admitted. -/
theorem Asked.liveChange {admitted : Bool} (h : Asked s s' id admitted)
    (hshut : s.terminated = true → admitted = false) : ∃ pre post, LiveChange s s' pre post := by
  have hlen : s'.live.length = s.live.length + if admitted then 1 else 0 := by
    rw [h.live]
    split
    · exact List.length_append
    · rfl
  have hshown : shown s s' 1 = s.live.length + 1 := by
    rw [shown, hlen]
    split_ifs <;> omega
  have hborn : bornIn ([] ++ creation (V := V) id admitted) = [id] := bornIn_creation id admitted
  exact ⟨[], creation id admitted,
    { tells := h.tells
      pre_refused := fun k hk => absurd hk List.not_mem_nil
      stay := goneIn_creation id admitted
      refused := fun k hk => by
        rw [List.nil_append, refusedIn_creation] at hk
        rw [hborn]
        split at hk
        · exact absurd hk List.not_mem_nil
        · exact hk
      mono := h.peak ▸ le_max_left _ _
      peak := by
        rw [hborn, List.length_singleton, hshown, h.peak]
      reached := fun _ => by
        rw [hborn, List.length_singleton, hshown, h.peak]
        exact le_max_right _ _
      fewer := fun gone => by
        rw [hlen, hshut gone]
        exact le_rfl }⟩

theorem NoneGone.liveChange (h : NoneGone s s' recs) (alive : s.terminated = false) :
    LiveChange s s' [] recs := by
  have hlen := h.length_live
  have hpeak := h.peak_eq
  have hshown : s'.counters.peakLive =
      max s.counters.peakLive (shown s s' (bornIn recs).length) := by
    rw [hpeak, shown]
    split_ifs at hlen ⊢ <;> omega
  exact
    { tells := h.tells
      pre_refused := fun k hk => absurd hk List.not_mem_nil
      stay := h.stay
      refused := h.refused
      mono := hshown ▸ le_max_left _ _
      peak := hshown.le
      reached := fun _ => hshown ▸ le_max_right _ _
      fewer := fun gone => Bool.noConfusion (alive.symm.trans gone) }

theorem NoneAdmitted.liveChange (h : NoneAdmitted s s' recs) (gone : s.terminated = true) :
    LiveChange s s' recs [] := by
  have hpeak : s'.counters.peakLive ≤
      max s.counters.peakLive (shown s s' (bornIn (recs ++ [])).length) := by
    have hpeak := h.peak
    have hlive := h.live
    simp only [← List.length_eq_zero_iff] at hpeak
    rw [List.append_nil, shown]
    split_ifs at hpeak ⊢ <;> omega
  exact
    { tells := (List.append_nil recs).symm ▸ h.tells
      pre_refused := fun k hk => (h.refused k).mpr hk
      stay := rfl
      refused := by
        rw [List.append_nil]
        exact fun k hk => (h.refused k).mp hk
      mono := h.mono
      peak := hpeak
      reached := fun alive => Bool.noConfusion (alive.symm.trans gone)
      fewer := fun _ => h.live }

/-- A strand ends, and is on the live list still when others are launched. -/
theorem NoneGone.ended (h : NoneGone s₀ s₁ post) (hrests : Rests s s₀) (htells : Tells s s₀ pre)
    (hborn : bornIn pre = []) (hrefused : refusedIn pre = []) (alive : s.terminated = false)
    (hid : id ∈ s.live) (hlive : s'.live = s₁.live.erase id) (hpeak : s'.counters = s₁.counters)
    (hjournal : s'.journal = s₁.journal) : LiveChange s s' pre post := by
  have hlen : s'.live.length + 1 = s₁.live.length := by
    have hmem : id ∈ s₁.live := by
      rw [h.live, hrests.live]
      exact List.mem_append_left _ hid
    rw [hlive, List.length_erase_of_mem hmem, Nat.sub_add_cancel (List.length_pos_of_mem hmem)]
  have hborn' : bornIn (pre ++ post) = bornIn post := by rw [bornIn_append, hborn]; rfl
  have hshown : s'.counters.peakLive =
      max s.counters.peakLive (shown s s' (bornIn (pre ++ post)).length) := by
    have hlen' := h.length_live
    rw [hborn', hpeak, h.peak_eq, shown, ← hrests.peak, ← hrests.live]
    split_ifs at hlen' ⊢ <;> omega
  exact
    { tells := htells.trans <| by
        rw [Tells, hjournal]
        exact h.tells
      pre_refused := fun k hk => by
        rw [hborn] at hk
        exact absurd hk List.not_mem_nil
      stay := h.stay
      refused := fun k hk => by
        rw [refusedIn_append, hrefused] at hk
        rw [hborn']
        exact h.refused k hk
      mono := hshown ▸ le_max_left _ _
      peak := hshown.le
      reached := fun _ => hshown ▸ le_max_right _ _
      fewer := fun gone => Bool.noConfusion (alive.symm.trans gone) }

/-! ## Moves -/

/-- When the workers are gone the queue admits nobody. -/
theorem Stable.shut (h : Stable (fun _ _ => True) drained s) (gone : s.terminated = true)
    (limit : Option Nat) : s.queue.admits limit = false := by
  obtain ⟨n, hn⟩ := h.sound
  unfold ReadyQueue.admits
  rw [(hn.closed gone).1]
  rfl

/-- Whatever is set off, with workers and without. -/
theorem Stable.set_off (h : Stable (fun _ _ => True) drained s) (hl : LiveKept s s₁)
    (hoff : ∀ P : Scheduler V B → Prop, Bears (fun _ => False) (fun _ => True) P →
      Absorbs P Scheduler.cancel → P s₁ → P s') : ∃ pre post, LiveChange s s' pre post := by
  cases gone : s.terminated with
  | false =>
    obtain ⟨recs, hnoneGone⟩ :=
      hoff _ (bears_noneGone s) (absorbs_noneGone gone _) ((NoneGone.refl s).liveKept hl)
    exact ⟨_, _, hnoneGone.liveChange gone⟩
  | true =>
    have hg := guards_noneAdmitted s
    obtain ⟨recs, hnoneAdmitted⟩ :=
      hoff _ hg.bears hg.cancel.absorbs ((NoneAdmitted.refl gone (h.shut gone none)).liveKept hl)
    exact ⟨_, _, hnoneAdmitted.liveChange gone⟩

theorem Stable.liveChange_spawn (h : Stable (fun _ _ => True) drained s) (r : SpawnRequest B) :
    ∃ pre post, LiveChange s (s.spawn r).1 pre post := by
  rcases spawn_asked s r with ⟨-, heq⟩ | hasked
  · rw [heq]
    exact (LiveKept.refl s).liveChange
  · exact hasked.liveChange fun gone => h.shut gone _

/-- The parent that expects a child is not seen in the live list. -/
theorem Stable.liveChange_spawnChild (h : Stable (fun _ _ => True) drained s) (parent : StrandId)
    (body : B) : ∃ pre post, LiveChange s (s.spawnChild parent body).1 pre post := by
  have hspawn : ∃ pre post, LiveChange s ((s.updateStrand parent fun st =>
      { st with children := st.children.add }).spawn
        { body := body, admission := .internal, parent := some parent }).1 pre post := by
    rcases spawn_asked (s.updateStrand parent fun st => { st with children := st.children.add })
      { body := body, admission := .internal, parent := some parent } with ⟨hexternal, -⟩ | hasked
    · cases hexternal
    · obtain ⟨htells, hlive, hpeak, hterm, hadmits⟩ := hasked
      exact Asked.liveChange ⟨htells, hlive, hpeak, hterm, hadmits⟩ fun gone => h.shut gone _
  obtain ⟨pre, post, hspawn⟩ := hspawn
  unfold Scheduler.spawnChild
  dsimp only
  split
  next heq =>
    rw [heq] at hspawn
    exact ⟨pre, post, hspawn⟩
  next heq =>
    rw [heq] at hspawn
    exact ⟨pre, post, hspawn.same rfl rfl rfl⟩

theorem noneGone_handOver (alive : s.terminated = false) (id : StrandId) (st : Strand V B)
    (outcome : Outcome V) : ∃ recs, NoneGone s (s.handOver id st outcome).1 recs := by
  have hb := bears_noneGone s
  have hn := absorbs_noneGone alive cancel
  unfold handOver
  cases st.hook with
  | some hook => exact hb.resolveWith hn ⟨_, .refl s⟩ not_false outcome
  | none =>
    dsimp only
    split
    next parent ps hp =>
      have hsettled : ∃ recs, NoneGone s (s.updateStrand parent fun ps' =>
          { ps' with children := (ps.children.settle id outcome).1 }) recs :=
        (NoneGone.refl s).liveKept (.of_journal ⟨rfl, rfl, rfl, rfl⟩ rfl)
      split
      · exact hb.deliverFired hn hsettled fun _ _ => trivial
      · obtain ⟨recs, hsettled⟩ := hsettled
        exact hsettled.liveKept (.report _ id _)
    · exact (NoneGone.refl s).liveKept (.report s id outcome)

/-- A strand that finishes ends before its outcome is handed over. -/
theorem liveChange_finish (hst : s.strand? id = some st) (hrun : st.status.isRunning = true)
    (hid : id ∈ s.live) (alive : s.terminated = false) (outcome : Outcome V) :
    ∃ pre post, LiveChange s (s.finish id outcome) pre post := by
  obtain ⟨notified, hs⟩ := Status.exists_of_running hrun
  have hrests := rests_markFinished s id outcome.isOk
  obtain ⟨pre, htells, hborn, hrefused⟩ := markFinished_departs s id outcome.isOk
  obtain ⟨post, hnoneGone⟩ := noneGone_handOver (hrests.terminated.trans alive) id st outcome
  rw [finish_running hst hs]
  exact ⟨pre, post, hnoneGone.ended hrests htells hborn hrefused alive hid rfl rfl rfl⟩

/-- And so does a strand that is cut off. -/
theorem liveChange_cancel (hst : s.strand? id = some st) (hend : st.status.isTerminal = false)
    (hid : id ∈ s.live) (alive : s.terminated = false) (reason : Failure) :
    ∃ pre post, LiveChange s (s.cancel id reason).1 pre post := by
  have hrests := rests_cut s id st.bridge
  obtain ⟨pre, htells, hborn, hrefused⟩ := cut_departs s id st.bridge
  obtain ⟨levels, hlevels⟩ := Nat.exists_eq_succ_of_ne_zero (List.length_pos_of_mem hid).ne'
  have hcancel : s.cancel id reason = cancelStep (cancelWithin levels) s id reason := by
    rw [cancel, hlevels]
    rfl
  rw [hcancel, cancelStep_cut hst hend]
  cases st.hook with
  | none =>
    exact ⟨pre, [], (NoneGone.refl _).ended hrests htells hborn hrefused alive hid rfl rfl rfl⟩
  | some hook =>
    have hresolved : ∃ post, NoneGone (s.cut id st.bridge)
        ((s.cut id st.bridge).resolveWith (cancelWithin levels) hook (.err reason)) post :=
      (bears_noneGone _).resolveWith (absorbs_noneGone (hrests.terminated.trans alive) _)
        ⟨_, .refl _⟩ not_false _
    obtain ⟨post, hnoneGone⟩ := hresolved
    exact ⟨pre, post, hnoneGone.ended hrests htells hborn hrefused alive hid rfl rfl rfl⟩

/-- A strand that waits for its children may be waiting in vain. -/
theorem Stable.liveChange_blockOnChildren (h : Stable (fun _ _ => True) drained s)
    (hl : LiveKept s s₁) (id : StrandId) (mode : WaitMode) :
    ∃ pre post, LiveChange s (s₁.blockOnChildren id mode) pre post := by
  have hissue : LiveKept s₁ (s₁.issueBridge id).1 := .of_journal ⟨rfl, rfl, rfl, rfl⟩ rfl
  have hblock := (hl.trans hissue).trans (.block _ id)
  unfold Scheduler.blockOnChildren
  dsimp only
  split
  · exact hblock.liveChange
  next st hst =>
    have harmed : LiveKept ((s₁.issueBridge id).1.block id)
        (((s₁.issueBridge id).1.block id).updateStrand id fun st' =>
          { st' with children := (st.children.arm mode (s₁.issueBridge id).2).1 }) :=
      .of_journal ⟨rfl, rfl, rfl, rfl⟩ rfl
    exact h.set_off (hblock.trans harmed) fun P hb hn hp => hb.deliverFired hn hp fun _ _ => trivial

theorem Stable.liveChange_follow (h : Stable (fun _ _ => True) drained s)
    (hst : s.strand? id = some st) (hrun : st.status.isRunning = true) (hid : id ∈ s.live)
    (alive : s.terminated = false) (body : B) (step : Step V) :
    ∃ pre post, LiveChange s (s.follow id body step) pre post := by
  have hkeep : LiveKept s (s.keepBody id body) := .of_journal ⟨rfl, rfl, rfl, rfl⟩ rfl
  have hfinish := liveChange_finish hst hrun hid alive
  unfold Scheduler.follow
  dsimp only
  cases step with
  | done outcome => exact hfinish outcome
  | yield =>
    dsimp only
    split
    · exact (hkeep.trans (.block _ id)).liveChange
    · obtain ⟨notified, hs⟩ := Status.exists_of_running hrun
      have hrow := (keepBody_strand? hst body id).trans (if_pos rfl)
      have hrequeue : LiveKept (s.keepBody id body) ((s.keepBody id body).requeue id) := by
        rw [requeue_running hrow hs]
        exact .of_journal ⟨rfl, rfl, rfl, rfl⟩ rfl
      exact (hkeep.trans hrequeue).liveChange
  | park =>
    dsimp only
    split
    · exact (hkeep.trans (.block _ id)).liveChange
    · exact hfinish _
  | await mode =>
    dsimp only
    split
    · exact hfinish _
    · exact h.liveChange_blockOnChildren hkeep id mode

theorem Stable.liveChange_endSegment (h : Stable (fun _ _ => True) drained s) (hheld : id ∈ s.held)
    (body : B) (step : Step V) : ∃ pre post, LiveChange s (s.endSegment id body step) pre post := by
  obtain ⟨st, hst, hrun⟩ := (h.placed.busy_iff id).mp hheld
  have alive := h.placed.alive hst hrun
  have hend := Status.not_terminal_of_running hrun
  obtain ⟨n, hn⟩ := h.sound
  have hid := hn.listed id st hst hend
  unfold Scheduler.endSegment
  split
  · obtain ⟨pre, post, hcut⟩ := liveChange_cancel hst hend hid alive shutDownReason
    exact ⟨pre, post, hcut.same rfl rfl rfl⟩
  · obtain ⟨pre, post, hfollow⟩ := h.liveChange_follow hst hrun hid alive body step
    exact ⟨pre, post, hfollow.same rfl rfl rfl⟩

theorem Stable.liveChange_expireTimer (h : Stable (fun _ _ => True) drained s) (t : TimerId) :
    ∃ pre post, LiveChange s (s.expireTimer t) pre post := by
  unfold Scheduler.expireTimer
  split
  · exact (LiveKept.refl s).liveChange
  next timer ht =>
    have hexpired : LiveKept s
        { s with timers := s.timers.update t.number fun _ => timer.expire.1 } :=
      .of_journal ⟨rfl, rfl, rfl, rfl⟩ rfl
    dsimp only
    split
    · exact hexpired.liveChange
    · exact h.set_off hexpired fun P hb hn hp => hb.tryComplete hn hp trivial _

/-- When the workers are gone, a cancellation ends everybody whom it reaches. -/
theorem Stable.liveChange_cleanUp (h : Stable (fun _ _ => True) drained s)
    (gone : s.terminated = true) (id : StrandId) :
    ∃ pre post, LiveChange s (s.cancel id s.cleanUpReason).1 pre post := by
  have hover : s.isShutDown = true := by rw [isShutDown, gone, Bool.or_true]
  have hkind : s.cleanUpReason.kind = .cancelled := by
    unfold cleanUpReason
    split <;> rfl
  obtain ⟨recs, hnoneAdmitted⟩ := (guards_noneAdmitted s).cancel s id s.cleanUpReason
    ⟨_, .refl gone (h.shut gone none)⟩ hover hkind
  exact ⟨_, _, hnoneAdmitted.liveChange gone⟩

/-- **Every move changes the live list and the peak so.** -/
theorem Stable.liveChange (h : Stable (fun _ _ => True) drained s) (ha : s.Allows m) :
    ∃ pre post, LiveChange s (s.after m) pre post := by
  have hrefl := LiveKept.refl s
  cases m with
  | spawn body name => exact h.liveChange_spawn _
  | park id =>
    show ∃ pre post, LiveChange s (s.park id).1 pre post
    rcases park_cases s id with ⟨e, heq⟩ | ⟨st, hst, hrun, hslot, heq⟩ <;> rw [heq]
    · exact hrefl.liveChange
    · exact LiveChange.still rfl rfl rfl
  | complete b r => exact h.set_off hrefl fun P hb hn hp => hb.deliver hn hp trivial _
  | tryComplete b r => exact h.set_off hrefl fun P hb hn hp => hb.tryComplete hn hp trivial r
  | deliver b payload => exact h.set_off hrefl fun P hb hn hp => hb.deliver hn hp trivial payload
  | invoke inputs callable concurrency callback =>
    exact h.set_off hrefl fun P hb hn hp =>
      hb.invoke hn hp not_false inputs callable concurrency fun _ _ _ _ => trivial
  | createJob length callback =>
    exact h.set_off hrefl fun P hb hn hp =>
      hb.addJob hn hp not_false length none fun _ _ _ _ => trivial
  | submit j index r =>
    exact h.set_off hrefl fun P hb hn hp => hb.submitWith hn hp not_false index r
  | claim j => exact h.set_off hrefl fun P hb _ hp => hb.claim hp not_false
  | armTimer b d now =>
    obtain ⟨timers, heq⟩ := after_armTimer s b d now
    rw [heq]
    exact LiveChange.still rfl rfl rfl
  | disarmTimer t => exact LiveChange.still rfl rfl rfl
  | detachTimer t => exact LiveChange.still rfl rfl rfl
  | pollTimer t =>
    obtain ⟨timers, heq⟩ := after_pollTimer s t
    rw [heq]
    exact LiveChange.still rfl rfl rfl
  | expireTimer t => exact h.liveChange_expireTimer t
  | join id =>
    show ∃ pre post, LiveChange s (((s.join id).map (·.1)).getD s) pre post
    rcases join_cases s id with heq | ⟨outcome, heq⟩ <;> rw [heq]
    · exact hrefl.liveChange
    · exact LiveChange.still rfl rfl rfl
  | drainChannel =>
    show ∃ pre post, LiveChange s ((s.drainChannel.map (·.1)).getD s) pre post
    unfold Scheduler.drainChannel
    cases s.channel with
    | none => exact hrefl.liveChange
    | some c => exact LiveChange.still rfl rfl rfl
  | spawnDetached id body => exact h.liveChange_spawn _
  | spawnChild id body => exact h.liveChange_spawnChild id body
  | invokeParked id inputs callable concurrency =>
    show ∃ pre post, LiveChange s (s.invokeParked id inputs callable concurrency).1 pre post
    rcases invokeParked_cases s id inputs callable concurrency with
      ⟨-, heq⟩ | ⟨st, hst, hrun, hslot, hpark, heq⟩ <;> rw [heq]
    · exact hrefl.liveChange
    · have hissue : LiveKept s (s.issueBridge id).1 := .of_journal ⟨rfl, rfl, rfl, rfl⟩ rfl
      exact h.set_off hissue fun P hb hn hp =>
        hb.drive hn hp not_false inputs callable concurrency fun _ _ _ _ => trivial
  | dispatch =>
    exact (LiveKept.of_hushed (rests_dispatch h.placed) (hushed_dispatch h.placed)).liveChange
  | endSegment id body step => exact h.liveChange_endSegment ha body step
  | beginShutdown mode =>
    show ∃ pre post, LiveChange s ((s.beginShutdown mode).getD s) pre post
    unfold Scheduler.beginShutdown
    cases s.phase.enter? mode.phase with
    | none => exact hrefl.liveChange
    | some phase => exact LiveChange.still rfl rfl rfl
  | closeQueue => exact LiveChange.still rfl rfl rfl
  | terminate => exact LiveChange.still rfl rfl rfl
  | drain => exact LiveChange.still rfl rfl rfl
  | cancel id => exact h.liveChange_cleanUp ha.1 id

end Scheduler
end CoopSched
