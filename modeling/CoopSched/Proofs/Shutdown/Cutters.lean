import CoopSched.Proofs.Journal.Tally
import CoopSched.Proofs.Shutdown.Cutting

/-!
# Cutters — how a strand comes to be cancelled

A strand is cancelled in one of three ways (`Cutter`): by the clean-up at the end of a shutdown, by
its own worker, or by a completion that comes when the workers are gone. A strand is cancelled once,
and so in one way (`Initial.cutBy_unique`). So the number of strands that were cancelled, which is
what the counter says, is the sum of three numbers (`Initial.cancelled_eq_sum`).

As long as there are workers, nobody ends but the strand whose segment the move ends
(`Stable.ended_alive`).
-/

namespace CoopSched

variable {V B : Type}

/-- A strand that the record says was cancelled went through that. -/
theorem Record.lived?_cancelled {k : StrandId} {rec : Record V} :
    rec.lived? k = some .cancelled ↔ rec = .event ⟨k, .cancelled⟩ := by
  match rec with
  | .answered .. => simp [lived?, about?]
  | .event ⟨id, h⟩ =>
    by_cases hid : id = k
    · subst hid
      cases h <;> simp [lived?, about?, Happening.isReport]
    · simp [lived?, about?, hid]

theorem Stage.isEnd_cases {stage : Stage} (h : stage.isEnd = true) :
    stage.isCancelled = true ∨ ∃ ok, stage = .finished ok := by
  cases stage <;> first | exact Or.inl rfl | exact Or.inr ⟨_, rfl⟩ | cases h

namespace Scheduler

variable {Ok : BridgeId → Wakeup V → Prop} {drained : Bool} {s s₁ : Scheduler V B} {m : Move V B}
  {ms : List (Move V B)} {k : StrandId} {st₁ : Strand V B} {stage : Stage}

/-! ## As long as there are workers -/

theorem Stable.held_expireTimer (h : Stable Ok drained s) (t : TimerId) :
    (s.expireTimer t).held = s.held := by
  unfold Scheduler.expireTimer
  split
  · rfl
  next timer ht =>
    have hupdate := h.updateTimer t (f := fun _ => timer.expire.1) fun timer' ht' => by
      rw [← Option.some.inj (ht.symm.trans ht')]
      exact timer.expire_bridge
    obtain ⟨n, hn⟩ := hupdate.sound
    dsimp only
    split
    · rfl
    next e he => exact (changes_tryComplete hn (h.timers t timer ht (.err e))).steady.held

theorem Placed.held_dispatch {busy : List StrandId} (h : Placed busy s) (hk : k ∈ s.held) :
    k ∈ s.dispatch.1.held := by
  have hdispatched := h.dispatched
  generalize s.dispatch.1 = s', s.dispatch.2 = seg at hdispatched ⊢
  cases hdispatched with
  | idle => exact hk
  | plain => exact List.mem_append_left _ hk
  | resumed => exact List.mem_append_left _ hk

/-- The end of a segment takes its strand off its worker, and nobody else. -/
theorem Stable.held_endSegment (h : Stable Ok drained s) {id : StrandId} {body : B} {step : Step V}
    (hid : id ∈ s.held) (hr : Respects Ok s (.endSegment id body step)) :
    (s.endSegment id body step).held = s.held.erase id := by
  obtain ⟨st, hst, hrun⟩ := (h.placed.busy_iff id).mp hid
  have hrelease : ∀ {busy : List StrandId} {s' : Scheduler V B}, Mid Ok busy s s' →
      (s'.release id).held = s.held.erase id := fun hmid => congrArg (·.erase id) hmid.steady.held
  unfold Scheduler.endSegment
  split
  · exact hrelease (h.mid.cancel (h.placed.running_not_waiting hst hrun) _)
  next hnot =>
    exact hrelease (h.mid.follow hst hrun body (hr.follows (Bool.eq_false_of_not_eq_true hnot)))

/-- **Whoever is on a worker stays there until his segment ends.** -/
theorem Stable.held_stays (h : Stable Ok drained s) (ha : s.Allows m) (hr : Respects Ok s m)
    (hk : k ∈ s.held) (hm : ∀ body step, m ≠ .endSegment k body step) : k ∈ (s.after m).held := by
  obtain ⟨n, hn⟩ := h.sound
  have hsteady : ∀ {s' : Scheduler V B}, Steady s s' → k ∈ s'.held := fun hst => hst.held ▸ hk
  cases m with
  | spawn body name => exact hsteady (.spawn s _)
  | park id => exact hsteady (h.mid.park id).steady
  | complete b r => exact hsteady (changes_deliver hn (hr.targets b _ ⟨rfl, rfl⟩)).steady
  | tryComplete b r => exact hsteady (changes_tryComplete hn (hr.targets b _ ⟨rfl, rfl⟩)).steady
  | deliver b payload => exact hsteady (changes_deliver hn (hr.targets b _ ⟨rfl, rfl⟩)).steady
  | invoke inputs callable concurrency callback =>
    exact hsteady (changes_invoke hn inputs callable concurrency callback
      fun answer b w hmem => hr.targets b w ⟨answer, hmem⟩).steady
  | createJob length callback =>
    exact hsteady (changes_addJob hn length callback none
      fun answer b w hmem => hr.targets b w ⟨answer, hmem⟩).steady
  | submit j index r => exact hsteady (changes_submitWith cancels_cancel hn j index r).steady
  | claim j => exact hsteady (show Changes Ok s _ from changes_claim s j).steady
  | armTimer b d now =>
    obtain ⟨timers, heq⟩ := after_armTimer s b d now
    rw [heq]
    exact hk
  | pollTimer t =>
    obtain ⟨timers, heq⟩ := after_pollTimer s t
    rw [heq]
    exact hk
  | expireTimer t => exact h.held_expireTimer t ▸ hk
  | join id =>
    show k ∈ (((s.join id).map (·.1)).getD s).held
    rcases join_cases s id with heq | ⟨outcome, heq⟩ <;> rw [heq] <;> exact hk
  | drainChannel =>
    show k ∈ ((s.drainChannel.map (·.1)).getD s).held
    unfold Scheduler.drainChannel
    cases s.channel <;> exact hk
  | spawnDetached id body => exact hsteady (.spawn s _)
  | spawnChild id body =>
    exact hsteady (show Changes Ok s _ from changes_spawnChild s id body).steady
  | invokeParked id inputs callable concurrency =>
    refine hsteady (h.mid.invokeParked id inputs callable concurrency ?_).steady
    intro b hb answer
    refine hr.issued id .invocation b ?_ (by decide) _ trivial
    simp only [Scheduler.issued, hb]
  | dispatch => exact h.placed.held_dispatch hk
  | endSegment id body step =>
    have hne : k ≠ id := fun heq => hm body step (by rw [heq])
    show k ∈ (s.endSegment id body step).held
    rw [h.held_endSegment ha hr]
    exact (List.mem_erase_of_ne hne).mpr hk
  | beginShutdown mode =>
    show k ∈ ((s.beginShutdown mode).getD s).held
    unfold Scheduler.beginShutdown
    cases s.phase.enter? mode.phase <;> exact hk
  | cancel id =>
    rw [h.placed.gone ha.1] at hk
    cases hk
  | _ => exact hk

/-- To be woken ends nobody. -/
theorem Later.terminal {st st' : Strand V B} (h : Later st st') :
    st'.status.isTerminal = st.status.isTerminal := by
  rcases h.status with hs | hs
  · rw [hs]
  · rw [hs]
    exact st.woken_terminal

/-- The strand that ends in the turn of a move had ended before, or it was on a worker. -/
theorem Turn.ended_before (h : Turn s m s₁) (alive : s.terminated = false)
    (hst₁ : s₁.strand? k = some st₁) (hend : st₁.status.isTerminal = true) :
    ∃ st, s.strand? k = some st ∧ (st.status.isTerminal = true ∨ st.status.isRunning = true) := by
  have hown : ∀ {id : StrandId} {old new : Strand V B}, Own s s₁ id old new →
      (new.status.isTerminal = true → old.status.isRunning = true) →
      ∃ st, s.strand? k = some st ∧ (st.status.isTerminal = true ∨ st.status.isRunning = true) := by
    intro id old new hown hnew
    have hrow := hown.rows k
    rw [hst₁] at hrow
    split at hrow
    next hk =>
      subst hk
      exact ⟨old, hown.row, Or.inr (hnew (Option.some.inj hrow ▸ hend))⟩
    next => exact ⟨st₁, hrow.symm, Or.inl hend⟩
  cases h with
  | quiet _ _ _ hstill => exact ⟨st₁, (hstill.strands k).symm.trans hst₁, Or.inl hend⟩
  | issue _ _ _ hrun _ hown' => exact hown hown' fun _ => hrun
  | begun _ _ _ hown' => exact hown hown' fun h => by cases h
  | resumed _ _ _ _ hown' => exact hown hown' fun h => by cases h
  | ended _ _ _ hown' _ _ _ hwhere =>
    refine hown hown' fun _ => hwhere.resolve_right fun gone => ?_
    cases alive.symm.trans gone.1
  | requeued hrun _ hown' => exact hown hown' fun _ => hrun
  | parked _ hrun _ hown' => exact hown hown' fun _ => hrun
  | awaiting hrun _ _ hown' => exact hown hown' fun _ => hrun

/-- **As long as there are workers, nobody ends but the strand whose segment the move ends.** -/
theorem Stable.ended_alive (hs : Stable Ok drained s) (ha : s.Allows m) (hr : Respects Ok s m)
    (alive : s.terminated = false) (hlive : ¬ s.HasEnded k) (hended : (s.after m).HasEnded k) :
    ∃ body step, m = .endSegment k body step := by
  obtain ⟨st', hst', hend'⟩ := hended
  obtain ⟨s₁, hturn, hrows⟩ := (hs.apart ha hr).rows alive
  obtain ⟨st₁, hst₁, hend₁⟩ : ∃ st₁, s₁.strand? k = some st₁ ∧ st₁.status.isTerminal = true := by
    cases hst₁ : s₁.strand? k with
    | none =>
      rw [(hrows.new k st' hst₁ hst').status] at hend'
      cases hend'
    | some st₁ =>
      obtain ⟨st'', hst'', hlater⟩ := hrows.old k st₁ hst₁
      obtain rfl := Option.some.inj (hst''.symm.trans hst')
      exact ⟨st₁, rfl, hlater.terminal.symm.trans hend'⟩
  obtain ⟨st, hst, hend | hrun⟩ := hturn.ended_before alive hst₁ hend₁
  · exact absurd ⟨st, hst, hend⟩ hlive
  -- It ran, so it would still be on its worker.
  by_contra hno
  have hheld := hs.held_stays ha hr ((hs.placed.busy_iff k).mpr ⟨st, hst, hrun⟩)
    fun body step heq => hno ⟨body, step, heq⟩
  obtain ⟨st'', hst'', hrun''⟩ := ((hs.after ha hr).placed.busy_iff k).mp hheld
  obtain rfl := Option.some.inj (hst''.symm.trans hst')
  cases hend'.symm.trans (Status.not_terminal_of_running hrun'')

/-! ## Whom a shutdown has cancelled -/

theorem Living.wasCut_iff (hl : Living s k stage) : s.WasCut k ↔ stage.isCancelled = true := by
  have hlife : s.WasCut k ↔ .cancelled ∈ s.life k := by
    rw [WasCut, life, List.mem_filterMap]
    simp [Record.lived?_cancelled]
  have hcount : .cancelled ∈ s.life k ↔ 0 < (s.life k).countP (·.counter? == some .cancelled) := by
    rw [List.countP_pos_iff]
    refine ⟨fun hmem => ⟨_, hmem, rfl⟩, ?_⟩
    rintro ⟨a, hmem, ha⟩
    cases a <;> first | exact hmem | cases ha | (next ok => cases ok <;> cases ha)
  rw [hlife, hcount, Stage.cancelled_balance hl.told]
  cases stage.isCancelled <;> simp

theorem Living.hasEnded_iff (hl : Living s k stage) : s.HasEnded k ↔ stage.isEnd = true := by
  rw [hl.fits.isEnd_iff]
  constructor
  · rintro ⟨st, hst, hend⟩
    exact ⟨_, status?_eq hst, hend⟩
  · rintro ⟨status, hstatus, hend⟩
    obtain ⟨st, hst, rfl⟩ := status?_eq_some hstatus
    exact ⟨st, hst, hend⟩

/-- Who was told to have finished has finished with some outcome. -/
theorem Initial.endedIn_of_finished {ok : Bool} (hs : Initial s) (ha : s.Admissible ms)
    (hl : Living (s.run ms) k (.finished ok)) : ∃ r, EndedIn s ms k r := by
  induction ms using List.reverseRecOn with
  | nil =>
    have hfits := hl.fits
    rw [run_nil, status?, strand?, hs.empty.1, get?_empty] at hfits
    cases hfits
  | append_singleton ms m ih =>
    obtain ⟨hbefore, hm, -⟩ := admissible_append.mp ha
    obtain ⟨stage, hl₀⟩ := hs.living_run hbefore k
    rw [run_snoc] at hl
    rcases ((hs.stable_run hbefore).goes hm hl₀ hl).finishes ok rfl with rfl | hthrough
    · obtain ⟨r, hr⟩ := ih hbefore hl₀
      exact ⟨r, endedIn_snoc.mpr (Or.inl hr)⟩
    · obtain ⟨⟨id, r⟩, hfin, rfl⟩ := Option.map_eq_some_iff.mp (beq_iff_eq.mp hthrough)
      exact ⟨r, endedIn_snoc.mpr (Or.inr hfin)⟩

/-- Whoever ended without finishing was cancelled. -/
theorem Initial.wasCut_of_unfinished (hs : Initial s) (ha : s.Admissible ms)
    (hended : (s.run ms).HasEnded k) (hnot : ∀ r, ¬ EndedIn s ms k r) : (s.run ms).WasCut k := by
  have hl := hs.living_stageOf ha k
  rcases Stage.isEnd_cases (hl.hasEnded_iff.mp hended) with hcut | ⟨ok, hfinished⟩
  · exact hl.wasCut_iff.mpr hcut
  · rw [hfinished] at hl
    obtain ⟨r, hr⟩ := hs.endedIn_of_finished ha hl
    exact absurd hr (hnot r)

/-- **Who was cancelled failed without having finished**, and the other way round. -/
theorem Initial.wasCut_iff (hs : Initial s) (ha : s.Admissible ms) : (s.run ms).WasCut k ↔
    (s.run ms).status? k = some .doneError ∧ ∀ r, ¬ EndedIn s ms k r := by
  constructor
  · intro hcut
    refine ⟨?_, fun r hr => hs.uncut_endedIn ha hr hcut⟩
    have hl := hs.living_stageOf ha k
    have hstage := hl.wasCut_iff.mp hcut
    have hfits := hl.fits
    generalize (s.run ms).stageOf k = stage, (s.run ms).status? k = status at hstage hfits
    cases hfits <;> first | rfl | cases hstage
  · rintro ⟨hstatus, hnot⟩
    obtain ⟨st, hst, hdone⟩ := status?_eq_some hstatus
    exact hs.wasCut_of_unfinished ha ⟨st, hst, by rw [hdone]; rfl⟩ hnot

/-- The counter says how many were cancelled. -/
theorem Initial.cancelled_eq_ncard (hs : Initial s) (ha : s.Admissible ms) :
    (s.run ms).counters.cancelled = {k | (s.run ms).WasCut k}.ncard := by
  rw [← hs.sum_stages ha (P := (s.run ms).WasCut) rfl fun k =>
    (hs.living_stageOf ha k).wasCut_iff.symm]
  calc (s.run ms).counters.cancelled
    _ = (s.run ms).tally (·.counter? == some .cancelled) := hs.counted_run ha .cancelled
    _ = ∑ i ∈ Finset.range (s.run ms).strands.next,
          ((s.run ms).life ⟨i⟩).countP (·.counter? == some .cancelled) :=
        hs.tally_eq_sum ha (counts_no_report .cancelled)
    _ = ∑ i ∈ Finset.range (s.run ms).strands.next, ((s.run ms).stageOf ⟨i⟩).isCancelled.toNat :=
        Finset.sum_congr rfl fun i _ => Stage.cancelled_balance (hs.living_stageOf ha ⟨i⟩).told

/-! ## How they were cancelled -/

/-- What cancels a strand. -/
inductive Cutter where
  /-- The clean-up of a shutdown comes to the strand. -/
  | cleanUp
  /-- Its worker does, at the end of a segment with which its body is not through. -/
  | worker
  /-- Somebody completes a bridge of the strand when the workers are gone. -/
  | completion
deriving DecidableEq, Repr

variable {c c' : Cutter}

/-- The move that may cancel a strand in this way. -/
inductive Cutter.Of (s : Scheduler V B) (k : StrandId) : Cutter → Move V B → Prop
  | cleanUp : Of s k .cleanUp (.cancel k)
  | worker {body : B} {step : Step V} (hcancelling : s.isCancelling = true)
      (hstep : step.isDone = false) : Of s k .worker (.endSegment k body step)
  | completion {m : Move V B} (gone : s.terminated = true) (hother : m ≠ .cancel k) :
      Of s k .completion m

/-- The move cancels the strand. -/
def Cuts (s : Scheduler V B) (m : Move V B) (k : StrandId) : Prop :=
  ¬ s.WasCut k ∧ (s.after m).WasCut k

/-- The strand was cancelled in the course of the moves, and in this way. -/
def CutBy (s : Scheduler V B) (ms : List (Move V B)) (c : Cutter) (k : StrandId) : Prop :=
  ∃ before m rest, ms = before ++ m :: rest ∧ (s.run before).Cuts m k ∧ c.Of (s.run before) k m

theorem cutBy_snoc : CutBy s (ms ++ [m]) c k ↔
    CutBy s ms c k ∨ (s.run ms).Cuts m k ∧ c.Of (s.run ms) k m :=
  exists_split_snoc (P := fun before m => (s.run before).Cuts m k ∧ c.Of (s.run before) k m)

/-- Whoever is on a worker is not cancelled in two ways by the end of his segment. -/
theorem Cutter.Of.unique (h : c.Of s k m) (h' : c'.Of s k m) (hp : Placed s.held s)
    (ha : s.Allows m) : c = c' := by
  have hbusy : ∀ {body : B} {step : Step V}, m = .endSegment k body step →
      s.terminated ≠ true := by
    rintro body step rfl gone
    have hheld : k ∈ s.held := ha
    rw [hp.gone gone] at hheld
    cases hheld
  cases h with
  | cleanUp =>
    cases h' with
    | cleanUp => rfl
    | completion _ hother => exact absurd rfl hother
  | worker =>
    cases h' with
    | worker => rfl
    | completion gone => exact absurd gone (hbusy rfl)
  | completion gone hother =>
    cases h' with
    | cleanUp => exact absurd rfl hother
    | worker => exact absurd gone (hbusy rfl)
    | completion => rfl

/-- Who is cancelled had not ended before, and he does not finish. -/
theorem Initial.cuts_iff (hs : Initial s) (ha : s.Admissible (ms ++ [m])) :
    (s.run ms).Cuts m k ↔ ¬ (s.run ms).HasEnded k ∧ (s.run (ms ++ [m])).HasEnded k ∧
      ∀ r, (s.run ms).finishes m ≠ some (k, r) := by
  have hprev := (admissible_append.mp ha).1
  rw [Cuts, ← run_snoc]
  constructor
  · rintro ⟨hnot, hcut⟩
    exact ⟨fun hended => hs.uncut_run ha hended hnot hcut, (hs.wasCut_run ha hcut).2,
      fun r hfin => hs.uncut_endedIn ha (endedIn_snoc.mpr (Or.inr hfin)) hcut⟩
  · rintro ⟨hlive, hended, hnot⟩
    refine ⟨fun hcut => hlive (hs.wasCut_run hprev hcut).2, hs.wasCut_of_unfinished ha hended ?_⟩
    intro r hr
    rcases endedIn_snoc.mp hr with hold | hnew
    · exact hlive (hs.hasEnded_of_endedIn hprev hold)
    · exact hnot r hnew

/-- A worker cancels its strand only when everything is being cut off, and only if the body is not
    through. -/
theorem Initial.worker_cuts {body : B} {step : Step V} (hs : Initial s)
    (ha : s.Admissible (ms ++ [.endSegment k body step]))
    (hcuts : (s.run ms).Cuts (.endSegment k body step) k) :
    (s.run ms).isCancelling = true ∧ step.isDone = false := by
  obtain ⟨hprev, hheld, -⟩ := admissible_append.mp ha
  have hplaced := (hs.stable_run hprev).placed
  obtain ⟨hlive, hended, hnot⟩ := (hs.cuts_iff ha).mp hcuts
  obtain ⟨st, hst, hrun⟩ := (hplaced.busy_iff k).mp hheld
  obtain ⟨st', hst', hbecame⟩ := (hs.moveChange ha).row (hs.kin_run hprev) hst
  rcases hbecame.ends (Status.not_terminal_of_running hrun) (hended.all st' hst') with
    ⟨r, hfin⟩ | ⟨_, _, _, hover, -⟩
  · exact absurd hfin (hnot r)
  rw [isShutDown, hplaced.alive hst hrun, Bool.or_false] at hover
  refine ⟨hover, ?_⟩
  cases step with
  | done r => exact absurd (by simp [finishes, Step.isDone, Step.conclusion?]) (hnot r)
  | _ => rfl

/-- **Whoever is cancelled is cancelled in one of the three ways.** -/
theorem Initial.cuts_of (hs : Initial s) (ha : s.Admissible (ms ++ [m]))
    (hcuts : (s.run ms).Cuts m k) : ∃ c : Cutter, c.Of (s.run ms) k m := by
  obtain ⟨hprev, hm, -⟩ := admissible_append.mp ha
  obtain ⟨hlive, hended, -⟩ := (hs.cuts_iff ha).mp hcuts
  cases gone : (s.run ms).terminated with
  | true =>
    by_cases hother : m = .cancel k
    · subst hother
      exact ⟨.cleanUp, .cleanUp⟩
    · exact ⟨.completion, .completion gone hother⟩
  | false =>
    rw [run_snoc] at hended
    obtain ⟨body, step, rfl⟩ :=
      (hs.stable_run hprev).ended_alive hm (respects_all _ m) gone hlive hended
    obtain ⟨hcancelling, hstep⟩ := hs.worker_cuts ha hcuts
    exact ⟨.worker, .worker hcancelling hstep⟩

/-- Who was cancelled stays so. -/
theorem Initial.wasCut_snoc (hs : Initial s) (ha : s.Admissible (ms ++ [m])) :
    (s.run (ms ++ [m])).WasCut k ↔ (s.run ms).WasCut k ∨ (s.run ms).Cuts m k := by
  obtain ⟨hprev, hm, -⟩ := admissible_append.mp ha
  have hl := hs.living_stageOf hprev k
  have hl' := hs.living_stageOf ha k
  rw [run_snoc] at hl' ⊢
  have hgoes := (hs.stable_run hprev).goes hm hl hl'
  have hstays : (s.run ms).WasCut k → ((s.run ms).after m).WasCut k := by
    rw [hl.wasCut_iff, hl'.wasCut_iff]
    intro hcut
    cases hstage : (s.run ms).stageOf k with
    | cancelled parked => rw [hgoes.cancelled parked hstage]; rfl
    | _ => rw [hstage] at hcut; cases hcut
  by_cases hcut : (s.run ms).WasCut k
  · simp [hcut, hstays hcut]
  · simp [hcut, Cuts]

theorem Initial.wasCut_iff_cutBy (hs : Initial s) (ha : s.Admissible ms) :
    (s.run ms).WasCut k ↔ ∃ c, CutBy s ms c k := by
  induction ms using List.reverseRecOn with
  | nil =>
    constructor
    · intro hcut
      rw [run_nil, WasCut, hs.journal] at hcut
      cases hcut
    · rintro ⟨c, before, m, rest, heq, -⟩
      simp at heq
  | append_singleton ms m ih =>
    rw [hs.wasCut_snoc ha, ih (admissible_append.mp ha).1]
    simp only [cutBy_snoc, exists_or]
    refine or_congr_right ⟨fun hcuts => ?_, ?_⟩
    · obtain ⟨c, hof⟩ := hs.cuts_of ha hcuts
      exact ⟨c, hcuts, hof⟩
    · rintro ⟨c, hcuts, -⟩
      exact hcuts

/-- **A strand is cancelled in one way.** -/
theorem Initial.cutBy_unique (hs : Initial s) (ha : s.Admissible ms) (h : CutBy s ms c k)
    (h' : CutBy s ms c' k) : c = c' := by
  induction ms using List.reverseRecOn with
  | nil =>
    obtain ⟨before, m, rest, heq, -⟩ := h
    simp at heq
  | append_singleton ms m ih =>
    obtain ⟨hprev, hm, -⟩ := admissible_append.mp ha
    -- Who was cancelled before is not cancelled by the last move.
    have honce : ∀ {a a' : Cutter}, CutBy s ms a k →
        ¬ ((s.run ms).Cuts m k ∧ a'.Of (s.run ms) k m) := fun hold hnew =>
      hnew.1.1 ((hs.wasCut_iff_cutBy hprev).mpr ⟨_, hold⟩)
    rcases cutBy_snoc.mp h with hold | hnew <;> rcases cutBy_snoc.mp h' with hold' | hnew'
    · exact ih hprev hold hold'
    · exact absurd hnew' (honce hold)
    · exact absurd hnew (honce hold')
    · exact hnew.2.unique hnew'.2 (hs.stable_run hprev).placed hm

/-! ## Their number -/

theorem wasCut_finite (s : Scheduler V B) : {k | s.WasCut k}.Finite :=
  (List.finite_toSet s.journal.toList).preimage fun i _ j _ heq => by
    cases heq
    rfl

theorem Initial.cutBy_finite (hs : Initial s) (ha : s.Admissible ms) (c : Cutter) :
    {k | CutBy s ms c k}.Finite :=
  (wasCut_finite (s.run ms)).subset fun _ hk => (hs.wasCut_iff_cutBy ha).mpr ⟨c, hk⟩

/-- **The strands that were cancelled are counted by the three ways.** -/
theorem Initial.cancelled_eq_sum (hs : Initial s) (ha : s.Admissible ms) :
    (s.run ms).counters.cancelled = {k | CutBy s ms .cleanUp k}.ncard +
      ({k | CutBy s ms .worker k}.ncard + {k | CutBy s ms .completion k}.ncard) := by
  have hfinite := hs.cutBy_finite ha
  have hdisjoint : ∀ {c c'}, c ≠ c' → Disjoint {k | CutBy s ms c k} {k | CutBy s ms c' k} :=
    fun hne => Set.disjoint_left.mpr fun k hk hk' => hne (hs.cutBy_unique ha hk hk')
  have hall : {k | (s.run ms).WasCut k} = {k | CutBy s ms .cleanUp k} ∪
      ({k | CutBy s ms .worker k} ∪ {k | CutBy s ms .completion k}) := by
    ext k
    rw [Set.mem_ofPred_eq, hs.wasCut_iff_cutBy ha]
    constructor
    · rintro ⟨c, hc⟩
      cases c with
      | cleanUp => exact Or.inl hc
      | worker => exact Or.inr (Or.inl hc)
      | completion => exact Or.inr (Or.inr hc)
    · rintro (hc | hc | hc) <;> exact ⟨_, hc⟩
  rw [hs.cancelled_eq_ncard ha, hall,
    Set.ncard_union_eq (Set.disjoint_union_right.mpr ⟨hdisjoint (by decide), hdisjoint (by decide)⟩)
      (hfinite _) ((hfinite _).union (hfinite _)),
    Set.ncard_union_eq (hdisjoint (by decide)) (hfinite _) (hfinite _)]

end Scheduler
end CoopSched
