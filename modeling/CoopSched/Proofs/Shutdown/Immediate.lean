import CoopSched.Proofs.Scheduler.Orderly
import CoopSched.Proofs.Shutdown.Stopped

/-!
# Immediate shutdowns — what is cut off

From the moment an immediate shutdown begins no segment begins any more (`Aborted`). The segments
under way go on, and may still make others ready, but nobody takes a strand out of the ready queue
until it is emptied. So a strand ends in one of two ways then: its segment was under way, and its
body was through with it; or it is cut off, when its segment ends or at the end of the shutdown
(`cut_short`).
-/

namespace CoopSched
namespace Scheduler

variable {V B : Type} {Ok : BridgeId → Wakeup V → Prop} {drained : Bool}
  {s s₁ s' : Scheduler V B} {m : Move V B} {begun later before rest ms : List (Move V B)}
  {k : StrandId} {st st' st₁ : Strand V B} {r : Outcome V} {reason : Failure}

/-! ## An aborted scheduler -/

/-- An immediate shutdown has begun. -/
structure Aborted (s : Scheduler V B) : Prop where
  phase : s.phase = .cancelling
  closed : s.queue.closed = true
  aborted : s.queue.aborted = true

theorem Aborted.advances (h : Aborted s) (ha : Advances s s') : Aborted s' where
  phase := by
    rcases ha.phase with haccepting | hphase
    · cases h.phase.symm.trans haccepting
    · exact hphase.trans h.phase
  closed := ha.closed h.closed
  aborted := ha.aborted h.aborted

/-- The first shutdown aborts the scheduler if it is an immediate one. -/
theorem aborted_after (hopen : s.isStopping = false) :
    Aborted (s.after (.beginShutdown .immediate)) := by
  have hphase : s.phase = .accepting := by
    rw [isStopping] at hopen
    cases hp : s.phase <;> rw [hp] at hopen <;> first | rfl | cases hopen
  have hafter : s.after (.beginShutdown .immediate) =
      { s with phase := .cancelling, queue := s.queue.abort } := by
    show (s.beginShutdown .immediate).getD s = _
    unfold Scheduler.beginShutdown
    rw [hphase]
    rfl
  rw [hafter]
  exact ⟨rfl, rfl, rfl⟩

theorem Aborted.isCancelling (h : Aborted s) : s.isCancelling = true := by
  rw [Scheduler.isCancelling, h.phase]
  rfl

theorem Aborted.dispatch_eq (h : Aborted s) : s.dispatch = (s, none) :=
  dispatch_idle (by rw [canDispatch, h.aborted]; simp)

theorem Aborted.segment_none (h : Aborted s) (m : Move V B) : s.segment? m = none := by
  cases m with
  | dispatch => exact congrArg Prod.snd h.dispatch_eq
  | _ => rfl

theorem Aborted.after_dispatch (h : Aborted s) : s.after .dispatch = s :=
  congrArg Prod.fst h.dispatch_eq

/-- There is only one reason to cancel a strand. -/
theorem Aborted.reason_eq (h : Aborted s) (hreason : s.IsReason reason) :
    reason = shutDownReason := by
  rcases hreason with rfl | rfl
  · rfl
  · rw [cleanUpReason, if_pos h.isCancelling]

/-- Nobody leaves the ready queue before it is emptied. -/
theorem Aborted.queueGrows (h : Aborted s) (hchange : MoveChange s m (s.after m))
    (hm : m ≠ .drain) : QueueGrows s (s.after m) := by
  cases htakes : m.takesOut with
  | false => exact hchange.queueGrows htakes
  | true =>
    cases m with
    | dispatch =>
      rw [h.after_dispatch]
      exact .of_queue rfl
    | drain => exact absurd rfl hm
    | _ => cases htakes

/-- A strand that runs when nothing was dispatched ran before. -/
theorem Stable.ran_before (hs : Stable Ok drained s) (ha : s.Allows m) (hr : Respects Ok s m)
    (hidle : s.segment? m = none) (hst' : (s.after m).strand? k = some st')
    (hrun : st'.status.isRunning = true) :
    ∃ st, s.strand? k = some st ∧ st.status.isRunning = true := by
  have hapart := hs.apart ha hr
  have alive := hapart.alive ((hs.after ha hr).placed.alive hst' hrun)
  obtain ⟨s₁, hturn, hrows⟩ := hapart.rows alive
  obtain ⟨st₁, hst₁, hrun₁⟩ : ∃ st₁, s₁.strand? k = some st₁ ∧ st₁.status.isRunning = true := by
    cases hst₁ : s₁.strand? k with
    | none =>
      rw [(hrows.new k st' hst₁ hst').status] at hrun
      cases hrun
    | some st₁ =>
      obtain ⟨st'', hst'', hlater⟩ := hrows.old k st₁ hst₁
      obtain rfl := Option.some.inj (hst''.symm.trans hst')
      exact ⟨st₁, rfl, hlater.running.symm.trans hrun⟩
  have hown : ∀ {id : StrandId} {old new : Strand V B}, Own s s₁ id old new →
      (new.status.isRunning = true → old.status.isRunning = true) →
      ∃ st, s.strand? k = some st ∧ st.status.isRunning = true := by
    intro id old new hown hnew
    have hrow := hown.rows k
    rw [hst₁] at hrow
    split at hrow
    next hk =>
      subst hk
      exact ⟨old, hown.row, hnew (Option.some.inj hrow ▸ hrun₁)⟩
    next => exact ⟨st₁, hrow.symm, hrun₁⟩
  cases hturn with
  | quiet _ _ _ hstill => exact ⟨st₁, (hstill.strands k).symm.trans hst₁, hrun₁⟩
  | issue _ _ _ hrun' _ hown' => exact hown hown' fun _ => hrun'
  | begun hseg => cases hidle.symm.trans hseg
  | resumed hseg => cases hidle.symm.trans hseg
  | ended _ _ _ hown' hover =>
    exact hown hown' fun h => by rw [Status.not_terminal_of_running h] at hover; cases hover
  | requeued hrun' _ hown' => exact hown hown' fun _ => hrun'
  | parked _ hrun' _ hown' => exact hown hown' fun _ => hrun'
  | awaiting hrun' _ _ hown' => exact hown hown' fun _ => hrun'

/-! ## How strands end -/

/-- A strand has finished with an outcome, in the move from `s` to `s'`: its job was told of it, its
    parent took note of it, or it is kept for the handle. -/
structure FinishedWith (s s' : Scheduler V B) (k : StrandId) (st st' : Strand V B)
    (r : Outcome V) : Prop where
  status : st'.status = .finished r.isOk
  complete : st'.complete = true
  received : (∃ hook, st.hook = some hook ∧ JobTold s s' hook r) ∨
    (∃ p ps fired, st.hook = none ∧ st.parent = some p ∧ s.strand? p = some ps ∧
      (ps.children.settle k r).2 = .recorded fired) ∨
    st.hook = none ∧ st'.outcome = some r

/-- A strand was cut off by the shutdown on the way from `s` to `s'`, so many moves ago. Its job was
    told of the error, or it is kept for the handle until somebody joins the strand. -/
structure CutOff (s s' : Scheduler V B) (since : List (Move V B)) (k : StrandId)
    (st st' : Strand V B) : Prop where
  status : st'.status = .doneError
  complete : st'.complete = true
  body : st'.body = none
  bridge : st'.bridge = none
  told : ∀ hook, st.hook = some hook → JobTold s s' hook (.err shutDownReason)
  outcome : st.hook = none → .join k ∉ since → st'.outcome = some (.err shutDownReason)

/-- What is kept for the handle of a strand that finishes is its outcome. -/
theorem Handed.finishedWith {s₁ s₂ : Scheduler V B} {kept : Option (Outcome V)}
    (h : Handed k st r s₁ s₂ kept) (hkin : Kin s) (hooked : Hooked s)
    (hst : s.strand? k = some st) (hmarked : s₁ = s.markFinished k r.isOk)
    (hjobs : ∀ hook, JobTold s s₂ hook r → JobTold s s' hook r) :
    FinishedWith s s' k st ((st.finished r.isOk).publish kept) r := by
  subst hmarked
  refine ⟨rfl, rfl, ?_⟩
  have hparent : ∀ {p : StrandId} {ps : Strand V B}, st.parent = some p →
      (s.markFinished k r.isOk).strand? p = some ps → s.strand? p = some ps := by
    intro p ps hp hps
    rwa [markFinished_rows hst, if_neg (Ne.symm (hkin k st p hst hp).2.1)] at hps
  cases h with
  | told hhook hset htold =>
    have hmarked := (Lasts.markFinished s k r.isOk).jobs
    obtain ⟨entry, hentry⟩ := hooked k st _ hst hhook
    obtain ⟨entry', hentry', -⟩ := hmarked _ entry hentry
    exact Or.inl ⟨_, hhook, hjobs _ ((htold ⟨entry', hentry'⟩).since hmarked ⟨entry, hentry⟩)⟩
  | settled hhook hp hps hsettle hset =>
    exact Or.inr (Or.inl ⟨_, _, _, hhook, hp, hparent hp hps, hsettle⟩)
  | returned hhook hp hps hsettle =>
    rcases (Handed.returned hhook hp hps hsettle).kept_eq with hnone | hkept
    · cases hnone
    · exact Or.inr (Or.inr ⟨hhook, by rw [hkept]; rfl⟩)
  | orphan hhook hp => exact Or.inr (Or.inr ⟨hhook, rfl⟩)

/-- A strand whose body is through with its segment finishes with what the body says. -/
theorem Initial.finishedWith (hs : Initial s) (ha : s.Admissible (ms ++ [m]))
    (hfin : (s.run ms).finishes m = some (k, r)) :
    ∃ st st', (s.run ms).strand? k = some st ∧ (s.run (ms ++ [m])).strand? k = some st' ∧
      FinishedWith (s.run ms) (s.run (ms ++ [m])) k st st' r := by
  have hprev := (admissible_append.mp ha).1
  have hchange := hs.moveChange ha
  generalize s.run (ms ++ [m]) = s' at hchange ⊢
  cases hchange with
  | mild hnone => cases hnone.symm.trans hfin
  | announced hnone => cases hnone.symm.trans hfin
  | joined hm =>
    subst hm
    cases hfin
  | spawned hm =>
    subst hm
    cases hfin
  | awaited _ hnone => cases hnone.symm.trans hfin
  | finished hfin' hst hrun hhanded =>
    obtain ⟨rfl, rfl⟩ := Prod.mk.inj (Option.some.inj (hfin.symm.trans hfin'))
    exact ⟨_, _, hst, hhanded.own_row (hs.kin_run hprev) hst,
      hhanded.finishedWith (hs.kin_run hprev) (hs.hooked_run hprev) hst rfl
        fun _ ht => ht⟩

/-- Whoever ends in another way than that is cut off. -/
theorem Became.cutOff (h : Became s m s' k st st') (haborted : Aborted s) (hooked : Hooked s)
    (hst : s.strand? k = some st) (hend : st.status.isTerminal = false)
    (hend' : st'.status.isTerminal = true) (hfin : ∀ r, s.finishes m ≠ some (k, r)) :
    CutOff s s' [] k st st' := by
  rcases h.ends hend hend' with ⟨r, hr⟩ | ⟨st₁, reason, hlike, -, hreason, htold, rfl⟩
  · exact absurd hr (hfin r)
  obtain rfl := haborted.reason_eq hreason
  refine ⟨rfl, rfl, rfl, rfl, fun hook hhook => htold hook hhook (hooked k st hook hst hhook),
    fun hhook _ => ?_⟩
  rw [Strand.cancelled, hlike.hook, hhook]
  rfl

/-- A strand that was cut off stays so. -/
theorem CutOff.remains (h : CutOff s s₁ [] k st st₁) (ha : Advances s₁ s')
    (hremains : Remains rest k st₁ st') : CutOff s s' rest k st st' where
  status := hremains.status.trans h.status
  complete := hremains.complete.trans h.complete
  body := hremains.body.trans h.body
  bridge := hremains.bridge.trans h.bridge
  told := fun hook hhook => (h.told hook hhook).onward ha.jobs
  outcome := fun hhook hno => (hremains.outcome hno).trans (h.outcome hhook List.not_mem_nil)

/-- A segment that goes on after the shutdown has begun, and does not finish its strand, is the end
    of it. -/
theorem Initial.cutOff_segment (hs : Initial s) {body : B} {step : Step V}
    (ha : s.Admissible (ms ++ [.endSegment k body step])) (haborted : Aborted (s.run ms))
    (hstep : step.isDone = false) :
    ∃ st st', (s.run ms).strand? k = some st ∧
      (s.run (ms ++ [.endSegment k body step])).strand? k = some st' ∧
      CutOff (s.run ms) (s.run (ms ++ [.endSegment k body step])) [] k st st' := by
  obtain ⟨hprev, hheld, -⟩ := admissible_append.mp ha
  have hstable := hs.stable_run hprev
  obtain ⟨st, hst, hrun⟩ := (hstable.placed.busy_iff k).mp hheld
  obtain ⟨st', hst', hbecame⟩ := (hs.moveChange ha).row (hs.kin_run hprev) hst
  have hend' : (s.run (ms ++ [.endSegment k body step])).HasEnded k := by
    rw [run_snoc]
    show ((s.run ms).endSegment k body step).HasEnded k
    unfold endSegment
    rw [if_pos (by rw [haborted.isCancelling, hstep]; rfl)]
    exact hstable.hasEnded_cancel hst shutDownReason
  refine ⟨st, st', hst, hst', hbecame.cutOff haborted (hs.hooked_run hprev) hst
    (Status.not_terminal_of_running hrun) (hend'.all st' hst') fun r hr => ?_⟩
  obtain ⟨body', step', heq, hnot, -⟩ := finishes_eq hr
  cases heq
  rw [haborted.isCancelling, hstep] at hnot
  cases hnot

/-- Whoever is in the middle of a segment was so when the shutdown began. -/
theorem Initial.held_before (hs : Initial s) (ha : s.Admissible (begun ++ later))
    (haborted : Aborted (s.run begun)) (hheld : k ∈ (s.run (begun ++ later)).held) :
    k ∈ (s.run begun).held := by
  induction later using List.reverseRecOn with
  | nil => rwa [List.append_nil] at hheld
  | append_singleton later m ih =>
    rw [← List.append_assoc] at ha hheld
    obtain ⟨hprev, hm, -⟩ := admissible_append.mp ha
    obtain ⟨st', hst', hrun⟩ := ((hs.stable_run ha).placed.busy_iff k).mp hheld
    have hstable := hs.stable_run hprev
    have hidle := (haborted.advances (hs.advances_run hprev)).segment_none m
    rw [run_snoc] at hst'
    exact ih hprev ((hstable.placed.busy_iff k).mpr
      (hstable.ran_before hm (respects_all _ m) hidle hst' hrun))

/-- What ends a segment that finishes its strand after the shutdown has begun. -/
theorem Aborted.finishes (h : Aborted s) (hfin : s.finishes m = some (k, r)) :
    ∃ body, m = .endSegment k body (.done r) := by
  obtain ⟨body, step, rfl, hnot, hcon⟩ := finishes_eq hfin
  rw [h.isCancelling, Bool.true_and] at hnot
  cases step with
  | done r' =>
    obtain rfl := Option.some.inj hcon
    exact ⟨body, rfl⟩
  | _ => cases hnot

/-- **What becomes of the strands** once an immediate shutdown has begun with the last move of
    `begun`. -/
structure CutShort (s : Scheduler V B) (begun later : List (Move V B)) : Prop where
  /-- No segment begins, and nobody leaves the ready queue before it is emptied. -/
  idle : ∀ mid m tail, later = mid ++ m :: tail →
    (s.run (begun ++ mid)).segment? m = none ∧
      (m = .dispatch → s.run (begun ++ mid ++ [m]) = s.run (begun ++ mid)) ∧
      (m ≠ .drain → QueueGrows (s.run (begun ++ mid)) (s.run (begun ++ mid ++ [m])))
  /-- Who is in the middle of a segment may finish with it. -/
  through : ∀ mid body r tail k, later = mid ++ .endSegment k body (.done r) :: tail →
    ∃ st st', (s.run (begun ++ mid)).strand? k = some st ∧
      (s.run (begun ++ mid ++ [.endSegment k body (.done r)])).strand? k = some st' ∧
      FinishedWith (s.run (begun ++ mid))
        (s.run (begun ++ mid ++ [.endSegment k body (.done r)])) k st st' r
  /-- If he does not, he is cut off there. -/
  unfinished : ∀ mid body step tail k, later = mid ++ .endSegment k body step :: tail →
    step.isDone = false → ∃ st st', (s.run (begun ++ mid)).strand? k = some st ∧
      (s.run (begun ++ mid ++ [.endSegment k body step])).strand? k = some st' ∧
      CutOff (s.run (begun ++ mid)) (s.run (begun ++ mid ++ [.endSegment k body step])) [] k st st'
  /-- Nobody ends in another way, -/
  ends : ∀ k st, (s.run begun).strand? k = some st → st.status.isTerminal = false →
    (s.run (begun ++ later)).HasEnded k →
    (k ∈ (s.run begun).held ∧
        ∃ mid body r tail, later = mid ++ .endSegment k body (.done r) :: tail) ∨
      ∃ st', (s.run (begun ++ later)).strand? k = some st' ∧
        CutOff (s.run begun) (s.run (begun ++ later)) later k st st'
  /-- and everybody has ended when the shutdown returns. -/
  returned : ∀ mode, ShutsDown s mode (begun ++ later) → ∀ k st,
    (s.run (begun ++ later)).strand? k = some st → (s.run (begun ++ later)).HasEnded k
  /-- Nobody is there who was not there before. -/
  nobody : ∀ k st, (s.run (begun ++ later)).strand? k = some st →
    ∃ st₀, (s.run begun).strand? k = some st₀
  /-- Who has ended stays as he is, and does not come back to the queue or to a worker. -/
  kept : ∀ mid more tail k st, later = mid ++ more ++ tail →
    (s.run (begun ++ mid)).strand? k = some st → st.status.isTerminal = true →
    ∃ st', (s.run (begun ++ (mid ++ more))).strand? k = some st' ∧ Remains more k st st' ∧
      k ∉ (s.run (begun ++ (mid ++ more))).queue.waiting ∧
      k ∉ (s.run (begun ++ (mid ++ more))).held

/-- A strand that has ended is neither in the queue nor on a worker. -/
theorem Placed.ended_nowhere {busy : List StrandId} (h : Placed busy s)
    (hst : s.strand? k = some st) (hend : st.status.isTerminal = true) :
    k ∉ s.queue.waiting ∧ k ∉ busy := by
  refine ⟨fun hk => ?_, fun hk => ?_⟩
  · obtain ⟨st', hst', hready⟩ := h.waiting_runnable k hk
    obtain rfl := Option.some.inj (hst.symm.trans hst')
    rw [hready] at hend
    cases hend
  · obtain ⟨st', hst', hrun⟩ := (h.busy_iff k).mp hk
    obtain rfl := Option.some.inj (hst.symm.trans hst')
    cases hend.symm.trans (Status.not_terminal_of_running hrun)

/-- **An immediate shutdown cuts everything short**: nothing begins any more, and whoever is not
    through with a segment that was under way ends with the error that tells of the shutdown. -/
theorem cut_short (hs : Initial s)
    (ha : s.Admissible (before ++ [.beginShutdown .immediate] ++ later))
    (hopen : (s.run before).isStopping = false) :
    CutShort s (before ++ [.beginShutdown .immediate]) later := by
  have hbegun : Aborted (s.run (before ++ [.beginShutdown .immediate])) := by
    rw [run_snoc]
    exact aborted_after hopen
  generalize before ++ [.beginShutdown .immediate] = begun at ha hbegun ⊢
  have hsplit : ∀ {mid m tail}, later = mid ++ m :: tail →
      s.Admissible (begun ++ mid ++ [m]) ∧ Aborted (s.run (begun ++ mid)) := by
    rintro mid m tail rfl
    rw [List.append_cons, ← List.append_assoc, ← List.append_assoc] at ha
    have hmid := (admissible_append.mp ha).1
    exact ⟨hmid, hbegun.advances (hs.advances_run (admissible_append.mp hmid).1)⟩
  refine ⟨?_, ?_, ?_, ?_, fun mode hdown k st hst => hdown.hasEnded hs ha hst,
    fun k st hst => hs.nobody_new ha hbegun.closed hst, ?_⟩
  · intro mid m tail heq
    obtain ⟨hm, haborted⟩ := hsplit heq
    refine ⟨haborted.segment_none m, ?_, fun hne => ?_⟩
    · rintro rfl
      rw [run_snoc]
      exact haborted.after_dispatch
    · have hchange := hs.moveChange hm
      rw [run_snoc] at hchange ⊢
      exact haborted.queueGrows hchange hne
  · intro mid body r tail k heq
    obtain ⟨hm, haborted⟩ := hsplit heq
    exact hs.finishedWith hm (by simp [finishes, Step.isDone, Step.conclusion?])
  · intro mid body step tail k heq hstep
    obtain ⟨hm, haborted⟩ := hsplit heq
    exact hs.cutOff_segment hm haborted hstep
  · intro k st hst hend hended
    obtain ⟨mid, m, tail, st₁, st₂, rfl, hst₁, hend₁, hst₂, hend₂, hbecame⟩ :=
      hs.ends_run ha hst hend hended
    obtain ⟨hm, haborted⟩ := hsplit rfl
    have hmid := (admissible_append.mp hm).1
    by_cases hfin : ∃ r, (s.run (begun ++ mid)).finishes m = some (k, r)
    · obtain ⟨r, hfin⟩ := hfin
      obtain ⟨body, rfl⟩ := haborted.finishes hfin
      exact Or.inl ⟨hs.held_before hmid hbegun (admissible_append.mp hm).2.1, mid, body, r, tail,
        rfl⟩
    · have hcut := hbecame.cutOff haborted (hs.hooked_run hmid) hst₁ hend₁ hend₂
        fun r hr => hfin ⟨r, hr⟩
      have hwhole : begun ++ (mid ++ m :: tail) = begun ++ mid ++ [m] ++ tail := by simp
      rw [hwhole] at ha ⊢
      obtain ⟨st', hst', hremains⟩ := hs.remains_run ha hst₂ hend₂
      obtain ⟨st₁', hst₁', hhook, -⟩ := hs.row_run hmid hst
      obtain rfl := Option.some.inj (hst₁.symm.trans hst₁')
      have hlater := hcut.remains (hs.advances_run ha) hremains
      have hbefore := (admissible_append.mp hmid).1
      refine Or.inr ⟨st', hst', ⟨hlater.status, hlater.complete, hlater.body, hlater.bridge,
        fun hook heq => (hlater.told hook (hhook.trans heq)).since (hs.advances_run hmid).jobs
          (hs.hooked_run hbefore k st hook hst heq), fun hnone hno =>
          hlater.outcome (hhook.trans hnone) fun hmem => hno ?_⟩⟩
      exact List.mem_append_right _ (List.mem_cons_of_mem _ hmem)
  · rintro mid more tail k st rfl hst hend
    rw [← List.append_assoc] at ha
    have hmore := (admissible_append.mp ha).1
    have hsplit' : s.Admissible (begun ++ mid ++ more) := by rwa [List.append_assoc]
    obtain ⟨st', hst', hremains⟩ := hs.remains_run hsplit' hst hend
    rw [List.append_assoc] at hst'
    exact ⟨st', hst', hremains, (hs.stable_run hmore).placed.ended_nowhere hst'
      (by rw [hremains.status]; exact hend)⟩

/-- A strand yields after the shutdown has begun, while another one is ready and a third one blocked
    on a bridge that is completed too late. -/
theorem cut_short_yield :
    let before : List (Move Nat Unit) := [.spawn () none, .dispatch, .park ⟨1⟩,
      .endSegment ⟨1⟩ () .park, .spawn () none, .spawn () none, .dispatch]
    let later : List (Move Nat Unit) := [.complete ⟨1⟩ (.ok 7), .endSegment ⟨2⟩ () .yield,
      .terminate, .drain, .cancel ⟨1⟩, .cancel ⟨3⟩]
    CutShort single (before ++ [.beginShutdown .immediate]) later ∧
      ∀ k ∈ ([⟨1⟩, ⟨2⟩, ⟨3⟩] : List StrandId),
        ((single.run (before ++ [.beginShutdown .immediate] ++ later)).strand? k).bind (·.outcome) =
          some (.err shutDownReason) := by
  intro before later
  have ha : single.Admissible (before ++ [.beginShutdown .immediate] ++ later) := by
    simp [before, later, Admissible, Allows]
    decide
  refine ⟨cut_short single_initial ha rfl, fun k hk => ?_⟩
  simp only [List.mem_cons, List.not_mem_nil, or_false] at hk
  rcases hk with rfl | rfl | rfl <;> rfl

end Scheduler
end CoopSched
