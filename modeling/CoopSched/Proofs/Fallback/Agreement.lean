import CoopSched.Proofs.Fallback.Figures

/-!
# Agreement — what is set off needs no fallback

The fallbacks are taken out of functions that call each other, so the states in the middle of a move
matter as much as those between moves. `Fit` is what each function can rely on in any of them, and
no sequence of nested changes spoils a fit state (`Fit.changes`). In a fit state a bare completion,
answer, launch or cancellation has the answer that the scheduler's has (`Agreed`), with any
cancellation that it may set off (`Mirrors`), and the bounded cancellations are covered by induction
on the bound.
-/

namespace CoopSched
namespace Scheduler

variable {V B : Type} {n : Nat} {s s' : Scheduler V B} {bare : Bare.Cancel V B}
  {nested : Cancel V B} {id : StrandId} {st : Strand V B}

/-- The rule that lets everybody complete everything. -/
abbrev Anything : BridgeId → Wakeup V → Prop := fun _ _ => True

/-- What each function can rely on. Where strands are matters only as long as there are workers. -/
structure Fit (n : Nat) (s : Scheduler V B) : Prop where
  sound : Sound Anything n s
  placed : s.terminated = false → ∃ busy, Placed busy s
  figured : Figured s

theorem Fit.changes (h : Fit n s) (hd : Changes Anything s s') (hf : Figured s') : Fit n s' where
  sound := h.sound.changes hd
  placed := fun alive =>
    (h.placed (hd.steady.terminated.symm.trans alive)).imp fun _ hp => hd.placed hp
  figured := hf

/-- The bare function has the answer, and the jobs are in order after it. -/
structure Agreed (x : Option (Scheduler V B)) (s' : Scheduler V B) : Prop where
  same : x = some s'
  figured : Figured s'

/-- A bare cancellation that has the answer of another one, when the workers are gone. -/
structure Mirrors (n : Nat) (bare : Bare.Cancel V B) (nested : Cancel V B) : Prop where
  cancels : Cancels Anything n nested
  agreed : ∀ s id reason, Sound Anything n s → s.terminated = true → Figured s →
    Agreed (bare s id reason) (nested s id reason).1

/-! ## Completions and answers -/

/-- Whoever is woken by a completion is on a worker, blocked, or has ended. -/
theorem Placed.not_spurious {busy : List StrandId} (h : Placed busy s) {b : BridgeId}
    {k : StrandId} (hb : s.bridge? b = some ⟨k, .pending⟩) (hst : s.strand? k = some st) :
    st.status.wake.2 ≠ .spurious := by
  obtain ⟨st', hst', hwhere⟩ := h.target hb
  rw [Option.some.inj (hst.symm.trans hst')]
  rcases hwhere with hend | ⟨-, hs | hs⟩
  · rw [(Status.terminal_stays hend true).2.2.2.2.2]
    exact nofun
  · rw [hs]
    decide
  · rw [hs]
    decide

theorem jobs_wake (alive : s.terminated = false) (id : StrandId) : (s.wake id).jobs = s.jobs := by
  obtain ⟨queue, counters, journal, channel, heq⟩ := wake_row alive id
  rw [heq]

theorem jobs_spawn (s : Scheduler V B) (r : SpawnRequest B) : (s.spawn r).1.jobs = s.jobs := by
  rcases spawn_cases s r with ⟨-, counters, journal, channel, heq⟩ |
    ⟨strands, counters, journal, channel, cause, heq, -, -⟩ <;> rw [heq]

theorem agreed_deliverWith (hn : Mirrors n bare nested) (h : Fit n s) (b : BridgeId)
    (w : Wakeup V) : Agreed (Bare.deliverWith bare s b w) (s.deliverWith nested b w).1 := by
  unfold Bare.deliverWith deliverWith
  cases hb : s.bridge? b with
  | none => exact ⟨rfl, h.figured⟩
  | some bridge =>
    dsimp only
    cases hc : bridge.claim? w with
    | none => exact ⟨rfl, h.figured⟩
    | some claimed =>
      dsimp only
      have hset : Figured (s.setBridge b claimed) := h.figured.of_jobs rfl
      cases hterm : s.terminated with
      | true =>
        have hgone : (s.setBridge b claimed).terminated = true := hterm
        unfold Bare.wakeWith wakeWith
        rw [if_pos hgone, if_pos hgone]
        exact hn.agreed _ _ _ (h.sound.setBridge b claimed) hterm hset
      | false =>
        have halive : (s.setBridge b claimed).terminated = false := hterm
        have hfigured : Figured ((s.setBridge b claimed).wake bridge.strand) :=
          hset.of_jobs (jobs_wake halive _)
        rw [wakeWith_of_alive halive]
        refine ⟨?_, hfigured⟩
        unfold Bare.wakeWith
        rw [if_neg (by simp [halive]), strand?_setBridge]
        cases hst : s.strand? bridge.strand with
        | none =>
          have hnobody : (s.setBridge b claimed).strand? bridge.strand = none := hst
          exact congrArg some (wake_none hnobody).symm
        | some st =>
          obtain ⟨busy, hplaced⟩ := h.placed hterm
          obtain ⟨hx, -⟩ := claim?_eq_some hc
          exact if_neg (hplaced.not_spurious (hb.trans (congrArg some hx)) hst)

theorem Fit.deliverWith (h : Fit n s) (hn : Mirrors n bare nested) (b : BridgeId) (w : Wakeup V) :
    Fit n (s.deliverWith nested b w).1 :=
  h.changes (changes_deliverWith hn.cancels h.sound trivial) (agreed_deliverWith hn h b w).figured

theorem agreed_performWith (hn : Mirrors n bare nested) (h : Fit n s)
    (effects : List (Effect V)) :
    Agreed (Bare.performWith bare s effects) (s.performWith nested effects) := by
  induction effects generalizing s with
  | nil => exact ⟨rfl, h.figured⟩
  | cons e rest ih =>
    cases e with
    | panic => exact ⟨rfl, h.figured⟩
    | complete b w =>
      have hrest := ih (h.deliverWith hn b w)
      refine ⟨?_, hrest.figured⟩
      rw [Bare.performWith, (agreed_deliverWith hn h b w).same]
      exact hrest.same

theorem agreed_answerWith (hn : Mirrors n bare nested) (h : Fit n s) (j : JobId)
    (answer : Outcome (List V)) :
    Agreed (Bare.answerWith bare s j answer) (s.answerWith nested j answer) := by
  unfold Bare.answerWith answerWith
  cases hj : s.job? j with
  | none => exact ⟨rfl, h.figured⟩
  | some entry =>
    have hfit : Fit n { s with journal := s.journal.push (.answered j answer) } :=
      h.changes (.single (.answered s j answer)) (h.figured.of_jobs rfl)
    exact agreed_performWith hn hfit (entry.callback answer)

/-- A job is changed as its rule says. -/
theorem Fit.updateJob (h : Fit n s) {j : JobId} {entry : JobEntry V B} (hj : s.job? j = some entry)
    {f : JobEntry V B → JobEntry V B} (hcallback : ∀ e, (f e).callback = e.callback)
    (hf : (f entry).Fits) : Fit n (s.updateJob j f) :=
  h.changes (.single (.job s j f hcallback)) (h.figured.updateJob hj hf)

theorem agreed_submitWith (hn : Mirrors n bare nested) (h : Fit n s) (j : JobId) (index : Nat)
    (r : Outcome V) :
    Agreed (Bare.submitWith bare s j index r) (s.submitWith nested j index r).1 := by
  unfold Bare.submitWith submitWith
  cases hj : s.job? j with
  | none => exact ⟨rfl, h.figured⟩
  | some entry =>
    dsimp only
    cases hsubmit : entry.job.submit index r with
    | error e => exact ⟨rfl, h.figured⟩
    | ok p =>
      obtain ⟨job, answer⟩ := p
      obtain ⟨hfits, haccounts⟩ := (h.figured j entry hj).submit hsubmit
      have hfit : Fit n (s.updateJob j fun e => { e with job := job }) :=
        h.updateJob hj (fun _ => rfl) hfits
      cases answer with
      | none => exact ⟨rfl, hfit.figured⟩
      | some answer =>
        dsimp only
        rw [if_pos (haccounts answer rfl)]
        exact agreed_answerWith hn hfit j answer

theorem Fit.submitWith (h : Fit n s) (hn : Mirrors n bare nested) (j : JobId) (index : Nat)
    (r : Outcome V) : Fit n (s.submitWith nested j index r).1 :=
  h.changes (changes_submitWith hn.cancels h.sound j index r)
    (agreed_submitWith hn h j index r).figured

/-! ## Launches -/

/-- The strand of an index is launched with an input that is there. -/
theorem Fit.launch (h : Fit n s) {j : JobId} {entry : JobEntry V B} (hj : s.job? j = some entry)
    {drive : Drive V B} (hdrive : entry.drive = some drive) {index : Nat}
    (hindex : index < entry.job.cursor) : Fit n (s.launch j drive index).1 := by
  have htaken : Figured (s.updateJob j fun e =>
      { e with drive := some { drive with inputs := drive.inputs.set index none } }) :=
    h.figured.updateJob hj ((h.figured j entry hj).take hdrive hindex)
  refine h.changes (changes_launch s j drive index) ?_
  unfold Scheduler.launch
  split
  · exact h.figured
  · dsimp only
    split
    · exact htaken
    next body hbody =>
      have hspawn : Figured ((s.updateJob j fun e =>
          { e with drive := some { drive with inputs := drive.inputs.set index none } }).spawn
            { body := body, admission := .invocation, hook := some ⟨j, index⟩ }).1 :=
        htaken.of_jobs (jobs_spawn _ _)
      split
      next heq =>
        rw [heq] at hspawn
        exact hspawn
      next heq =>
        rw [heq] at hspawn
        exact hspawn

/-- What the bare launch of the next strand comes to. -/
theorem agreed_launchNextWith (hn : Mirrors n bare nested) (j : JobId) (rounds : Nat)
    (h : Fit n s) :
    Bare.launchNextWith bare j rounds s = some (launchNextWith nested j rounds s) ∧
      Figured (launchNextWith nested j rounds s).1 := by
  -- On the rounds. A job that goes on to the next index is fit again by then.
  induction rounds generalizing s with
  | zero => exact ⟨rfl, h.figured⟩
  | succ rounds ih =>
    unfold Bare.launchNextWith launchNextWith
    cases hj : s.job? j with
    | none => exact ⟨rfl, h.figured⟩
    | some entry =>
      dsimp only
      cases hdrive : entry.drive with
      | none => exact ⟨rfl, h.figured⟩
      | some drive =>
        dsimp only
        have hentry := h.figured j entry hj
        have hclaimed : Fit n (s.updateJob j fun e => { e with job := entry.job.claim.1 }) :=
          h.updateJob hj (fun _ => rfl) hentry.claim
        cases hindex : entry.job.claim.2 with
        | none => exact ⟨rfl, hclaimed.figured⟩
        | some index =>
          dsimp only
          obtain ⟨hlt, rfl⟩ : entry.job.cursor < entry.job.length ∧ entry.job.cursor = index := by
            simpa [Job.claim] using hindex
          have hjob : (s.updateJob j fun e => { e with job := entry.job.claim.1 }).job? j =
              some { entry with job := entry.job.claim.1 } := by
            rw [job?_updateJob, if_pos rfl, hj, Option.map_some]
          have hlaunch := hclaimed.launch hjob hdrive (Nat.lt_succ_self entry.job.cursor)
          obtain ⟨input, hinput⟩ :=
            Option.isSome_iff_exists.mp (hentry.inputs drive hdrive _ (Nat.le_refl _) hlt)
          rw [Bare.launch, hinput, Option.map_some]
          generalize (s.updateJob j fun e => { e with job := entry.job.claim.1 }).launch j drive
            entry.job.cursor = launched at hlaunch ⊢
          obtain ⟨s', came⟩ := launched
          cases came with
          | launched => exact ⟨rfl, hlaunch.figured⟩
          | panicked p => exact ⟨rfl, hlaunch.figured⟩
          | refused failure =>
            dsimp only
            have hsubmit := hlaunch.submitWith hn j entry.job.cursor (.err failure)
            rw [(agreed_submitWith hn hlaunch j entry.job.cursor (.err failure)).same,
              Option.bind_some]
            split
            · exact ih hsubmit
            · exact ⟨rfl, hsubmit.figured⟩

theorem agreed_resolveWith (hn : Mirrors n bare nested) (h : Fit n s) (hook : Hook)
    (outcome : Outcome V) :
    Agreed (Bare.resolveWith bare s hook outcome) (s.resolveWith nested hook outcome) := by
  have hsubmit := h.submitWith hn hook.job hook.index outcome
  unfold Bare.resolveWith resolveWith
  rw [(agreed_submitWith hn h hook.job hook.index outcome).same, Option.bind_some]
  generalize (s.submitWith nested hook.job hook.index outcome).1 = told at hsubmit ⊢
  dsimp only
  cases hdrive : (told.job? hook.job).bind (·.drive) with
  | none => exact ⟨rfl, hsubmit.figured⟩
  | some drive =>
    dsimp only
    split
    · obtain ⟨hsame, hfigured⟩ :=
        agreed_launchNextWith hn hook.job (told.launchRounds hook.job) hsubmit
      exact ⟨by rw [hsame, Option.map_some], hfigured⟩
    · exact ⟨rfl, hsubmit.figured⟩

/-! ## Cancellations -/

/-- What is left to do when a strand has been cut off does not depend on where it was. -/
theorem agreed_cancelStep (hn : Mirrors n bare nested) (reason : Failure)
    (hcut : ∀ st, s.strand? id = some st → st.status.isTerminal = false →
      Fit n (s.cut id st.bridge)) (hf : Figured s) :
    Agreed (Bare.cancelStep bare s id reason) (cancelStep nested s id reason).1 := by
  unfold Bare.cancelStep
  cases hst : s.strand? id with
  | none =>
    rw [cancelStep_none hst]
    exact ⟨rfl, hf⟩
  | some st =>
    dsimp only
    cases hend : st.status.isTerminal with
    | true =>
      rw [cancelStep_terminal hst hend, Status.cancel?_eq_none_iff.mpr hend]
      exact ⟨rfl, hf⟩
    | false =>
      obtain ⟨status, hstatus⟩ : ∃ status, st.status.cancel? = some status := by
        refine Option.ne_none_iff_exists'.mp fun hnone => ?_
        rw [Status.cancel?_eq_none_iff.mp hnone] at hend
        cases hend
      rw [cancelStep_cut hst hend, hstatus]
      dsimp only
      have hfit := hcut st hst hend
      cases st.hook with
      | none => exact ⟨rfl, hfit.figured.of_jobs rfl⟩
      | some hook =>
        have hresolve := agreed_resolveWith hn hfit hook (.err reason)
        refine ⟨?_, hresolve.figured.of_jobs rfl⟩
        dsimp only
        rw [hresolve.same, Option.map_some]

theorem mirrors_cancelWithin (n : Nat) :
    Mirrors n (Bare.cancelWithin (V := V) (B := B) n) (cancelWithin n) := by
  -- On the depth, as the cancellations themselves are bounded.
  induction n with
  | zero => exact ⟨cancels_cancelWithin 0, fun s id reason _ _ hf => ⟨rfl, hf⟩⟩
  | succ n ih =>
    refine ⟨cancels_cancelWithin (n + 1), fun s id reason h gone hf => ?_⟩
    refine agreed_cancelStep ih reason (fun st hst hend => ?_) hf
    refine ⟨h.cut_pred hst hend, fun alive => ?_, hf.of_jobs (cut_jobs hst)⟩
    rw [(Steady.cut hst).terminated, gone] at alive
    cases alive

theorem mirrors_cancel : Mirrors n (Bare.cancel (V := V) (B := B)) cancel where
  cancels := cancels_cancel
  agreed := fun s id reason h gone hf =>
    (mirrors_cancelWithin s.live.length).agreed s id reason h.live gone hf

/-- A strand is cancelled from outside, unless it stands in the queue. -/
theorem agreed_cancel (h : Fit n s) (hwait : s.terminated = false → id ∉ s.queue.waiting)
    (reason : Failure) : Agreed (Bare.cancel s id reason) (s.cancel id reason).1 := by
  have hlive := h.sound.live
  cases hl : s.live.length with
  | zero =>
    unfold Bare.cancel cancel
    rw [hl]
    exact ⟨rfl, h.figured⟩
  | succ k =>
    unfold Bare.cancel cancel
    rw [hl] at hlive ⊢
    refine agreed_cancelStep (mirrors_cancelWithin k) reason (fun st hst hend => ?_) h.figured
    refine ⟨hlive.cut_pred hst hend, fun alive => ?_, h.figured.of_jobs (cut_jobs hst)⟩
    rw [(Steady.cut hst).terminated] at alive
    obtain ⟨busy, hplaced⟩ := h.placed alive
    exact ⟨_, hplaced.cut hst (hwait alive)⟩

end Scheduler
end CoopSched
