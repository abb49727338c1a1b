import CoopSched.Proofs.Scheduler.Stable
import CoopSched.Proofs.Shutdown.Unwinding

/-!
# Descent — the recursion comes to an end

Everything that a cancellation sets off comes to an end, from whatever state with the workers gone
it starts, and the bounded cancellations do just what the recursion does (`unrolls_cancelWithin`).
There are two measures. A cancellation that happens inside another one finds one unfinished strand
less; and between two cancellations a job can only go through the indices that it has left.
-/

namespace CoopSched
namespace Scheduler

variable {V B : Type} {n : Nat} {nested : Cancel V B} {s s' : Scheduler V B} {marks : List Mark}

/-- The workers are gone, no strand is added any more, and at most `n` have not ended. -/
structure Deserted (n : Nat) (s : Scheduler V B) : Prop where
  terminated : s.terminated = true
  closed : s.queue.closed = true
  left : s.unfinished.card ≤ n

theorem Deserted.spends (h : Deserted n s) (hspends : Spends s marks s') : Deserted n s' where
  terminated := hspends.terminated.trans h.terminated
  closed := hspends.closed.trans h.closed
  left := (Finset.card_le_card hspends.subset).trans h.left

/-- A cancellation that has begun leaves one strand less to what it sets off. -/
theorem Deserted.pred (h : Deserted (n + 1) s) (hspends : Spends s marks s') {id : StrandId}
    (hid : id ∈ opened marks) : Deserted n s' where
  terminated := hspends.terminated.trans h.terminated
  closed := hspends.closed.trans h.closed
  left := by
    have hless : s'.unfinished ⊂ s.unfinished := by
      refine Finset.ssubset_iff_subset_ne.mpr ⟨hspends.subset, fun heq => ?_⟩
      have hmem := hspends.opened_unfinished id hid
      rw [← heq] at hmem
      exact ((hspends.unfinished id).mp hmem).2 hid
    exact Nat.le_of_lt_succ ((Finset.card_lt_card hless).trans_le h.left)

/-- Up to `n` unfinished strands, the function does what the recursion does. -/
def Unrolls (n : Nat) (nested : Cancel V B) : Prop :=
  ∀ s id reason, Deserted n s → ∃ marks, Unwinds s (.cancel id reason) marks (nested s id reason).1

namespace Unrolls

/-- A callback comes to an end: each bridge that it completes cancels at most one strand. -/
theorem performWith (hn : Unrolls n nested) (h : Deserted n s) (es : List (Effect V)) :
    ∃ marks, Unwinds s (.effects es) marks (s.performWith nested es) := by
  induction es generalizing s with
  | nil => exact ⟨[], .done s⟩
  | cons e rest ih =>
    cases e with
    | panic => exact ⟨[], .panicked s rest⟩
    | complete b w =>
      show ∃ marks, Unwinds s _ marks ((s.deliverWith nested b w).1.performWith nested rest)
      have hlost : (∀ x, s.bridge? b = some x → x.claim? w = none) →
          (s.deliverWith nested b w).1 = s →
          ∃ marks, Unwinds s (.effects (.complete b w :: rest)) marks
            ((s.deliverWith nested b w).1.performWith nested rest) := by
        intro hno hsame
        rw [hsame]
        obtain ⟨marks, hrest⟩ := ih h
        exact ⟨marks, .lost hno hrest⟩
      cases hb : s.bridge? b with
      | none => exact hlost (fun x hx => by cases hb.symm.trans hx) (by rw [deliverWith, hb])
      | some x =>
        cases hclaim : x.claim? w with
        | none =>
          refine hlost (fun y hy => ?_) (by simp only [deliverWith, hb, hclaim])
          rwa [← Option.some.inj (hb.symm.trans hy)]
        | some claimed =>
          have hsame : claimed.strand = x.strand := by
            obtain ⟨-, rfl⟩ := claim?_eq_some hclaim
            rfl
          have hset := Spends.setBridge hb hsame
          have hstrike : (s.deliverWith nested b w).1 =
              (nested (s.setBridge b claimed) x.strand shutDownReason).1 := by
            have hgone : (s.setBridge b claimed).terminated = true := h.terminated
            simp only [deliverWith, hb, hclaim, wakeWith, hgone, if_true]
          rw [hstrike]
          have hclaimed := h.spends hset
          obtain ⟨marks, hfirst⟩ := hn _ x.strand shutDownReason hclaimed
          obtain ⟨marks', hrest⟩ := ih (hclaimed.spends (hfirst.spends hclaimed.closed))
          exact ⟨marks ++ marks', .won h.terminated hb hclaim hfirst hrest⟩

theorem submitWith (hn : Unrolls n nested) (h : Deserted n s) (j : JobId) (index : Nat)
    (r : Outcome V) :
    ∃ marks, Unwinds s (.submit j index r) marks (s.submitWith nested j index r).1 := by
  unfold Scheduler.submitWith
  cases hj : s.job? j with
  | none => exact ⟨[], .refused fun entry hentry => by cases hj.symm.trans hentry⟩
  | some entry =>
    dsimp only
    cases hsubmit : entry.job.submit index r with
    | error e =>
      refine ⟨[], .refused fun entry' hentry => ⟨e, ?_⟩⟩
      rwa [← Option.some.inj (hj.symm.trans hentry)]
    | ok given =>
      obtain ⟨job, answer⟩ := given
      cases answer with
      | none => exact ⟨[], .accepted hj hsubmit⟩
      | some answer =>
        have htold := (Spends.setJob hj (.submit hsubmit)).trans (.tellAnswer _ j answer)
        obtain ⟨marks, hset⟩ := hn.performWith (h.spends htold) (entry.callback answer)
        have hanswer : (s.setJob j job).answerWith nested j answer =
            ((s.setJob j job).tellAnswer j answer).performWith nested (entry.callback answer) := by
          have hj' : (s.setJob j job).job? j = some { entry with job := job } := by
            show (s.updateJob j _).job? j = _
            rw [job?_updateJob, if_pos rfl, hj]
            rfl
          simp only [answerWith, hj']
          rfl
        exact ⟨marks, .answered hj hsubmit (by rw [← hanswer] at hset; exact hset)⟩

/-- A job comes to the end of its indices: each round hands one out. -/
theorem launchNextWith (hn : Unrolls n nested) (j : JobId) (rounds : Nat) (h : Deserted n s)
    (henough : ∀ entry, s.job? j = some entry → entry.job.length - entry.job.cursor < rounds) :
    ∃ marks, Unwinds s (.launchNext j) marks (Scheduler.launchNextWith nested j rounds s).1 := by
  induction rounds generalizing s with
  | zero =>
    refine ⟨[], .undriven ?_⟩
    cases hj : s.job? j with
    | none => rfl
    | some entry => exact absurd (henough entry hj) (Nat.not_lt_zero _)
  | succ rounds ih =>
    unfold Scheduler.launchNextWith
    cases hj : s.job? j with
    | none => exact ⟨[], .undriven (by rw [hj]; rfl)⟩
    | some entry =>
      dsimp only
      cases hdrive : entry.drive with
      | none => exact ⟨[], .undriven (by rw [hj]; exact hdrive)⟩
      | some drive =>
        have hasked : (s.updateJob j fun e => { e with job := entry.job.claim.1 }) =
          s.asked j entry := rfl
        dsimp only
        rw [hasked]
        cases hclaim : entry.job.claim.2 with
        | none => exact ⟨[], .exhausted hj hdrive hclaim⟩
        | some index =>
          dsimp only
          cases hlaunch : (s.asked j entry).launch j drive index with
          | mk s₁ l =>
            cases l with
            | launched => exact ⟨_, .launched hj hdrive hclaim hlaunch fun _ hl => by cases hl⟩
            | panicked p => exact ⟨_, .launched hj hdrive hclaim hlaunch fun _ hl => by cases hl⟩
            | refused failure =>
              have hclaimed := Spends.claimed hj hdrive hclaim hlaunch h.closed
              have hleft := h.spends hclaimed
              obtain ⟨marks, hsubmit⟩ := hn.submitWith hleft j index (.err failure)
              dsimp only
              cases hchained : drive.chained with
              | false => exact ⟨_, .stopped hj hdrive hclaim hlaunch hsubmit hchained⟩
              | true =>
                have hspends := hclaimed.trans (hsubmit.spends hleft.closed)
                have hfewer : ∀ entry',
                    (s₁.submitWith nested j index (.err failure)).1.job? j = some entry' →
                    entry'.job.length - entry'.job.cursor < rounds := by
                  intro entry' hj'
                  obtain ⟨entry'', hj'', hentailed⟩ := hspends.jobs j entry hj
                  obtain rfl := Option.some.inj (hj'.symm.trans hj'')
                  have hne : drawn j ([.claim j index] ++ marks) ≠ [] := by
                    simp [drawn]
                  have hfewer := hentailed.drawn.fewer hne
                  have hless := henough entry hj
                  omega
                obtain ⟨marks', hnext⟩ := ih (h.spends hspends) hfewer
                exact ⟨_, .goesOn hj hdrive hclaim hlaunch hsubmit hchained hnext⟩

theorem resolveWith (hn : Unrolls n nested) (h : Deserted n s) (hook : Hook) (r : Outcome V) :
    ∃ marks, Unwinds s (.resolve hook r) marks (s.resolveWith nested hook r) := by
  obtain ⟨marks, hsubmit⟩ := hn.submitWith h hook.job hook.index r
  have hleft := h.spends (hsubmit.spends h.closed)
  unfold Scheduler.resolveWith
  dsimp only
  generalize (s.submitWith nested hook.job hook.index r).1 = s₁ at *
  cases hdrive : (s₁.job? hook.job).bind (·.drive) with
  | none => exact ⟨marks, .resolved hsubmit (by rw [chains, hdrive]; rfl)⟩
  | some drive =>
    have hchains : s₁.chains hook.job = drive.chained := by
      rw [chains, hdrive]
      rfl
    dsimp only
    cases hchained : drive.chained with
    | false => exact ⟨marks, .resolved hsubmit (hchains.trans hchained)⟩
    | true =>
      obtain ⟨marks', hnext⟩ := hn.launchNextWith hook.job (s₁.launchRounds hook.job) hleft
        fun entry hj => by
          rw [launchRounds, hj]
          exact Nat.lt_succ_of_le (Nat.sub_le _ _)
      exact ⟨marks ++ marks', .chained hsubmit (hchains.trans hchained) hnext⟩

/-- One level more carries one strand more. -/
theorem cancelStep (hn : Unrolls n nested) : Unrolls (n + 1) (cancelStep nested) := by
  intro s id reason h
  cases hst : s.strand? id with
  | none =>
    rw [cancelStep_none hst]
    exact ⟨[], .ended (fun st hst' => by cases hst.symm.trans hst') reason⟩
  | some st =>
    cases hend : st.status.isTerminal with
    | true =>
      rw [cancelStep_terminal hst hend]
      refine ⟨[], .ended (fun st' hst' => ?_) reason⟩
      rwa [← Option.some.inj (hst.symm.trans hst')]
    | false =>
      rw [cancelStep_cut hst hend]
      cases hhook : st.hook with
      | none => exact ⟨_, .alone hst hend hhook reason⟩
      | some hook =>
        have hcut := h.pred (Spends.cut hst hend) List.mem_cons_self
        obtain ⟨marks, hset⟩ := hn.resolveWith hcut hook (.err reason)
        exact ⟨_, .hooked hst hend hhook hset⟩

end Unrolls

/-- **As many levels as there are unfinished strands are enough.** -/
theorem unrolls_cancelWithin (n : Nat) : Unrolls n (cancelWithin (V := V) (B := B) n) := by
  induction n with
  | zero =>
    intro s id reason h
    refine ⟨[], .ended (fun st hst => ?_) reason⟩
    have hnobody : s.unfinished = ∅ := Finset.card_eq_zero.mp (Nat.le_zero.mp h.left)
    by_contra hnot
    have hmem : id.number ∈ s.unfinished := mem_unfinished.mpr ⟨st, hst, by simpa using hnot⟩
    rw [hnobody] at hmem
    exact absurd hmem (Finset.notMem_empty _)
  | succ n ih => exact ih.cancelStep

/-- **The recursion comes to an end**, from every state whose workers are gone. -/
theorem exists_unwinds (gone : s.terminated = true) (hclosed : s.queue.closed = true)
    (ids : List StrandId) (reason : Failure) :
    ∃ marks s', Unwinds s (.strands ids reason) marks s' := by
  induction ids generalizing s with
  | nil => exact ⟨[], s, .nil s reason⟩
  | cons id rest ih =>
    obtain ⟨marks, hfirst⟩ := unrolls_cancelWithin s.unfinished.card s id reason
      ⟨gone, hclosed, Nat.le_refl _⟩
    have hspends := hfirst.spends hclosed
    obtain ⟨marks', s', hrest⟩ := ih (hspends.terminated.trans gone) (hspends.closed.trans hclosed)
    exact ⟨marks ++ marks', s', .cons hfirst hrest⟩

/-- **And the clean-up is what the recursion comes to.** -/
theorem Stable.unwinds {Ok : BridgeId → Wakeup V → Prop} {drained : Bool} (h : Stable Ok drained s)
    (gone : s.terminated = true) (hwaiting : s.queue.waiting = []) (ids : List StrandId) :
    ∃ marks, Unwinds s (.strands ids s.cleanUpReason) marks
      (cancelAll s.cleanUpReason ids s).1 := by
  induction ids generalizing s drained with
  | nil => exact ⟨[], .nil s _⟩
  | cons id rest ih =>
    obtain ⟨n, hn⟩ := h.sound
    have hclosed := (hn.closed gone).1
    obtain ⟨marks, hfirst⟩ : ∃ marks, Unwinds s (.cancel id s.cleanUpReason) marks
        (s.cancel id s.cleanUpReason).1 :=
      unrolls_cancelWithin s.live.length s id s.cleanUpReason
        ⟨gone, hclosed, (hn.live.closed gone).2⟩
    have hspends := hfirst.spends hclosed
    have hnot : id ∉ s.queue.waiting := by
      rw [hwaiting]
      exact List.not_mem_nil
    have hreason := cleanUpReason_congr (h.mid.cancel hnot s.cleanUpReason).steady.phase
    obtain ⟨marks', hrest⟩ := ih (h.cancel gone hwaiting id s.cleanUpReason)
      (hspends.terminated.trans gone) (by rw [cancel_queue hn gone, hwaiting])
    rw [hreason] at hrest
    exact ⟨marks ++ marks', .cons hfirst hrest⟩

end Scheduler
end CoopSched
