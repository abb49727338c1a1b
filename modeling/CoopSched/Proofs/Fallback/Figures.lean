import CoopSched.Proofs.Fallback.Bare
import CoopSched.Proofs.Job.Course
import CoopSched.Proofs.Scheduler.Places
import CoopSched.Proofs.Scheduler.Turns

/-!
# Figures — what keeps the fallbacks from being needed

Where a strand is says most of it (`Placed`). Two things are left. The figures of a job agree with
each other, and the inputs that were not claimed are all there (`Figured`), whoever else submits to
the job or claims from it: a claim takes no input, and an input is taken only for an index that was
claimed. And a strand that waits without a bridge has something left to be told (`Primed`).
-/

namespace CoopSched

variable {V B : Type}

/-! ## A job -/

namespace Job

variable {length k : Nat} {acc : List (Nat × Outcome V)} {j j' : Job V}

theorem Stands.claim (h : Stands length acc k j) : Stands length acc (k + 1) j.claim.1 := by
  have hcall := (h.call .claim).2
  simpa [Job.call, accepted, claims] using hcall

/-- An answer that is a failure was recorded, for the job to have had one. -/
theorem Answers.accounts {answer : Outcome (List V)} (h : Answers length acc answer)
    (hfirst : j.firstFailure = firstFailing acc) : Scheduler.Bare.accounts j answer = true := by
  cases answer with
  | ok vs => rfl
  | err e =>
    obtain ⟨before, i, after, rfl, -⟩ := h
    rw [Scheduler.Bare.accounts, hfirst]
    cases hnone : firstFailing (before ++ (i, .err e) :: after) with
    | some p => rfl
    | none =>
      have hok := firstFailing_eq_none_iff.mp hnone (i, .err e)
        (List.mem_append_right _ List.mem_cons_self)
      cases hok

/-- A submission that is taken lets the job stand, and what it answers accounts for the slots. -/
theorem Stands.submit (h : Stands length acc k j) {i : Nat} {r : Outcome V}
    {answer : Option (Outcome (List V))} (hsubmit : j.submit i r = .ok (j', answer)) :
    Stands length (acc ++ [(i, r)]) k j' ∧
      ∀ a, answer = some a → Scheduler.Bare.accounts j' a = true := by
  obtain ⟨hreplies, hstands⟩ := h.call (.submit i r)
  simp only [Job.call, hsubmit] at hreplies hstands
  have hstands' : Stands length (acc ++ [(i, r)]) k j' := hstands
  refine ⟨hstands', ?_⟩
  rintro a rfl
  simp only [Replies] at hreplies
  split at hreplies
  · cases hreplies
  split at hreplies
  · cases hreplies
  split at hreplies
  · obtain ⟨a', heq, hanswers⟩ := hreplies
    obtain rfl : a = a' := by
      injection heq with heq
      exact Option.some.inj heq
    exact hanswers.accounts hstands'.first
  · cases hreplies

end Job

/-- The figures of a job belong to the submissions that it accepted, and every input from the
    cursor on is there. -/
structure JobEntry.Fits (entry : JobEntry V B) : Prop where
  stands : ∃ length acc k, Job.Stands length acc k entry.job
  inputs : ∀ d, entry.drive = some d → ∀ i, entry.job.cursor ≤ i → i < entry.job.length →
    (d.inputs[i]?).join.isSome = true

namespace JobEntry.Fits

variable {entry : JobEntry V B}

theorem start (length : Nat) (callback : Callback V) (d : Option (Drive V B))
    (hinputs : ∀ d', d = some d' → ∀ i < length, (d'.inputs[i]?).join.isSome = true) :
    JobEntry.Fits { job := (Job.start length).1, callback := callback, drive := d } := by
  have hstands := Job.Stands.start (V := V) length
  refine ⟨⟨length, [], 0, hstands⟩, fun d' hd i _ hi => hinputs d' hd i ?_⟩
  rwa [Job.length, hstands.slots_length] at hi

theorem claim (h : entry.Fits) : JobEntry.Fits { entry with job := entry.job.claim.1 } := by
  obtain ⟨length, acc, k, hstands⟩ := h.stands
  exact ⟨⟨length, acc, k + 1, hstands.claim⟩,
    fun d hd i hi hlt => h.inputs d hd i (Nat.le_of_succ_le hi) hlt⟩

theorem submit (h : entry.Fits) {i : Nat} {r : Outcome V} {job : Job V}
    {answer : Option (Outcome (List V))} (hsubmit : entry.job.submit i r = .ok (job, answer)) :
    JobEntry.Fits { entry with job := job } ∧
      ∀ a, answer = some a → Scheduler.Bare.accounts job a = true := by
  obtain ⟨length, acc, k, hstands⟩ := h.stands
  obtain ⟨hstands', haccounts⟩ := hstands.submit hsubmit
  refine ⟨⟨⟨length, _, k, hstands'⟩, fun d hd i hi hlt => h.inputs d hd i ?_ ?_⟩, haccounts⟩
  · rwa [hstands.cursor, ← hstands'.cursor]
  · rwa [Job.length, hstands.slots_length, ← hstands'.slots_length]

/-- The input of an index that was claimed is not needed any more. -/
theorem take (h : entry.Fits) {drive : Drive V B} (hdrive : entry.drive = some drive) {index : Nat}
    (hindex : index < entry.job.cursor) :
    JobEntry.Fits { entry with
      drive := some { drive with inputs := drive.inputs.set index none } } := by
  refine ⟨h.stands, fun d hd i hi hlt => ?_⟩
  obtain rfl := Option.some.inj hd
  dsimp only
  rw [List.getElem?_set_ne (Nat.ne_of_lt (hindex.trans_le hi))]
  exact h.inputs drive hdrive i hi hlt

end JobEntry.Fits

namespace Scheduler

variable {s s' : Scheduler V B} {j : JobId} {entry : JobEntry V B}

/-! ## All jobs -/

/-- The figures of all jobs agree, and no input is missing. -/
def Figured (s : Scheduler V B) : Prop := ∀ j entry, s.job? j = some entry → entry.Fits

theorem Figured.of_jobs (h : Figured s) (hjobs : s'.jobs = s.jobs) : Figured s' := by
  intro j entry hj
  rw [job?, hjobs] at hj
  exact h j entry hj

theorem Figured.updateJob (h : Figured s) (hj : s.job? j = some entry)
    {f : JobEntry V B → JobEntry V B} (hf : (f entry).Fits) : Figured (s.updateJob j f) := by
  intro k entry' hk
  rw [job?_updateJob] at hk
  split at hk
  next heq =>
    subst heq
    rw [hj] at hk
    rw [← Option.some.inj hk]
    exact hf
  next => exact h k entry' hk

theorem Figured.add (h : Figured s) (hentry : entry.Fits) :
    Figured { s with jobs := s.jobs.add entry } := by
  intro k entry' hk
  have hk' : (s.jobs.add entry).get? k.number = some entry' := hk
  rw [Table.get?_add] at hk'
  split at hk'
  · rw [← Option.some.inj hk']
    exact hentry
  · exact h k entry' hk'

theorem Figured.claim (h : Figured s) (j : JobId) : Figured (s.claim j).1 := by
  unfold Scheduler.claim
  split
  · exact h
  next entry hj => exact h.updateJob hj (h j entry hj).claim

/-! ## What strands are told -/

/-- A strand that waits, and for no bridge, has something left to be told. -/
def Primed (s : Scheduler V B) : Prop :=
  ∀ id st, s.strand? id = some st → st.status = .runnable ∨ st.status = .blocked →
    st.bridge = none → st.wakeup.isSome = true

theorem Primed.rows (h : Primed s) (hr : Rows s s') : Primed s' := by
  intro id st' hst' hs' hslot'
  cases hst : s.strand? id with
  | none =>
    rw [(hr.new id st' hst hst').wakeup]
    rfl
  | some st =>
    obtain ⟨last, hlast, hlater⟩ := hr.old id st hst
    obtain rfl := Option.some.inj (hlast.symm.trans hst')
    rw [hlater.wakeup]
    refine h id st hst ?_ (hlater.bridge.symm.trans hslot')
    rcases hlater.status with hs | hs
    · rwa [← hs]
    · rw [hs] at hs'
      cases hold : st.status with
      | runnable => exact Or.inl rfl
      | blocked => exact Or.inr rfl
      | _ =>
        rw [hold] at hs'
        rcases hs' with hs' | hs' <;> cases hs'

/-- The strand that makes a move is left something to be told if it is to wait without a bridge. -/
theorem Primed.own (h : Primed s) {id : StrandId} {st st₁ : Strand V B} (hown : Own s s' id st st₁)
    (hself : st₁.status = .runnable ∨ st₁.status = .blocked → st₁.bridge = none →
      st₁.wakeup.isSome = true) : Primed s' := by
  intro k st' hst' hs hslot
  rw [hown.rows] at hst'
  split at hst'
  · rw [← Option.some.inj hst'] at hs hslot ⊢
    exact hself hs hslot
  · exact h k st' hst' hs hslot

theorem Primed.turn {m : Move V B} (h : Primed s) (ht : Turn s m s') : Primed s' := by
  cases ht with
  | quiet _ _ _ hstill =>
    intro id st hst
    exact h id st ((hstill.strands id).symm.trans hst)
  | issue _ _ _ _ _ hown => exact h.own hown fun _ hslot => by cases hslot
  | begun _ _ _ hown => exact h.own hown fun hs => by rcases hs with hs | hs <;> cases hs
  | resumed _ _ _ _ hown => exact h.own hown fun hs => by rcases hs with hs | hs <;> cases hs
  | ended _ _ _ hown hover =>
    refine h.own hown fun hs => ?_
    rcases hs with hs | hs <;> rw [hs] at hover <;> cases hover
  | requeued _ _ hown _ _ hwakeup =>
    refine h.own hown fun _ _ => ?_
    rw [hwakeup]
    rfl
  | parked _ _ _ hown _ hslot₁ =>
    refine h.own hown fun _ hslot => ?_
    rw [hslot₁] at hslot
    cases hslot
  | awaiting _ _ _ hown _ hslot₁ =>
    refine h.own hown fun _ hslot => ?_
    rw [hslot₁] at hslot
    cases hslot

/-- **As long as there are workers, whoever waits without a bridge has something left to be
    told.** -/
theorem Initial.primed_run (hs : Initial s) {ms : List (Move V B)} (ha : s.Admissible ms)
    (alive : (s.run ms).terminated = false) : Primed (s.run ms) := by
  -- On the moves, from the end: there were workers before the last move if there are any after it.
  induction ms using List.reverseRecOn with
  | nil =>
    intro id st hst
    rw [run_nil, strand?, hs.empty.1, get?_empty] at hst
    cases hst
  | append_singleton before m ih =>
    rw [admissible_append] at ha
    obtain ⟨hbefore, hm, -⟩ := ha
    rw [run_snoc] at alive ⊢
    have hapart := (hs.stable_run hbefore).apart hm (respects_all _ m)
    have alive' := hapart.alive alive
    obtain ⟨s₁, hturn, hrows⟩ := hapart.rows alive'
    exact ((ih hbefore alive').turn hturn).rows hrows

end Scheduler
end CoopSched
