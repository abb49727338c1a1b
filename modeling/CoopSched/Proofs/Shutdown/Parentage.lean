import CoopSched.Proofs.Invocation.Start
import CoopSched.Proofs.Scheduler.Turns
import CoopSched.Proofs.Shutdown.Ascending

/-!
# Parentage — a callback looks back at older strands

A job is founded by a move, and its strands come after that, so their numbers are not below the
number that was next then (`Founded`). The callback with which a strand parks on an invocation
completes the bridge of that strand, which was there before. So where no other callback completes
bridges (`Move.IsTame`), a callback only ever completes bridges of strands that are older than those
of its job (`Initial.parented_run`).
-/

namespace CoopSched
namespace Scheduler

variable {V B : Type} {s s' : Scheduler V B}

/-! ## Which jobs there are -/

/-- Only known jobs are there, and the next one to come is not among them. -/
structure Known (known : JobId → Prop) (s : Scheduler V B) : Prop where
  hooked : Hooked s
  next : ¬ known ⟨s.jobs.next⟩
  jobs : ∀ j entry, s.job? j = some entry → known j

theorem Known.of_jobs {known : JobId → Prop} (h : Known known s) (hhooked : Hooked s')
    (hnext : s'.jobs.next = s.jobs.next)
    (hjobs : ∀ j entry', s'.job? j = some entry' → ∃ entry, s.job? j = some entry) :
    Known known s' where
  hooked := hhooked
  next := by rw [hnext]; exact h.next
  jobs := fun j entry' hj' => by
    obtain ⟨entry, hj⟩ := hjobs j entry' hj'
    exact h.jobs j entry hj

theorem Known.of_same {known : JobId → Prop} (h : Known known s) (hhooked : Hooked s')
    (hjobs : s'.jobs = s.jobs) : Known known s' :=
  h.of_jobs hhooked (by rw [hjobs]) fun j entry' hj' => ⟨entry', by rwa [job?, ← hjobs]⟩

/-- A move that does not found a job leaves it at the known ones. -/
theorem watches_known (known : JobId → Prop) :
    Watches (fun j => ¬ known j) (fun _ _ => True) (Known known : Scheduler V B → Prop) where
  change := by
    intro s s' hb h
    have hhooked := watches_hooked.change (hb.mono fun _ hj => hj.elim) h.hooked
    cases hb with
    | wake alive id =>
      obtain ⟨queue, counters, journal, channel, heq⟩ := wake_row alive id
      exact h.of_same hhooked (by rw [heq])
    | job hj hf =>
      refine h.of_jobs hhooked (Table.next_update _ _ _) fun i entry' hi => ?_
      rw [job?_updateJob] at hi
      split at hi
      · obtain ⟨entry, hentry, -⟩ := Option.map_eq_some_iff.mp hi
        exact ⟨entry, hentry⟩
      · exact ⟨entry', hi⟩
    | addJob entry hnew hok => exact absurd h.next hnew
    | launch body hook hj hentry =>
      refine h.of_same hhooked ?_
      rcases spawn_cases s { body := body, admission := .invocation, hook := some hook } with
        ⟨-, _, _, _, heq⟩ | ⟨_, _, _, _, _, heq, -, -⟩ <;> rw [heq]
    | cut hst hend hhook hover => exact h.of_same hhooked (cut_jobs hst)
    | _ => exact h.of_same hhooked rfl
  callbacks := fun _ _ _ => trivial
  cut_off := by
    intro levels s id st hook reason h hst hend hhook hstrange
    obtain ⟨entry, hj⟩ := h.hooked id st hook hst hhook
    exact absurd (h.jobs _ entry hj) hstrange
  own := by
    intro s s' hs h
    have hhooked := watches_hooked.own (hs.mono fun _ hj => hj.elim) h.hooked
    cases hs with
    | still hstrands hjobs hhushed hover => exact h.of_same hhooked hjobs
    | row hst hstrands hstays hjobs hhushed hover => exact h.of_same hhooked hjobs
    | spawn r hhook hparent =>
      refine h.of_same hhooked ?_
      rcases spawn_cases s r with ⟨-, _, _, _, heq⟩ | ⟨_, _, _, _, _, heq, -, -⟩ <;> rw [heq]
    | finish hst hrun hhook ok =>
      obtain ⟨counters, journal, channel, heq⟩ := markFinished_eq s _ ok
      exact h.of_same hhooked (by rw [heq])
  finished := by
    intro s id st hook outcome h hst hrun hhook hstrange
    obtain ⟨entry, hj⟩ := h.hooked id st hook hst hhook
    exact absurd (h.jobs _ entry hj) hstrange

/-! ## What a job was founded with -/

/-- The job has its callback, and the numbers of its strands are not below `q`. -/
structure Founded (j : JobId) (c : Callback V) (q : Nat) (s : Scheduler V B) : Prop where
  entry : ∃ entry, s.job? j = some entry ∧ entry.callback = c
  next : q ≤ s.strands.next
  strands : ∀ k st hook, s.strand? k = some st → st.hook = some hook → hook.job = j → q ≤ k.number

section Founded

variable {j : JobId} {c : Callback V} {q : Nat}

theorem Founded.of_rows (h : Founded j c q s)
    (hentry : ∀ entry, s.job? j = some entry →
      ∃ entry', s'.job? j = some entry' ∧ entry'.callback = entry.callback)
    (hnext : s.strands.next ≤ s'.strands.next)
    (hrow : ∀ k st' hook, s'.strand? k = some st' → st'.hook = some hook →
      s.strands.next ≤ k.number ∨ ∃ st, s.strand? k = some st ∧ st.hook = some hook) :
    Founded j c q s' where
  entry := by
    obtain ⟨entry, hj, hc⟩ := h.entry
    obtain ⟨entry', hj', hsame⟩ := hentry entry hj
    exact ⟨entry', hj', hsame.trans hc⟩
  next := h.next.trans hnext
  strands := by
    intro k st' hook hst' hhook hjob
    rcases hrow k st' hook hst' hhook with hnew | ⟨st, hst, hold⟩
    · exact h.next.trans hnew
    · exact h.strands k st hook hst hold hjob

theorem Founded.of_row (h : Founded j c q s) {id : StrandId} {f : Strand V B → Strand V B}
    (hstrands : s'.strands = s.strands.update id.number f) (hjobs : s'.jobs = s.jobs)
    (hf : ∀ st, s.strand? id = some st → (f st).hook = st.hook) : Founded j c q s' := by
  refine h.of_rows (fun entry hj => ⟨entry, by rw [job?, hjobs]; exact hj, rfl⟩)
    (by rw [hstrands, Table.next_update]) fun k st' hook hst' hhook => Or.inr ?_
  rw [strand?_of_update hstrands] at hst'
  split at hst'
  next hk =>
    obtain ⟨st, hst, rfl⟩ := Option.map_eq_some_iff.mp hst'
    exact ⟨st, hst, (hf st (hk ▸ hst)).symm.trans hhook⟩
  next => exact ⟨st', hst', hhook⟩

theorem Founded.spawn (h : Founded j c q s) (r : SpawnRequest B) :
    Founded j c q (s.spawn r).1 := by
  rcases spawn_cases s r with ⟨-, _, _, _, heq⟩ | ⟨_, _, _, _, _, heq, hget, hnext⟩ <;> rw [heq]
  · refine h.of_rows (fun entry hj => ⟨entry, hj, rfl⟩) (by simp [Table.next_add])
      fun k st' hook hst' hhook => ?_
    have hread : (s.strands.add _).get? k.number = some st' := hst'
    rw [Table.get?_add] at hread
    split at hread
    next hk => exact Or.inl hk.ge
    · exact Or.inr ⟨st', hread, hhook⟩
  · exact h.of_rows (fun entry hj => ⟨entry, hj, rfl⟩) hnext fun k st' hook hst' hhook =>
      Or.inr ⟨st', (hget k.number).symm.trans hst', hhook⟩

theorem watches_founded :
    Watches (fun _ => False) (fun _ _ => True) (Founded j c q : Scheduler V B → Prop) where
  change := by
    intro s s' hb h
    cases hb with
    | setBridge hb x => exact ⟨h.entry, h.next, h.strands⟩
    | wake alive id =>
      obtain ⟨queue, counters, journal, channel, heq⟩ := wake_row alive id
      exact h.of_row (f := Strand.woken) (by rw [heq]) (by rw [heq]) fun _ _ => rfl
    | answered hj hentry answer => exact ⟨h.entry, h.next, h.strands⟩
    | job hj hf =>
      refine h.of_rows (fun entry hentry => ?_) le_rfl fun k st' hook hst' hhook =>
        Or.inr ⟨st', hst', hhook⟩
      rw [job?_updateJob, hentry]
      split
      · exact ⟨_, rfl, hf entry⟩
      · exact ⟨entry, rfl, rfl⟩
    | addJob new hnew hok =>
      refine h.of_rows (fun entry hentry => ⟨entry, ?_, rfl⟩) le_rfl fun k st' hook hst' hhook =>
        Or.inr ⟨st', hst', hhook⟩
      show (s.jobs.add new).get? j.number = some entry
      rw [Table.get?_add, if_neg (Nat.ne_of_lt (Table.lt_next_of_get? hentry))]
      exact hentry
    | launch body hook hj hentry => exact h.spawn _
    | cut hst hend hhook hover =>
      obtain ⟨counters, journal, channel, heq⟩ := cut_eq hst
      exact h.of_row (f := Strand.cut) (by rw [heq]) (by rw [heq]) fun _ _ => rfl
    | retire id kept => exact h.of_row (f := (·.publish kept)) rfl rfl fun _ _ => rfl
  callbacks := fun _ _ _ => trivial
  cut_off := fun _ _ _ _ hwatched => hwatched.elim
  own := by
    intro s s' hs h
    cases hs with
    | still hstrands hjobs hhushed hover =>
      exact h.of_rows (fun entry hj => ⟨entry, by rw [job?, hjobs]; exact hj, rfl⟩)
        (by rw [hstrands]) fun k st' hook hst' hhook =>
          Or.inr ⟨st', by rw [← hst', strand?, strand?, hstrands], hhook⟩
    | row hst hstrands hstays hjobs hhushed hover =>
      refine h.of_row hstrands hjobs fun st' hst' => ?_
      rw [← Option.some.inj (hst.symm.trans hst')]
      exact hstays.hook
    | spawn r hhook hparent => exact h.spawn r
    | finish hst hrun hhook ok =>
      obtain ⟨counters, journal, channel, heq⟩ := markFinished_eq s _ ok
      exact h.of_row (f := Strand.finished ok) (by rw [heq]) (by rw [heq]) fun _ _ => rfl
  finished := fun _ _ _ _ hwatched => hwatched.elim

end Founded

/-! ## A job is founded -/

/-- A new job is known from now on, and it has nobody yet. -/
theorem Hooked.add (h : Hooked s) (entry : JobEntry V B) :
    Known (fun j => (∃ old, s.job? j = some old) ∨ j = ⟨s.jobs.next⟩)
      { s with jobs := s.jobs.add entry } ∧
    Founded ⟨s.jobs.next⟩ entry.callback s.strands.next
      { s with jobs := s.jobs.add entry } := by
  have hget : ∀ j : JobId, (s.jobs.add entry).get? j.number =
      if j.number = s.jobs.next then some entry else s.job? j := fun j => Table.get?_add _ _ _
  refine ⟨⟨?_, ?_, ?_⟩, ⟨entry, ?_, rfl⟩, le_rfl, ?_⟩
  · exact watches_hooked.change (.addJob s entry id fun _ _ _ _ => trivial) h
  · rintro (⟨old, hold⟩ | heq)
    · have hlt := Table.lt_next_of_get? hold
      simp only [Table.next_add] at hlt
      omega
    · have hnext := congrArg JobId.number heq
      simp only [Table.next_add] at hnext
      omega
  · intro j entry' hj
    have hread := (hget j).symm.trans hj
    split at hread
    next hnumber => exact Or.inr (congrArg JobId.mk hnumber)
    · exact Or.inl ⟨entry', hread⟩
  · exact (hget _).trans (if_pos rfl)
  · intro k st hook hst hhook hjob
    obtain ⟨old, hold⟩ := h k st hook hst hhook
    rw [hjob] at hold
    exact absurd (Table.lt_next_of_get? hold) (Nat.lt_irrefl _)

section Founding

variable (inputs : List V) (callable : Nat → V → Except Panic B) (concurrency : Concurrency)
  (callback : Callback V)

theorem Hooked.addJob (h : Hooked s) (length : Nat) (d : Option (Drive V B)) :
    Known (fun j => (∃ old, s.job? j = some old) ∨ j = ⟨s.jobs.next⟩)
      (s.addJob length callback d).1 ∧
    Founded ⟨s.jobs.next⟩ callback s.strands.next (s.addJob length callback d).1 := by
  obtain ⟨hknown, hfounded⟩ := h.add ⟨(Job.start length).1, callback, d⟩
  have hk := watches_known (V := V) (B := B) fun j =>
    (∃ old, s.job? j = some old) ∨ j = ⟨s.jobs.next⟩
  have hf := watches_founded (B := B) (j := ⟨s.jobs.next⟩) (c := callback) (q := s.strands.next)
  exact ⟨hk.bears.added hk.cancel.absorbs (fun hno => hno (Or.inr rfl)) length d hknown,
    hf.bears.added hf.cancel.absorbs id length d hfounded⟩

theorem Hooked.drive (h : Hooked s) :
    Known (fun j => (∃ old, s.job? j = some old) ∨ j = ⟨s.jobs.next⟩)
      (s.drive inputs callable concurrency callback).1 ∧
    Founded ⟨s.jobs.next⟩ callback s.strands.next
      (s.drive inputs callable concurrency callback).1 := by
  obtain ⟨hknown, hfounded⟩ := h.add ⟨(Job.start inputs.length).1, callback,
    some ⟨inputs.map some, callable, concurrency.isChained⟩⟩
  have hk := watches_known (V := V) (B := B) fun j =>
    (∃ old, s.job? j = some old) ∨ j = ⟨s.jobs.next⟩
  have hf := watches_founded (B := B) (j := ⟨s.jobs.next⟩) (c := callback) (q := s.strands.next)
  exact ⟨hk.bears.driven hk.cancel.absorbs (fun hno => hno (Or.inr rfl)) inputs callable
    concurrency hknown, hf.bears.driven hf.cancel.absorbs id inputs callable concurrency hfounded⟩

end Founding

/-- The callback completes bridges only of strands with numbers below `q`. -/
def LooksBack (c : Callback V) (q : Nat) (s : Scheduler V B) : Prop :=
  ∀ answer b w, .complete b w ∈ c answer → ∃ x, s.bridge? b = some x ∧ x.strand.number < q

theorem LooksBack.fates {Ok : BridgeId → Wakeup V → Prop} {c : Callback V} {q : Nat}
    (h : LooksBack c q s) (hfates : Fates Ok s s') : LooksBack c q s' := by
  intro answer b w hmem
  obtain ⟨x, hx, hlt⟩ := h answer b w hmem
  obtain ⟨x', hx', hfate⟩ := hfates.old b x hx
  exact ⟨x', hx', by rwa [hfate.strand]⟩

/-- The callback of each job looks back at strands that were there when the job was founded. -/
def Fathered (s : Scheduler V B) : Prop :=
  ∀ j entry, s.job? j = some entry →
    ∃ q, Founded j entry.callback q s ∧ LooksBack entry.callback q s

theorem Fathered.parented (h : Fathered s) : Parented s := by
  intro id st hook entry hst hhook hj answer b w x hmem hx
  obtain ⟨q, hfounded, hback⟩ := h hook.job entry hj
  obtain ⟨x', hx', hlt⟩ := hback answer b w hmem
  obtain rfl := Option.some.inj (hx.symm.trans hx')
  exact Nat.lt_of_lt_of_le hlt (hfounded.strands id st hook hst hhook rfl)

/-! ## Moves -/

/-- Callbacks complete no bridges, but for those with which strands park on invocations. -/
def Move.IsTame (m : Move V B) : Prop :=
  match m with
  | .invoke _ _ _ callback | .createJob _ callback =>
      ∀ answer b w, .complete b w ∉ callback answer
  | _ => True

variable {m : Move V B} {Ok : BridgeId → Wakeup V → Prop} {drained : Bool}

/-- The handle of a job that is not there does nothing. -/
theorem after_of_no_job {j : JobId} (h : m.Handles j) (hj : s.job? j = none) : s.after m = s := by
  cases m with
  | submit i index r =>
    obtain rfl : i = j := h
    simp only [after, submit, submitWith, hj]
  | claim i =>
    obtain rfl : i = j := h
    simp only [after, claim, hj]
  | _ => cases h

/-- Only a move that founds a job brings one. -/
theorem Stable.job_before (hs : Stable Ok drained s) (hhooked : Hooked s) (ha : s.Allows m)
    (hno : ¬ m.Founds) {j : JobId} {entry' : JobEntry V B}
    (hj' : (s.after m).job? j = some entry') : ∃ entry, s.job? j = some entry := by
  by_cases hgone : ∃ i, m.Handles i ∧ s.job? i = none
  · obtain ⟨i, hi, hnone⟩ := hgone
    rw [after_of_no_job hi hnone] at hj'
    exact ⟨entry', hj'⟩
  have hknown : Known (fun j => ∃ entry, s.job? j = some entry) s := by
    refine ⟨hhooked, ?_, fun j entry hj => ⟨entry, hj⟩⟩
    rintro ⟨entry, hj⟩
    exact absurd (Table.lt_next_of_get? hj) (Nat.lt_irrefl _)
  refine ((watches_known _).after hknown hs ha (fun i hi hnew => hgone ⟨i, hi, ?_⟩)
    (fun hfounds => absurd hfounds hno) fun _ _ _ => trivial).jobs j entry' hj'
  exact Option.eq_none_iff_forall_ne_some.mpr fun entry hentry => hnew ⟨entry, hentry⟩

/-- What an old callback looks back at, it still looks back at after a move. -/
theorem Fathered.old (h : Fathered s) (hs : Stable Ok drained s) (ha : s.Allows m)
    (hr : Respects Ok s m) {j : JobId} {entry entry' : JobEntry V B} (hj : s.job? j = some entry)
    (hj' : (s.after m).job? j = some entry') :
    ∃ q, Founded j entry'.callback q (s.after m) ∧ LooksBack entry'.callback q (s.after m) := by
  obtain ⟨q, hfounded, hback⟩ := h j entry hj
  have hafter := watches_founded.after hfounded hs ha (fun _ _ => id) (fun _ => id)
    fun _ _ _ => trivial
  obtain ⟨_, hj'', hsame⟩ := hafter.entry
  obtain rfl := Option.some.inj (hj'.symm.trans hj'')
  rw [hsame]
  exact ⟨q, hafter, hback.fates (hs.apart ha hr).fates⟩

/-- **A tame move keeps every callback looking back.** -/
theorem Fathered.after (h : Fathered s) (hs : Stable Ok drained s) (hhooked : Hooked s)
    (ha : s.Allows m) (hr : Respects Ok s m) (htame : m.IsTame) : Fathered (s.after m) := by
  intro j entry' hj'
  -- A job was there before, or the move founds it now.
  have hnew : ∀ {c : Callback V} {q : Nat},
      Known (fun j => (∃ old, s.job? j = some old) ∨ j = ⟨s.jobs.next⟩) (s.after m) →
      Founded ⟨s.jobs.next⟩ c q (s.after m) → LooksBack c q (s.after m) →
      ∃ q, Founded j entry'.callback q (s.after m) ∧ LooksBack entry'.callback q (s.after m) := by
    intro c q hknown hfounded hback
    rcases hknown.jobs j entry' hj' with ⟨entry, hj⟩ | rfl
    · exact h.old hs ha hr hj hj'
    · obtain ⟨_, hj'', hsame⟩ := hfounded.entry
      obtain rfl := Option.some.inj (hj'.symm.trans hj'')
      rw [hsame]
      exact ⟨q, hfounded, hback⟩
  have hold : s.after m = s →
      ∃ q, Founded j entry'.callback q (s.after m) ∧ LooksBack entry'.callback q (s.after m) := by
    intro hsame
    rw [hsame] at hj'
    exact h.old hs ha hr hj' (by rw [hsame]; exact hj')
  by_cases hfounds : m.Founds
  · cases m with
    | invoke inputs callable concurrency callback =>
      by_cases hstop : s.isStopping = true
      · exact hold (congrArg Prod.fst (if_pos hstop))
      · have hafter : s.after (.invoke inputs callable concurrency callback) =
            (s.drive inputs callable concurrency callback).1 := by
          show (s.invoke inputs callable concurrency callback).1 = _
          unfold invoke
          rw [if_neg hstop]
          split
          next heq => rw [heq]
          next heq => rw [heq]
        obtain ⟨hknown, hfounded⟩ := hhooked.drive inputs callable concurrency callback
        rw [← hafter] at hknown hfounded
        exact hnew hknown hfounded fun answer b w hmem => absurd hmem (htame answer b w)
    | createJob length callback =>
      obtain ⟨hknown, hfounded⟩ := hhooked.addJob callback length none
      exact hnew hknown hfounded fun answer b w hmem => absurd hmem (htame answer b w)
    | invokeParked id inputs callable concurrency =>
      rcases invokeParked_cases s id inputs callable concurrency with
        ⟨-, heq⟩ | ⟨st, hst, hrun, hslot, hpark, heq⟩
      · exact hold heq
      · obtain ⟨hknown, hfounded⟩ := (watches_hooked.issue hhooked hst hrun).drive inputs callable
          concurrency fun answer => [.complete ⟨s.bridges.next⟩ (.mapped answer)]
        rw [← heq] at hknown hfounded
        refine hnew hknown hfounded fun answer b w hmem => ?_
        obtain ⟨rfl, -⟩ := Effect.complete.inj (List.mem_singleton.mp hmem)
        -- The bridge is the strand's own, and the strand was there before.
        obtain ⟨n, hn⟩ := hs.sound
        have hissued : s.issued (.invokeParked id inputs callable concurrency) =
            some (id, .invocation, ⟨s.bridges.next⟩) := by simp only [issued, hpark]
        have hchanges := changes_driveParked (hn.issue id) inputs callable concurrency
          fun answer => hr.issued id .invocation _ hissued (by decide) (.mapped answer) trivial
        obtain ⟨x', hx', hon⟩ := hchanges.bridges.old ⟨s.bridges.next⟩ ⟨id, .pending⟩
          ((issueBridge_bridge? s id _).trans (if_pos rfl))
        rw [← heq] at hx'
        refine ⟨x', hx', ?_⟩
        rw [hon.strand]
        exact Table.lt_next_of_get? ((issueBridge_strand? hst id).trans (if_pos rfl))
    | _ => cases hfounds
  · obtain ⟨entry, hj⟩ := hs.job_before hhooked ha hfounds hj'
    exact h.old hs ha hr hj hj'

/-- **Where callbacks are tame, they only ever look back at strands older than those of their
    job.** -/
theorem Initial.parented_run {ms : List (Move V B)} (hs : Initial s) (ha : s.Admissible ms)
    (htame : ∀ m ∈ ms, m.IsTame) : Parented (s.run ms) := by
  suffices Fathered (s.run ms) from this.parented
  induction ms using List.reverseRecOn with
  | nil =>
    intro j entry hj
    rw [run_nil, job?, hs.empty.2.2.1] at hj
    exact absurd hj (by rw [get?_empty]; simp)
  | append_singleton ms m ih =>
    obtain ⟨hprev, hm, -⟩ := admissible_append.mp ha
    rw [run_append]
    exact (ih hprev fun m hm => htame m (List.mem_append_left _ hm)).after (hs.stable_run hprev)
      (hs.hooked_run hprev) hm (respects_all _ m) (htame m (by simp))

end Scheduler
end CoopSched
