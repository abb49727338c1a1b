import CoopSched.Proofs.Scheduler.Watch

/-!
# Order — nothing is mentioned before it is there

The journal says of no strand that it came or went, and of no job that it answered, before the
strand or the job has its number; and a strand is launched for a job that exists. So a number that
is handed out is new to everybody.
-/

namespace CoopSched

variable {V B : Type}

/-- Does the record only speak of strands and jobs below these numbers? -/
def Record.Within (strands jobs : Nat) : Record V → Prop
  | .event e => e.happening.isMilestone = true → e.strand.number < strands
  | .answered j _ => j.number < jobs

theorem Record.Within.of_idle {strands jobs : Nat} {rec : Record V} (h : rec.isIdle = true) :
    rec.Within strands jobs := by
  cases rec with
  | event e =>
    intro hmilestone
    simp [Record.isIdle, hmilestone] at h
  | answered j answer => cases h

theorem Record.Within.mono {strands strands' jobs jobs' : Nat} {rec : Record V}
    (h : rec.Within strands jobs) (hstrands : strands ≤ strands') (hjobs : jobs ≤ jobs') :
    rec.Within strands' jobs' := by
  cases rec with
  | event e => exact fun hmilestone => Nat.lt_of_lt_of_le (h hmilestone) hstrands
  | answered j answer => exact Nat.lt_of_lt_of_le h hjobs

namespace Scheduler

variable {s s' : Scheduler V B}

/-- Nothing is mentioned before it is there. -/
structure Orderly (s : Scheduler V B) : Prop where
  journal : ∀ rec ∈ s.journal.toList, rec.Within s.strands.next s.jobs.next
  hooked : ∀ k st hook, s.strand? k = some st → st.hook = some hook →
    hook.job.number < s.jobs.next

theorem Orderly.of_rows (h : Orderly s) {recs : List (Record V)} (htells : Tells s s' recs)
    (hrecs : ∀ rec ∈ recs, rec.Within s'.strands.next s'.jobs.next)
    (hnext : s.strands.next ≤ s'.strands.next) (hjobs : s.jobs.next ≤ s'.jobs.next)
    (hrow : ∀ k st' hook, s'.strand? k = some st' → st'.hook = some hook →
      hook.job.number < s'.jobs.next ∨ ∃ st, s.strand? k = some st ∧ st.hook = some hook) :
    Orderly s' where
  journal := by
    intro rec hrec
    rw [htells] at hrec
    rcases List.mem_append.mp hrec with hold | hnew
    · exact (h.journal rec hold).mono hnext hjobs
    · exact hrecs rec hnew
  hooked := by
    intro k st' hook hst' hhook
    rcases hrow k st' hook hst' hhook with hlt | ⟨st, hst, hhook'⟩
    · exact hlt
    · exact Nat.lt_of_lt_of_le (h.hooked k st hook hst hhook') hjobs

theorem Orderly.of_row (h : Orderly s) {id : StrandId} {f : Strand V B → Strand V B}
    {recs : List (Record V)} (htells : Tells s s' recs)
    (hrecs : ∀ rec ∈ recs, rec.Within s.strands.next s.jobs.next)
    (hstrands : s'.strands = s.strands.update id.number f) (hjobs : s'.jobs = s.jobs)
    (hf : ∀ st, s.strand? id = some st → (f st).hook = st.hook) : Orderly s' := by
  have hnext : s'.strands.next = s.strands.next := by rw [hstrands, Table.next_update]
  refine h.of_rows htells (by rw [hnext, hjobs]; exact hrecs) hnext.ge (by rw [hjobs]) ?_
  intro k st' hook hst' hhook
  right
  rw [strand?_of_update hstrands] at hst'
  split at hst'
  next hk =>
    obtain ⟨st, hst, rfl⟩ := Option.map_eq_some_iff.mp hst'
    exact ⟨st, hst, (hf st (hk ▸ hst)).symm.trans hhook⟩
  next => exact ⟨st', hst', hhook⟩

theorem Orderly.hushed (h : Orderly s) (hstrands : s'.strands = s.strands)
    (hjobs : s'.jobs = s.jobs) (hhushed : Hushed s s') : Orderly s' := by
  obtain ⟨recs, htells, hidle⟩ := hhushed
  refine h.of_rows htells (fun rec hrec => .of_idle (hidle rec hrec)) (by rw [hstrands])
    (by rw [hjobs]) fun k st' hook hst' hhook => Or.inr ⟨st', ?_, hhook⟩
  rw [← hst', strand?, strand?, hstrands]

theorem Orderly.cut (h : Orderly s) {id : StrandId} {st : Strand V B}
    (hst : s.strand? id = some st) : Orderly (s.cut id st.bridge) := by
  obtain ⟨idle, htells, hidle⟩ := cut_tells s id st.bridge
  obtain ⟨counters, journal, channel, heq⟩ := cut_eq hst
  refine h.of_row (f := Strand.cut) htells ?_ (by rw [heq]) (by rw [heq]) fun _ _ => rfl
  intro rec hrec
  rcases List.mem_append.mp hrec with hrec | hrec
  · exact .of_idle (hidle rec hrec)
  · rw [List.mem_singleton.mp hrec]
    exact fun _ => Table.lt_next_of_get? hst

theorem Orderly.markFinished (h : Orderly s) {id : StrandId} {st : Strand V B}
    (hst : s.strand? id = some st) (ok : Bool) : Orderly (s.markFinished id ok) := by
  obtain ⟨idle, htells, hidle⟩ := markFinished_tells s id ok
  obtain ⟨counters, journal, channel, heq⟩ := markFinished_eq s id ok
  refine h.of_row (f := Strand.finished ok) htells ?_ (by rw [heq]) (by rw [heq]) fun _ _ => rfl
  intro rec hrec
  rcases List.mem_cons.mp hrec with rfl | hrec
  · exact fun _ => Table.lt_next_of_get? hst
  · exact .of_idle (hidle rec hrec)

theorem Orderly.spawn (h : Orderly s) (r : SpawnRequest B)
    (hhook : ∀ hook, r.hook = some hook → hook.job.number < s.jobs.next) :
    Orderly (s.spawn r).1 := by
  rcases spawn_told s r with ⟨-, heq⟩ | ⟨counters, channel, heq⟩ | ⟨counters, channel, heq⟩
  · rw [heq]
    exact h
  · rw [heq]
    refine h.of_rows (.push rfl) ?_ (by simp [Table.next_add]) le_rfl ?_
    · intro rec hrec
      rw [List.mem_singleton.mp hrec]
      exact fun _ => by simp [Table.next_add]
    · intro k st' hook hst' hst'hook
      have hst'' : (s.strands.add _).get? k.number = some st' := hst'
      rw [Table.get?_add] at hst''
      split at hst''
      · rw [← Option.some.inj hst''] at hst'hook
        exact Or.inl (hhook hook hst'hook)
      · exact Or.inr ⟨st', hst'', hst'hook⟩
  · rw [heq]
    refine h.of_rows (show Tells s _ [.event ⟨⟨s.strands.next⟩, .created⟩,
      .event ⟨⟨s.strands.next⟩, .rejected⟩] by simp [Tells]) ?_
      (by simp [Table.next_add, Table.next_erase]) le_rfl ?_
    · intro rec hrec
      simp only [List.mem_cons, List.not_mem_nil, or_false] at hrec
      rcases hrec with rfl | rfl <;>
        exact fun _ => by simp [Table.next_add, Table.next_erase]
    · intro k st' hook hst' hst'hook
      have hst'' : ((s.strands.add _).erase s.strands.next).get? k.number = some st' := hst'
      rw [Table.get?_erase, Table.get?_add] at hst''
      split at hst''
      · cases hst''
      next hne =>
        rw [if_neg (Ne.symm hne)] at hst''
        exact Or.inr ⟨st', hst'', hst'hook⟩

theorem watches_orderly :
    Watches (fun _ => False) (fun _ _ => True) (Orderly : Scheduler V B → Prop) where
  change := by
    intro s s' hb h
    cases hb with
    | setBridge hb x => exact ⟨h.journal, h.hooked⟩
    | wake alive id =>
      obtain ⟨recs, htells, hidle⟩ := hushed_wake alive id
      obtain ⟨queue, counters, journal, channel, heq⟩ := wake_row alive id
      exact h.of_row (f := Strand.woken) htells (fun rec hrec => .of_idle (hidle rec hrec))
        (by rw [heq]) (by rw [heq]) fun _ _ => rfl
    | answered hj hentry answer =>
      refine h.of_rows (.push rfl) ?_ le_rfl le_rfl fun k st' hook hst' hhook =>
        Or.inr ⟨st', hst', hhook⟩
      intro rec hrec
      rw [List.mem_singleton.mp hrec]
      exact Table.lt_next_of_get? hentry
    | job hj hf =>
      refine ⟨?_, ?_⟩
      · intro rec hrec
        rw [updateJob, Table.next_update]
        exact h.journal rec hrec
      · intro k st hook hst hhook
        rw [updateJob, Table.next_update]
        exact h.hooked k st hook hst hhook
    | addJob entry hj hok =>
      refine h.of_rows (.of_journal rfl) (fun _ hrec => absurd hrec List.not_mem_nil) le_rfl
        (by simp [Table.next_add]) fun k st' hook hst' hhook => Or.inr ⟨st', hst', hhook⟩
    | launch body hook hj hentry =>
      refine h.spawn _ fun hook' heq => ?_
      obtain ⟨entry, hentry⟩ := hentry
      obtain rfl := Option.some.inj heq
      exact Table.lt_next_of_get? hentry
    | cut hst hend hhook hover => exact h.cut hst
    | retire id kept =>
      exact h.of_row (.of_journal rfl) (fun _ hrec => absurd hrec List.not_mem_nil) rfl rfl
        fun _ _ => rfl
  callbacks := fun _ _ _ => trivial
  cut_off := fun _ _ _ _ hwatched => hwatched.elim
  own := by
    intro s s' hs h
    cases hs with
    | still hstrands hjobs hhushed hover => exact h.hushed hstrands hjobs hhushed
    | row hst hstrands hstays hjobs hhushed hover =>
      obtain ⟨recs, htells, hidle⟩ := hhushed
      refine h.of_row htells (fun rec hrec => .of_idle (hidle rec hrec)) hstrands hjobs ?_
      intro st' hst'
      rw [← Option.some.inj (hst.symm.trans hst')]
      exact hstays.hook
    | spawn r hhook hparent => exact h.spawn r (by simp [hhook])
    | finish hst hrun hhook ok => exact h.markFinished hst ok
  finished := fun _ _ _ _ hwatched => hwatched.elim

theorem Initial.journal (h : Initial s) : s.journal = #[] := by
  obtain ⟨c, cores, h | h⟩ := h
  · unfold start at h
    split at h
    · cases h
    · obtain rfl := Except.ok.inj h
      rfl
  · unfold startWithChannel start at h
    split at h
    · cases h
    · obtain rfl := Except.ok.inj h
      rfl

/-- Nothing is mentioned before it is there, after any run. -/
theorem Initial.orderly_run {ms : List (Move V B)} (h : Initial s) (ha : s.Admissible ms) :
    Orderly (s.run ms) := by
  refine watches_orderly.run_initial h ha ⟨fun rec hrec => ?_, fun k st hook hst => ?_⟩
  · rw [h.journal] at hrec
    cases hrec
  · rw [strand?, h.empty.1, get?_empty] at hst
    cases hst

/-! ## Jobs -/

/-- Every strand that was launched for a job was launched for one that is there. -/
def Hooked (s : Scheduler V B) : Prop :=
  ∀ k st hook, s.strand? k = some st → st.hook = some hook →
    ∃ entry, s.job? hook.job = some entry

theorem Hooked.of_rows (h : Hooked s)
    (hjobs : ∀ j, (∃ entry, s.job? j = some entry) → ∃ entry, s'.job? j = some entry)
    (hrow : ∀ k st' hook, s'.strand? k = some st' → st'.hook = some hook →
      (∃ entry, s.job? hook.job = some entry) ∨
        ∃ st, s.strand? k = some st ∧ st.hook = some hook) : Hooked s' := by
  intro k st' hook hst' hhook
  rcases hrow k st' hook hst' hhook with hentry | ⟨st, hst, hhook'⟩
  · exact hjobs _ hentry
  · exact hjobs _ (h k st hook hst hhook')

theorem Hooked.of_row (h : Hooked s) {id : StrandId} {f : Strand V B → Strand V B}
    (hstrands : s'.strands = s.strands.update id.number f) (hjobs : s'.jobs = s.jobs)
    (hf : ∀ st, s.strand? id = some st → (f st).hook = st.hook) : Hooked s' := by
  refine h.of_rows (fun j hj => by rwa [job?, hjobs]) fun k st' hook hst' hhook => Or.inr ?_
  rw [strand?_of_update hstrands] at hst'
  split at hst'
  next hk =>
    obtain ⟨st, hst, rfl⟩ := Option.map_eq_some_iff.mp hst'
    exact ⟨st, hst, (hf st (hk ▸ hst)).symm.trans hhook⟩
  next => exact ⟨st', hst', hhook⟩

theorem Hooked.spawn (h : Hooked s) (r : SpawnRequest B)
    (hhook : ∀ hook, r.hook = some hook → ∃ entry, s.job? hook.job = some entry) :
    Hooked (s.spawn r).1 := by
  rcases spawn_cases s r with ⟨-, _, _, _, heq⟩ | ⟨_, _, _, _, _, heq, hget, -⟩ <;> rw [heq]
  · refine h.of_rows (fun _ hj => hj) fun k st' hook hst' hst'hook => ?_
    have hread : (s.strands.add _).get? k.number = some st' := hst'
    rw [Table.get?_add] at hread
    split at hread
    · rw [← Option.some.inj hread] at hst'hook
      exact Or.inl (hhook hook hst'hook)
    · exact Or.inr ⟨st', hread, hst'hook⟩
  · exact h.of_rows (fun _ hj => hj) fun k st' hook hst' hst'hook =>
      Or.inr ⟨st', (hget k.number).symm.trans hst', hst'hook⟩

theorem watches_hooked :
    Watches (fun _ => False) (fun _ _ => True) (Hooked : Scheduler V B → Prop) where
  change := by
    intro s s' hb h
    cases hb with
    | setBridge hb x => exact h
    | wake alive id =>
      obtain ⟨queue, counters, journal, channel, heq⟩ := wake_row alive id
      exact h.of_row (f := Strand.woken) (by rw [heq]) (by rw [heq]) fun _ _ => rfl
    | answered hj hentry answer => exact h
    | job hj hf =>
      refine h.of_rows (fun i hi => ?_) fun k st' hook hst' hhook => Or.inr ⟨st', hst', hhook⟩
      obtain ⟨entry, hentry⟩ := hi
      rw [job?_updateJob]
      split
      · exact ⟨_, by rw [hentry, Option.map_some]⟩
      · exact ⟨entry, hentry⟩
    | addJob entry hj hok =>
      refine h.of_rows (fun i hi => ?_) fun k st' hook hst' hhook => Or.inr ⟨st', hst', hhook⟩
      obtain ⟨old, hold⟩ := hi
      refine ⟨old, ?_⟩
      show (s.jobs.add entry).get? i.number = some old
      rw [Table.get?_add, if_neg (Nat.ne_of_lt (Table.lt_next_of_get? hold))]
      exact hold
    | launch body hook hj hentry =>
      refine h.spawn _ fun hook' heq => ?_
      rwa [← Option.some.inj heq]
    | cut hst hend hhook hover =>
      obtain ⟨counters, journal, channel, heq⟩ := cut_eq hst
      exact h.of_row (f := Strand.cut) (by rw [heq]) (by rw [heq]) fun _ _ => rfl
    | retire id kept => exact h.of_row (f := (·.publish kept)) rfl rfl fun _ _ => rfl
  callbacks := fun _ _ _ => trivial
  cut_off := fun _ _ _ _ hwatched => hwatched.elim
  own := by
    intro s s' hs h
    cases hs with
    | still hstrands hjobs hhushed hover =>
      exact h.of_rows (fun j hj => by rwa [job?, hjobs]) fun k st' hook hst' hhook =>
        Or.inr ⟨st', by rw [← hst', strand?, strand?, hstrands], hhook⟩
    | row hst hstrands hstays hjobs hhushed hover =>
      refine h.of_row hstrands hjobs fun st' hst' => ?_
      rw [← Option.some.inj (hst.symm.trans hst')]
      exact hstays.hook
    | spawn r hhook hparent => exact h.spawn r (by simp [hhook])
    | finish hst hrun hhook ok =>
      obtain ⟨counters, journal, channel, heq⟩ := markFinished_eq _ _ ok
      exact h.of_row (f := Strand.finished ok) (by rw [heq]) (by rw [heq]) fun _ _ => rfl
  finished := fun _ _ _ _ hwatched => hwatched.elim

/-- A strand is launched for a job that is there, and a job stays there. -/
theorem Initial.hooked_run {ms : List (Move V B)} (h : Initial s) (ha : s.Admissible ms) :
    Hooked (s.run ms) := by
  refine watches_hooked.run_initial h ha fun k st hook hst => ?_
  rw [strand?, h.empty.1, get?_empty] at hst
  cases hst

end Scheduler
end CoopSched
