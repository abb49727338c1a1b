import CoopSched.Proofs.Scheduler.Watch

/-!
# Beside a job — changes that it does not notice

A small change that leaves a job and its strands alone may still touch every table. `Beside` is what
the job can count on: its entry and the strands launched for it are as they were, a new strand is
not one of its own, and nothing is written down about either.
-/

namespace CoopSched

variable {V B : Type}

/-- Does the record say nothing about the job, or about the coming and going of its strands? -/
def Record.Spares (s : Scheduler V B) (j : JobId) : Record V → Prop
  | .event e => e.happening.isMilestone = true → s.strands.next ≤ e.strand.number ∨
      ∃ st, s.strand? e.strand = some st ∧ ∀ hook, st.hook = some hook → hook.job ≠ j
  | .answered j' _ => j' ≠ j

theorem Record.Spares.of_idle {s : Scheduler V B} {j : JobId} {rec : Record V}
    (h : rec.isIdle = true) : rec.Spares s j := by
  cases rec with
  | event e =>
    intro hmilestone
    simp [Record.isIdle, hmilestone] at h
  | answered j' answer => cases h

namespace Scheduler

variable {j : JobId} {s s' : Scheduler V B}

/-- Nothing has changed for the job. -/
structure Beside (j : JobId) (s s' : Scheduler V B) : Prop where
  job : s'.job? j = s.job? j
  next : s.strands.next ≤ s'.strands.next
  shut : s.isShutDown = true → s'.isShutDown = true
  queue : s.IsShut → s'.IsShut
  old : ∀ k st, s.strand? k = some st → ∃ st', s'.strand? k = some st' ∧ st'.hook = st.hook ∧
    ∀ i, st.hook = some ⟨j, i⟩ → Stays st st'
  new : ∀ k st', s'.strand? k = some st' → (∃ st, s.strand? k = some st) ∨
    s.strands.next ≤ k.number ∧ ∀ hook, st'.hook = some hook → hook.job ≠ j
  tells : ∃ recs, Tells s s' recs ∧ ∀ rec ∈ recs, rec.Spares s j

theorem Beside.of_same (hstrands : s'.strands = s.strands) (hjob : s'.job? j = s.job? j)
    (hover : s.isShutDown = true → s'.isShutDown = true) (hshut : s.IsShut → s'.IsShut)
    (htells : ∃ recs, Tells s s' recs ∧ ∀ rec ∈ recs, rec.Spares s j) : Beside j s s' where
  job := hjob
  next := by rw [hstrands]
  shut := hover
  queue := hshut
  old := fun k st hst => ⟨st, by rw [← hst, strand?, strand?, hstrands], rfl, fun _ _ => .refl st⟩
  new := fun k st' hst' => Or.inl ⟨st', by rw [← hst', strand?, strand?, hstrands]⟩
  tells := htells

theorem Beside.of_row {id : StrandId} {f : Strand V B → Strand V B}
    (hstrands : s'.strands = s.strands.update id.number f)
    (hf : ∀ st, s.strand? id = some st →
      (f st).hook = st.hook ∧ ∀ i, st.hook = some ⟨j, i⟩ → Stays st (f st))
    (hjobs : s'.jobs = s.jobs) (hover : s'.isShutDown = s.isShutDown)
    (hshut : s.IsShut → s'.IsShut)
    (htells : ∃ recs, Tells s s' recs ∧ ∀ rec ∈ recs, rec.Spares s j) : Beside j s s' where
  job := by rw [job?, job?, hjobs]
  next := by rw [hstrands, Table.next_update]
  shut := fun h => hover.trans h
  queue := hshut
  old := by
    intro k st hst
    rw [strand?_of_update hstrands, hst]
    split
    next hk => exact ⟨f st, rfl, hf st (hk ▸ hst)⟩
    next => exact ⟨st, rfl, rfl, fun _ _ => .refl st⟩
  new := by
    intro k st' hst'
    rw [strand?_of_update hstrands] at hst'
    split at hst'
    · obtain ⟨st, hst, -⟩ := Option.map_eq_some_iff.mp hst'
      exact Or.inl ⟨st, hst⟩
    · exact Or.inl ⟨st', hst'⟩
  tells := htells

theorem Hushed.spares (h : Hushed s s') :
    ∃ recs, Tells s s' recs ∧ ∀ rec ∈ recs, rec.Spares s j := by
  obtain ⟨recs, htells, hidle⟩ := h
  exact ⟨recs, htells, fun rec hrec => .of_idle (hidle rec hrec)⟩

theorem Beside.cut {id : StrandId} {st : Strand V B} (hst : s.strand? id = some st)
    (hhook : ∀ hook, st.hook = some hook → hook.job ≠ j) : Beside j s (s.cut id st.bridge) := by
  obtain ⟨counters, journal, channel, heq⟩ := cut_eq hst
  obtain ⟨idle, htells, hidle⟩ := cut_tells s id st.bridge
  refine .of_row (f := Strand.cut) (by rw [heq]) ?_ (by rw [heq]) (by rw [heq]; rfl)
    (fun hshut => by rw [heq]; exact hshut) ⟨_, htells, ?_⟩
  · intro st' hst'
    rw [Option.some.inj (hst.symm.trans hst')] at hhook
    exact ⟨rfl, fun i hi => absurd rfl (hhook _ hi)⟩
  · intro rec hrec
    rcases List.mem_append.mp hrec with hrec | hrec
    · exact .of_idle (hidle rec hrec)
    · rw [List.mem_singleton.mp hrec]
      exact fun _ => Or.inr ⟨st, hst, hhook⟩

theorem Beside.markFinished {id : StrandId} {st : Strand V B} (hst : s.strand? id = some st)
    (hhook : ∀ hook, st.hook = some hook → hook.job ≠ j) (ok : Bool) :
    Beside j s (s.markFinished id ok) := by
  obtain ⟨counters, journal, channel, heq⟩ := markFinished_eq s id ok
  obtain ⟨idle, htells, hidle⟩ := markFinished_tells s id ok
  refine .of_row (f := Strand.finished ok) (by rw [heq]) ?_ (by rw [heq]) (by rw [heq]; rfl)
    (fun hshut => by rw [heq]; exact hshut) ⟨_, htells, ?_⟩
  · intro st' hst'
    rw [Option.some.inj (hst.symm.trans hst')] at hhook
    exact ⟨rfl, fun i hi => absurd rfl (hhook _ hi)⟩
  · intro rec hrec
    rcases List.mem_cons.mp hrec with rfl | hrec
    · exact fun _ => Or.inr ⟨st, hst, hhook⟩
    · exact .of_idle (hidle rec hrec)

theorem Beside.spawn (s : Scheduler V B) (r : SpawnRequest B)
    (hhook : ∀ hook, r.hook = some hook → hook.job ≠ j) : Beside j s (s.spawn r).1 := by
  have hspares : ∀ h, (Record.event ⟨⟨s.strands.next⟩, h⟩ : Record V).Spares s j :=
    fun h _ => Or.inl le_rfl
  rcases spawn_told s r with ⟨-, heq⟩ | ⟨counters, channel, heq⟩ | ⟨counters, channel, heq⟩
  · rw [heq]
    exact .of_same rfl rfl id id (Hushed.spares (.of_journal rfl))
  · rw [heq]
    refine ⟨rfl, by simp [Table.next_add], fun h => h, fun h => h, ?_, ?_, _, .push rfl, ?_⟩
    · intro k st hst
      have hlt := Table.lt_next_of_get? hst
      refine ⟨st, ?_, rfl, fun _ _ => .refl st⟩
      show (s.strands.add _).get? k.number = some st
      rw [Table.get?_add, if_neg (Nat.ne_of_lt hlt)]
      exact hst
    · intro k st' hst'
      have hst'' : (s.strands.add _).get? k.number = some st' := hst'
      rw [Table.get?_add] at hst''
      split at hst''
      next hk =>
        rw [← Option.some.inj hst'']
        exact Or.inr ⟨hk.ge, hhook⟩
      next => exact Or.inl ⟨st', hst''⟩
    · intro rec hrec
      rw [List.mem_singleton.mp hrec]
      exact hspares _
  · rw [heq]
    have hread : ∀ n, ((s.strands.add (Strand.create r.body r.name r.parent r.hook)).erase
        s.strands.next).get? n = s.strands.get? n := by
      intro n
      rw [Table.get?_erase, Table.get?_add]
      by_cases hn : s.strands.next = n
      · rw [if_pos hn, ← hn, s.strands.get?_next]
      · rw [if_neg hn, if_neg (Ne.symm hn)]
    refine ⟨rfl, by simp [Table.next_add, Table.next_erase], fun h => h, fun h => h, ?_, ?_,
      [.event ⟨⟨s.strands.next⟩, .created⟩, .event ⟨⟨s.strands.next⟩, .rejected⟩],
      by simp [Tells], ?_⟩
    · intro k st hst
      exact ⟨st, (hread k.number).trans hst, rfl, fun _ _ => .refl st⟩
    · intro k st' hst'
      exact Or.inl ⟨st', (hread k.number).symm.trans hst'⟩
    · intro rec hrec
      simp only [List.mem_cons, List.not_mem_nil, or_false] at hrec
      rcases hrec with rfl | rfl <;> exact hspares _

/-- What leaves a job and its strands alone goes on beside it. -/
theorem UnwatchedChange.beside {free : BridgeId → Prop} (h : UnwatchedChange (· = j) free s s') :
    Beside j s s' := by
  cases h with
  | setBridge hb x => exact .of_same rfl rfl id id (Hushed.spares (.of_journal rfl))
  | wake alive id =>
    obtain ⟨queue, counters, journal, channel, heq⟩ := wake_row alive id
    have hsteady := Steady.wake alive id
    exact .of_row (f := Strand.woken) (by rw [heq]) (fun st _ => ⟨rfl, fun _ _ => .woken st⟩)
      (by rw [heq]) (by rw [heq]; rfl) (fun h => h.of_queue hsteady.closed hsteady.aborted)
      (hushed_wake alive id).spares
  | answered hj hentry answer =>
    refine .of_same rfl rfl id id ⟨_, .push rfl, fun rec hrec => ?_⟩
    rw [List.mem_singleton.mp hrec]
    exact hj
  | job hj hf =>
    exact .of_same rfl (by rw [job?_updateJob, if_neg hj]) id id (Hushed.spares (.of_journal rfl))
  | addJob entry hj hok =>
    refine .of_same rfl ?_ id id (Hushed.spares (.of_journal rfl))
    show (s.jobs.add entry).get? j.number = s.job? j
    rw [Table.get?_add, if_neg fun heq => hj (JobId.number_inj.mp heq.symm)]
    rfl
  | launch body hook hj hentry =>
    refine .spawn s _ fun hook' heq => ?_
    obtain rfl := Option.some.inj heq
    exact hj
  | cut hst hend hhook hover => exact .cut hst hhook
  | retire id kept =>
    exact .of_row (f := (·.publish kept)) rfl
      (fun st _ => ⟨rfl, fun _ _ => .of_face rfl rfl rfl rfl rfl rfl⟩) rfl rfl (fun h => h)
      (Hushed.spares (.of_journal rfl))

theorem OwnChange.beside (h : OwnChange (· = j) s s') : Beside j s s' := by
  cases h with
  | still hstrands hjobs hhushed hover hshut =>
    exact .of_same hstrands (by rw [job?, job?, hjobs]) hover hshut hhushed.spares
  | row hst hstrands hstays hjobs hhushed hover hshut =>
    refine .of_row hstrands ?_ hjobs hover hshut hhushed.spares
    intro st' hst'
    rw [← Option.some.inj (hst.symm.trans hst')]
    exact ⟨hstays.hook, fun _ _ => hstays⟩
  | spawn r hhook hparent => exact .spawn s r (by simp [hhook])
  | finish hst hrun hhook ok => exact .markFinished hst hhook ok

end Scheduler
end CoopSched
