import CoopSched.Proofs.Scheduler.Finishing

/-!
# Families — a strand and its children

A strand keeps count of its children in its group. Whether it does so rightly can be told from the
rows of the children themselves: each names its parent, and has ended or not (`kid?`). The children
that have not ended are the `young` ones.

What is said about families here holds until a shutdown cuts strands off, for a parent is not told
of a child that is cancelled. `Cancelled` is what is true from then on.
-/

namespace CoopSched
namespace Scheduler

variable {V B : Type} {s s' : Scheduler V B} {m : Move V B} {ms before rest : List (Move V B)}
  {p k id : StrandId}

/-- Whether a child of a strand has ended; `none` if it is no child of that strand. -/
def kid? (s : Scheduler V B) (p k : StrandId) : Option Bool :=
  (s.strand? k).bind fun st => if st.parent = some p then some st.status.isTerminal else none

/-- The numbers of the children of a strand that have not ended. -/
def young (s : Scheduler V B) (p : StrandId) : Finset Nat :=
  (Finset.range s.strands.next).filter fun n => s.kid? p ⟨n⟩ = some false

/-- The group of a strand, and whether the strand has ended. A strand that is not there has spawned
    nobody. -/
def household (s : Scheduler V B) (p : StrandId) : Group V × Bool :=
  match s.strand? p with
  | some st => (st.children, st.status.isTerminal)
  | none => ({}, false)

theorem household_eq {st : Strand V B} (hst : s.strand? p = some st) :
    s.household p = (st.children, st.status.isTerminal) := by
  rw [household, hst]

theorem household_none (hst : s.strand? p = none) : s.household p = ({}, false) := by
  rw [household, hst]

theorem kid?_eq {st : Strand V B} (hst : s.strand? k = some st) :
    s.kid? p k = if st.parent = some p then some st.status.isTerminal else none := by
  rw [kid?, hst, Option.bind_some]

theorem kid?_none (hst : s.strand? k = none) : s.kid? p k = none := by
  rw [kid?, hst, Option.bind_none]

theorem kid?_eq_some {ended : Bool} :
    s.kid? p k = some ended ↔
      ∃ st, s.strand? k = some st ∧ st.parent = some p ∧ st.status.isTerminal = ended := by
  constructor
  · intro h
    obtain ⟨st, hst, hif⟩ := Option.bind_eq_some_iff.mp h
    split at hif
    next hparent => exact ⟨st, hst, hparent, Option.some.inj hif⟩
    next => cases hif
  · rintro ⟨st, hst, hparent, rfl⟩
    exact (kid?_eq hst).trans (if_pos hparent)

theorem mem_young {n : Nat} : n ∈ s.young p ↔ s.kid? p ⟨n⟩ = some false := by
  simp only [young, Finset.mem_filter, Finset.mem_range, and_iff_right_iff_imp]
  intro h
  obtain ⟨st, hst, -⟩ := kid?_eq_some.mp h
  exact Table.lt_next_of_get? hst

/-- A strand without young children is one whose children have all ended. -/
theorem young_eq_empty_iff :
    (s.young p).card = 0 ↔ ∀ k st, s.strand? k = some st → st.parent = some p →
      st.status.isTerminal = true := by
  rw [Finset.card_eq_zero, Finset.eq_empty_iff_forall_notMem]
  constructor
  · intro h k st hst hparent
    have hnot : s.kid? p k ≠ some false := fun hk => h k.number (mem_young.mpr hk)
    rw [kid?_eq hst, if_pos hparent] at hnot
    simpa using hnot
  · intro h n hn
    obtain ⟨st, hst, hparent, hend⟩ := kid?_eq_some.mp (mem_young.mp hn)
    rw [h ⟨n⟩ st hst hparent] at hend
    cases hend

theorem young_congr (h : ∀ k, s'.kid? p k = s.kid? p k) : s'.young p = s.young p := by
  ext n
  rw [mem_young, mem_young, h]

/-! ## Parents -/

/-- A strand with a parent was not launched for a job, and its parent is another strand that is
    there. -/
def Kin (s : Scheduler V B) : Prop :=
  ∀ k st p, s.strand? k = some st → st.parent = some p →
    st.hook = none ∧ p ≠ k ∧ ∃ ps, s.strand? p = some ps

theorem Kin.of_update (h : Kin s) {f : Strand V B → Strand V B}
    (hstrands : s'.strands = s.strands.update id.number f)
    (hf : ∀ st, s.strand? id = some st → (f st).parent = st.parent ∧ (f st).hook = st.hook) :
    Kin s' := by
  intro k st' p hst' hparent
  have hback : ∃ st, s.strand? k = some st ∧ st.parent = some p ∧ st'.hook = st.hook := by
    rw [strand?_of_update hstrands] at hst'
    split at hst'
    next hk =>
      subst hk
      obtain ⟨st, hst, rfl⟩ := Option.map_eq_some_iff.mp hst'
      exact ⟨st, hst, (hf st hst).1.symm.trans hparent, (hf st hst).2⟩
    next => exact ⟨st', hst', hparent, rfl⟩
  obtain ⟨st, hst, hparent', hhook⟩ := hback
  obtain ⟨hnone, hne, ps, hps⟩ := h k st p hst hparent'
  refine ⟨hhook.trans hnone, hne, ?_⟩
  rw [strand?_of_update hstrands]
  split
  · exact ⟨f ps, by rw [hps, Option.map_some]⟩
  · exact ⟨ps, hps⟩

theorem Kin.spawn (h : Kin s) (r : SpawnRequest B)
    (hr : ∀ p, r.parent = some p → r.hook = none ∧ ∃ ps, s.strand? p = some ps) :
    Kin (s.spawn r).1 := by
  rcases spawn_cases s r with ⟨-, counters, journal, channel, heq⟩ |
    ⟨strands, counters, journal, channel, cause, heq, hget, -⟩
  · intro k st p hst hparent
    have hread : (s.strands.add (Strand.create r.body r.name r.parent r.hook)).get? k.number =
        some st := by
      rw [heq] at hst
      exact hst
    rw [Table.get?_add] at hread
    split at hread
    next hk =>
      rw [← Option.some.inj hread] at hparent ⊢
      obtain ⟨hhook, ps, hps⟩ := hr p hparent
      refine ⟨hhook, ?_, ps, strand?_spawn hps r⟩
      rintro rfl
      exact Nat.ne_of_lt (Table.lt_next_of_get? hps) hk
    next =>
      obtain ⟨hhook, hne, ps, hps⟩ := h k st p hread hparent
      exact ⟨hhook, hne, ps, strand?_spawn hps r⟩
  · rw [heq]
    intro k st p hst hparent
    obtain ⟨hhook, hne, ps, hps⟩ := h k st p ((hget k.number).symm.trans hst) hparent
    exact ⟨hhook, hne, ps, (hget p.number).trans hps⟩

theorem watches_kin : Watches (fun _ => False) (fun _ _ => True) (Kin : Scheduler V B → Prop) where
  change := by
    intro s s' hb h
    cases hb with
    | setBridge hb x => exact h
    | wake alive id =>
      obtain ⟨queue, counters, journal, channel, heq⟩ := wake_row alive id
      exact h.of_update (f := Strand.woken) (by rw [heq]) fun _ _ => ⟨rfl, rfl⟩
    | answered hj hentry answer => exact h
    | job hj hf => exact h
    | addJob entry hj hok => exact h
    | launch body hook hj hentry => exact h.spawn _ fun p hp => by cases hp
    | cut hst hend hhook hover =>
      obtain ⟨counters, journal, channel, heq⟩ := cut_eq hst
      exact h.of_update (f := Strand.cut) (by rw [heq]) fun _ _ => ⟨rfl, rfl⟩
    | retire id kept => exact h.of_update (f := (·.publish kept)) rfl fun _ _ => ⟨rfl, rfl⟩
  callbacks := fun _ _ _ => trivial
  cut_off := fun _ _ _ _ hwatched => hwatched.elim
  own := by
    intro s s' hs h
    cases hs with
    | still hstrands hjobs hhushed hover =>
      have hread : ∀ k, s'.strand? k = s.strand? k := fun k => by rw [strand?, strand?, hstrands]
      simpa only [Kin, hread] using h
    | row hst hstrands hstays hjobs hhushed hover =>
      refine h.of_update hstrands fun st' hst' => ?_
      obtain rfl := Option.some.inj (hst.symm.trans hst')
      exact ⟨hstays.parent, hstays.hook⟩
    | spawn r hhook hparent => exact h.spawn r fun p hp => ⟨hhook, hparent p hp⟩
    | finish hst hrun hhook ok =>
      obtain ⟨counters, journal, channel, heq⟩ := markFinished_eq _ _ ok
      exact h.of_update (f := Strand.finished ok) (by rw [heq]) fun _ _ => ⟨rfl, rfl⟩
  finished := fun _ _ _ _ hwatched => hwatched.elim

theorem Initial.kin_run (h : Initial s) (ha : s.Admissible ms) : Kin (s.run ms) := by
  refine watches_kin.run_initial h ha fun k st p hst => ?_
  rw [strand?, h.empty.1, get?_empty] at hst
  cases hst

/-! ## Until strands are cancelled -/

/-- A shutdown has cancelled a strand. -/
def Cancelled (s : Scheduler V B) : Prop := ∃ id, .event ⟨id, .cancelled⟩ ∈ s.journal.toList

theorem Cancelled.tells (h : Cancelled s) {recs : List (Record V)} (ht : Tells s s' recs) :
    Cancelled s' := by
  obtain ⟨id, hid⟩ := h
  refine ⟨id, ?_⟩
  rw [ht]
  exact List.mem_append_left _ hid

theorem Cancelled.hushed (h : Cancelled s) (hh : Hushed s s') : Cancelled s' := by
  obtain ⟨recs, htells, -⟩ := hh
  exact h.tells htells

theorem Cancelled.spawn (h : Cancelled s) (r : SpawnRequest B) : Cancelled (s.spawn r).1 := by
  rcases spawn_told s r with ⟨-, heq⟩ | ⟨counters, channel, heq⟩ | ⟨counters, channel, heq⟩
  · rw [heq]
    exact h
  · rw [heq]
    exact h.tells (.push rfl)
  · rw [heq]
    exact h.tells (show Tells s _ [.event ⟨⟨s.strands.next⟩, .created⟩,
      .event ⟨⟨s.strands.next⟩, .rejected⟩] by simp [Tells])

theorem cancelled_cut (s : Scheduler V B) (id : StrandId) (slot : Option BridgeId) :
    Cancelled (s.cut id slot) := by
  obtain ⟨idle, htells, -⟩ := cut_tells s id slot
  refine ⟨id, ?_⟩
  rw [htells]
  simp

theorem UnwatchedChange.cancelled {watched : JobId → Prop} {free : BridgeId → Prop}
    (hb : UnwatchedChange watched free s s') (h : Cancelled s) : Cancelled s' := by
  cases hb with
  | wake alive id => exact h.hushed (hushed_wake alive id)
  | answered hj hentry answer => exact h.tells (.push rfl)
  | launch body hook hj hentry => exact h.spawn _
  | cut hst hend hhook hover => exact cancelled_cut s _ _
  | _ => exact h

theorem watches_cancelled :
    Watches (fun _ => False) (fun _ _ => True) (Cancelled : Scheduler V B → Prop) where
  change := UnwatchedChange.cancelled
  callbacks := fun _ _ _ => trivial
  cut_off := fun _ _ _ _ hwatched => hwatched.elim
  own := by
    intro s s' hs h
    cases hs with
    | still hstrands hjobs hhushed hover => exact h.hushed hhushed
    | row hst hstrands hstays hjobs hhushed hover => exact h.hushed hhushed
    | spawn r hhook hparent => exact h.spawn r
    | finish hst hrun hhook ok =>
      obtain ⟨idle, htells, -⟩ := markFinished_tells s _ ok
      exact h.tells htells
  finished := fun _ _ _ _ hwatched => hwatched.elim

/-- Once a strand has been cancelled, one has been cancelled for ever. -/
theorem Initial.cancelled_run (h : Initial s) (ha : s.Admissible (before ++ rest))
    (hc : Cancelled (s.run before)) : Cancelled (s.run (before ++ rest)) :=
  watches_cancelled.run h ha hc

end Scheduler
end CoopSched
