import CoopSched.Proofs.Shutdown.Descent
import CoopSched.Proofs.Shutdown.Parentage
import CoopSched.Proofs.Shutdown.Tidy

/-!
# In order — the clean-up ends, and takes everybody once

When the workers are gone a clean-up cancels the live strands one after the other, and whatever that
sets off comes to an end before it goes on. Nobody is cancelled twice and nobody is left out, and no
job hands an index out twice (`CleansUp`). If the only callbacks that complete bridges are those
with which strands park on invocations, the cancellations do not even nest, and they come in the
order of the numbers (`clean_up_in_order`).
-/

namespace CoopSched
namespace Scheduler

variable {V B : Type} {s d t : Scheduler V B} {marks : List Mark} {ids : List StrandId}
  {reason : Failure}

/-- What the cancellations that these marks tell of do, from `d` to `t`. -/
structure CleansUp (d : Scheduler V B) (marks : List Mark) (t : Scheduler V B) : Prop where
  /-- No strand is cancelled twice, … -/
  once : (opened marks).Nodup
  /-- … none that has ended already, … -/
  unended : ∀ id ∈ opened marks, ∃ st, d.strand? id = some st ∧ st.status.isTerminal = false
  /-- … every other live one, … -/
  all : ∀ id st, id ∈ d.live → d.strand? id = some st → st.status.isTerminal = false →
    id ∈ opened marks
  /-- … and then they have all ended. -/
  ended : ∀ id st, id ∈ d.live → t.strand? id = some st → st.status.isTerminal = true
  /-- The observers are told of just these cancellations, in this order. -/
  told : cancellations t.journal.toList = cancellations d.journal.toList ++ opened marks
  /-- No index of a job is handed out twice, … -/
  claimed : ∀ j, (drawn j marks).Nodup
  /-- … and none but those that a job with a drive had left. -/
  unclaimed : ∀ j, ∀ index ∈ drawn j marks, ∃ entry, d.job? j = some entry ∧
    entry.drive.isSome = true ∧ entry.job.cursor ≤ index ∧ index < entry.job.length

/-- Who was to be cancelled has ended. -/
theorem Unwinds.all_ended (h : Unwinds s (.strands ids reason) marks t)
    (hclosed : s.queue.closed = true) : ∀ id ∈ ids, id.number ∉ t.unfinished := by
  induction ids generalizing s marks with
  | nil => exact fun id hid => absurd hid List.not_mem_nil
  | cons id rest ih =>
    cases h with
    | @cons _ s₁ _ _ _ _ marks marks' hone hrest =>
      have hspends := hone.spends hclosed
      have hclosed' := hspends.closed.trans hclosed
      intro k hk hleft
      rcases List.mem_cons.mp hk with rfl | hk
      · have hstill := ((hspends.unfinished k).mp ((hrest.spends hclosed').subset hleft))
        cases hone with
        | ended hend =>
          obtain ⟨st, hst, hnot⟩ := mem_unfinished.mp hstill.1
          cases hnot.symm.trans (hend st hst)
        | alone => exact hstill.2 List.mem_cons_self
        | hooked => exact hstill.2 List.mem_cons_self
      · exact ih hrest hclosed' k hk hleft

theorem Unwinds.cleansUp (h : Unwinds d (.strands d.live reason) marks t)
    (hclosed : d.queue.closed = true) : CleansUp d marks t := by
  have hspends := h.spends hclosed
  have hover := h.all_ended hclosed
  refine
    { once := hspends.opened_nodup, unended := fun id hid => ?_, all := fun id st hid hst hend => ?_
      ended := fun id st hid hst => ?_, told := hspends.told, claimed := fun j => ?_
      unclaimed := fun j index hindex => ?_ }
  · exact mem_unfinished.mp (hspends.opened_unfinished id hid)
  · by_contra hnot
    exact hover id hid ((hspends.unfinished id).mpr ⟨mem_unfinished.mpr ⟨st, hst, hend⟩, hnot⟩)
  · by_contra hnot
    exact hover id hid (mem_unfinished.mpr ⟨st, hst, by simpa using hnot⟩)
  · cases hj : d.job? j with
    | none => rw [(hspends.strange j hj).2]; exact List.nodup_nil
    | some entry =>
      obtain ⟨entry', -, hentailed⟩ := hspends.jobs j entry hj
      exact hentailed.drawn.nodup
  · cases hj : d.job? j with
    | none => rw [(hspends.strange j hj).2] at hindex; cases hindex
    | some entry =>
      obtain ⟨entry', -, hentailed⟩ := hspends.jobs j entry hj
      exact ⟨entry, rfl, hentailed.only (List.ne_nil_of_mem hindex), hentailed.drawn.bounds hindex⟩

/-- **A clean-up ends, and in order.** From every state whose workers are gone the cancellations
    come to an end, in one way only, and they take every live strand once. In a run, where `d` is
    what is left when the queue has been emptied, this is what the clean-up does, and if the
    callbacks are tame the live strands are cancelled one by one, in the order of their numbers. -/
theorem clean_up_in_order (gone : d.terminated = true) (hclosed : d.queue.closed = true) :
    ∃ marks t, Unwinds d (.strands d.live d.cleanUpReason) marks t ∧
      (∀ marks' t', Unwinds d (.strands d.live d.cleanUpReason) marks' t' →
        marks' = marks ∧ t' = t) ∧
      CleansUp d marks t ∧
      ∀ (s : Scheduler V B) (ms : List (Move V B)), Initial s → s.Admissible ms →
        (s.run ms).terminated = true → (s.run ms).after .drain = d →
        (s.run ms).cleanUp.1 = t ∧ (opened marks).Perm d.live ∧
        ((∀ m ∈ ms, m.IsTame) → OneByOne marks ∧ opened marks = d.live ∧
          (opened marks).Pairwise fun k k' => k.number < k'.number) := by
  obtain ⟨marks, t, hun⟩ := exists_unwinds gone hclosed d.live d.cleanUpReason
  refine ⟨marks, t, hun, fun marks' t' => hun.unique, hun.cleansUp hclosed, ?_⟩
  rintro s ms hs ha hterm rfl
  have ha' : s.Admissible (ms ++ [.drain]) := admissible_append.mpr ⟨ha, hterm, trivial⟩
  have hrun : s.run (ms ++ [.drain]) = (s.run ms).after .drain := run_snoc s ms .drain
  have hstable := hs.stable_run ha'
  have htidy := hs.tidy_run ha'
  rw [hrun] at hstable htidy
  have hspends := hun.spends hclosed
  have hperm : (opened marks).Perm ((s.run ms).after .drain).live := by
    refine (List.perm_ext_iff_of_nodup hspends.opened_nodup htidy.listed.nodup).mpr fun id => ?_
    constructor
    · intro hid
      obtain ⟨st, hst, hend⟩ := (hun.cleansUp hclosed).unended id hid
      exact (htidy.live_iff hst).mpr hend
    · intro hid
      obtain ⟨st, hst, -⟩ := Option.map_eq_some_iff.mp ((htidy.listed.live id).mp hid)
      exact (hun.cleansUp hclosed).all id st hid hst ((htidy.live_iff hst).mp hid)
  refine ⟨?_, hperm, fun htame => ?_⟩
  · obtain ⟨marks', hfun⟩ := hstable.unwinds gone rfl ((s.run ms).after .drain).live
    exact (hun.unique hfun).2
  · have htame' : ∀ m ∈ ms ++ [.drain], m.IsTame := by
      intro m hm
      rcases List.mem_append.mp hm with hm | hm
      · exact htame m hm
      · rw [List.mem_singleton.mp hm]
        trivial
    have hparent := hs.parented_run ha' htame'
    rw [hrun] at hparent
    obtain ⟨hone, hsub⟩ := hun.one_by_one hclosed hparent htidy.listed.ascending fun m hm => by
      obtain ⟨st, hst, hend⟩ := mem_unfinished.mp hm
      exact (htidy.live_iff hst).mpr hend
    have hsame := hsub.eq_of_length hperm.length_eq
    exact ⟨hone, hsame, hsame ▸ htidy.listed.ascending⟩

/-- A strand is blocked on an invocation, and the first strand of the invocation is blocked too. The
    parent goes first; its child then has the job hand out the two indices that are left. -/
theorem clean_up_in_order_parked :
    let ms : List (Move Nat Unit) := [
      .spawn () none, .dispatch, .invokeParked ⟨1⟩ [10, 20, 30] (fun _ _ => .ok ()) (.bounded 1),
      .endSegment ⟨1⟩ () .park, .dispatch, .park ⟨2⟩, .endSegment ⟨2⟩ () .park,
      .beginShutdown .graceful, .closeQueue, .terminate]
    let d := (single.run ms).after .drain
    ∃ marks, Unwinds d (.strands d.live d.cleanUpReason) marks (single.run ms).cleanUp.1 ∧
      OneByOne marks ∧ opened marks = [⟨1⟩, ⟨2⟩] := by
  intro ms d
  have ha : single.Admissible ms := by simp [ms, Admissible, Allows]; decide
  obtain ⟨marks, t, hun, -, -, hrun⟩ := clean_up_in_order (d := d) rfl rfl
  obtain ⟨rfl, -, htame⟩ := hrun single ms single_initial ha rfl rfl
  obtain ⟨hone, hlive, -⟩ := htame (by simp [ms, Move.IsTame])
  exact ⟨marks, hun, hone, hlive.trans rfl⟩

end Scheduler
end CoopSched
