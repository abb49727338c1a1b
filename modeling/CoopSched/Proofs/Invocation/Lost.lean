import CoopSched.Proofs.Invocation.Window

/-!
# Lost indices — a callable that panics

An index is claimed, and its input taken, before the callable is called on it. When the callable
panics there is no strand, and nobody has been told: a panic on the caller goes on to the caller,
one in a body ends the strand of the body, and one in the launch that follows the end of another
strand is swallowed. In each case the index stays unresolved, since nothing comes back to a claimed
index, and so the job never has its answer (`lost_for_good`).
-/

namespace CoopSched
namespace Scheduler

variable {V B : Type} {inv : Invocation V B} {Ended : StrandId → Outcome V → Prop}
  {calls : List (Option StrandId)} {exits : List (Exit V)} {s : Scheduler V B} {m : Move V B}
  {before rest : List (Move V B)} {i : Nat} {v : V} {p : Panic}

/-- An index is without a result and without a strand, and its job without an answer. -/
structure Lost (inv : Invocation V B) (i : Nat) (s : Scheduler V B) : Prop where
  unresolved : ∃ entry slot, s.job? inv.job = some entry ∧ entry.job.slots[i]? = some slot ∧
    slot.isUnresolved = true ∧ entry.job.isComplete = false
  strandless : ∀ k st, s.strand? k = some st → st.hook ≠ some ⟨inv.job, i⟩
  silent : answersOf inv.job s.journal.toList = []

/-- A call that panics has made no strand. -/
theorem Crew.call_ne (h : Crew inv Ended calls exits none s) (hv : inv.inputs[i]? = some v)
    (hp : inv.callable i v = .error p) (k : StrandId) : calls[i]? ≠ some (some k) := by
  intro hi
  obtain ⟨v', body, hv', hbody, -⟩ := h.made i k hi
  obtain rfl := Option.some.inj (hv.symm.trans hv')
  rw [hp] at hbody
  cases hbody

/-- An index on which the callable panics is lost, whether or not it has been called. -/
theorem Crew.lost_index (h : Crew inv Ended calls exits none s) (hv : inv.inputs[i]? = some v)
    (hp : inv.callable i v = .error p) : Lost inv i s := by
  obtain ⟨hlt, -⟩ := List.getElem?_eq_some_iff.mp hv
  have hnot : i ∉ (exits.map Exit.submission).map Prod.fst := by
    rw [List.map_map]
    rintro hmem
    obtain ⟨x, hx, rfl⟩ := List.mem_map.mp hmem
    exact h.call_ne hv hp _ (h.exit x (List.mem_append_left _ hx)).1
  obtain ⟨entry, n, hj, -, hstands, -⟩ := h.entry
  -- Were every index accepted, this one would be among them.
  have hshort : ¬ (exits.map Exit.submission).length = inv.inputs.length := fun hfull =>
    hnot (Job.mem_of_full hstands.index_lt hstands.index_nodup hfull hlt)
  obtain ⟨slot, hslot⟩ : ∃ slot, entry.job.slots[i]? = some slot :=
    ⟨_, List.getElem?_eq_getElem (hstands.slots_length.symm ▸ hlt)⟩
  refine ⟨⟨entry, slot, hj, hslot, (hstands.unresolved_iff i slot hslot).mpr hnot, ?_⟩, ?_, ?_⟩
  · exact Bool.eq_false_of_not_eq_true (mt hstands.complete_iff.mp hshort)
  · exact fun k st hst hhook => h.call_ne hv hp k (h.hooked k st i hst hhook)
  · have hanswers := h.answers
    rwa [if_neg (by simpa using hshort)] at hanswers

/-- **An index on which the callable panics is lost for good**, wherever the job was started and
    wherever the callable is called: it is not resolved, and the callback does not run, in every run
    in which nobody else uses the handle of the job. -/
theorem lost_for_good (hs : Initial s) (ha : s.Admissible (before ++ m :: rest))
    (hstart : (s.run before).starts m = some inv) (halone : ∀ m ∈ rest, ¬ m.Handles inv.job)
    (hv : inv.inputs[i]? = some v) (hp : inv.callable i v = .error p) :
    Lost inv i (s.run (before ++ m :: rest)) := by
  obtain ⟨calls, exits, hcrew, -⟩ := hs.staffed_run ha hstart halone
  exact hcrew.lost_index hv hp

/-- The callable panics on the second index, when the first strand has finished. -/
theorem lost_for_good_second :
    let callable : Nat → Nat → Except Panic Unit := fun i _ =>
      if i = 1 then .error (.text "callable") else .ok ()
    let start : Move Nat Unit := .invoke [10, 20] callable (.bounded 1) fun _ => []
    Lost ⟨⟨1⟩, [10, 20], callable, .bounded 1⟩ 1
      (single.run [start, .dispatch, .endSegment ⟨1⟩ () (.done (.ok 10))]) := by
  intro callable start
  have ha : single.Admissible
      ([] ++ start :: [.dispatch, .endSegment ⟨1⟩ () (.done (.ok 10))]) := by
    simp [start, callable, Admissible, Allows]
    decide
  have hstart : (single.run []).starts start =
      some ⟨⟨1⟩, [10, 20], callable, .bounded 1⟩ := rfl
  have hlost := lost_for_good single_initial ha hstart (by simp [Move.Handles])
    (show [10, 20][1]? = some 20 from rfl) (show callable 1 20 = .error (.text "callable") from rfl)
  rwa [List.nil_append] at hlost

/-- So it is not so that the callback has run once no strand of the job is left: the run above is
    one in which it has not, and the job is not complete. -/
theorem not_answered_second :
    ¬ ∀ (inv : Invocation Nat Unit) (m : Move Nat Unit) (rest : List (Move Nat Unit)),
      single.Admissible (m :: rest) → single.starts m = some inv →
      (∀ m ∈ rest, ¬ m.Handles inv.job) → (single.run (m :: rest)).underway inv.job = ∅ →
      (answersOf inv.job (single.run (m :: rest)).journal.toList).length = 1 ∧
        ((single.run (m :: rest)).job? inv.job).map (·.job.isComplete) = some true := by
  intro h
  have hrun := h ⟨⟨1⟩, [10, 20], fun i _ => if i = 1 then .error (.text "callable") else .ok (),
      .bounded 1⟩
    (.invoke [10, 20] (fun i _ => if i = 1 then .error (.text "callable") else .ok ()) (.bounded 1)
      fun _ => [])
    [.dispatch, .endSegment ⟨1⟩ () (.done (.ok 10))]
    (by simp [Admissible, Allows]; decide) rfl (by simp [Move.Handles]) (by decide)
  revert hrun
  decide

end Scheduler
end CoopSched
