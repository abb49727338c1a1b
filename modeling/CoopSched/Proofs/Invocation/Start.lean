import CoopSched.Proofs.Invocation.Staff
import CoopSched.Proofs.Scheduler.Finishing

/-!
# Starts — an invocation from its first moment on

A move that starts an iterative invocation adds the job and launches the first strands, one after
the other; each launch leaves one strand more to keep up (`Staffed.launchInitial`). From there on
every move that does not use the handle of the job keeps it staffed, and so a run does
(`Initial.staffed_run`).

What the strands of the job finished with is read off the moves of the run (`EndedIn`).
-/

namespace CoopSched
namespace Scheduler

variable {V B : Type} {inv : Invocation V B} {Ended : StrandId → Outcome V → Prop} {k : Nat}
  {s : Scheduler V B} {m : Move V B} {ms before rest : List (Move V B)}

/-- The invocation that a move starts. If making one of the first bodies panics the caller is not
    told of the job, and yet it has been started. -/
def starts (s : Scheduler V B) : Move V B → Option (Invocation V B)
  | .invoke inputs callable concurrency _ =>
      if s.isStopping then none else some ⟨⟨s.jobs.next⟩, inputs, callable, concurrency⟩
  | .invokeParked id inputs callable concurrency =>
      match (s.park id).2 with
      | .ok _ => some ⟨⟨s.jobs.next⟩, inputs, callable, concurrency⟩
      | .error _ => none
  | _ => none

/-! ## The job is added -/

/-- A number that no job has yet was never answered for. -/
theorem Orderly.answersOf_next (h : Orderly s) :
    answersOf ⟨s.jobs.next⟩ s.journal.toList = [] := by
  refine answersOf_nil ?_
  rintro rec hrec answer rfl
  exact Nat.lt_irrefl _ (h.journal _ hrec)

/-- The crew of a job that was just added: nobody. -/
theorem Crew.start (horderly : Orderly s) {entry : JobEntry V B}
    (hj : s.job? inv.job = some entry)
    (hdrive : entry.drive = some ⟨inv.inputs.map some, inv.callable, inv.concurrency.isChained⟩)
    (hstands : Job.Stands inv.inputs.length [] 0 entry.job)
    (hhooked : ∀ k st i, s.strand? k = some st → st.hook ≠ some ⟨inv.job, i⟩)
    (hanswers : if inv.inputs.length = 0
      then answersOf inv.job s.journal.toList = [.ok []]
      else answersOf inv.job s.journal.toList = []) :
    Crew inv Ended [] [] none s := by
  have hnoted : ∀ kind : Happening → Bool, noted kind [] s.journal.toList = [] := by
    intro kind
    rw [noted, List.filterMap_eq_nil_iff]
    intro rec _
    cases rec with
    | event e => exact if_neg fun h => absurd h.2 List.not_mem_nil
    | answered j answer => rfl
  refine
    { orderly := horderly,
      entry := ⟨entry, 0, hj, by rw [hdrive, List.length_nil, inv.driveAfter_zero], hstands,
        (Nat.zero_min _).symm⟩,
      lost := by simp, made := by simp, before := by simp, ascending := by simp,
      hooked := fun k st i hst hhook => absurd hhook (hhooked k st i hst), gone := by simp,
      exit := by simp, refusals := by simp, indices := by simp, births := hnoted _,
      ends := hnoted _, answers := ?_ }
  rw [List.length_nil]
  split at hanswers
  next h0 =>
    rw [if_pos h0.symm]
    exact ⟨_, hanswers, by simp [Job.Answers, h0]⟩
  next h0 =>
    rw [if_neg (Ne.symm h0)]
    exact hanswers

theorem Wide.start : Wide inv 0 [] [] s where
  le := Nat.zero_le _
  ahead := by simp
  never := fun _ beginning _ => by simp [noted]

/-- To add a job is to add its row. One without any index gives its answer at once. -/
theorem addJob_eq (s : Scheduler V B) (length : Nat) (callback : Callback V)
    (d : Option (Drive V B)) :
    (s.addJob length callback d).1 =
      let added := { s with jobs := s.jobs.add ⟨(Job.start length).1, callback, d⟩ }
      if length = 0 then
        performWith cancel
          { added with journal := s.journal.push (.answered ⟨s.jobs.next⟩ (.ok [])) }
          (callback (.ok []))
      else added := by
  have hanswer := Job.start_answer (V := V) length
  unfold addJob
  generalize (Job.start length : Job V × Option (Outcome (List V))) = start at hanswer ⊢
  obtain ⟨job, answer⟩ := start
  dsimp only at hanswer ⊢
  subst hanswer
  by_cases h0 : length = 0
  · have hread : (s.jobs.add ⟨job, callback, d⟩).get? s.jobs.next = some ⟨job, callback, d⟩ := by
      rw [Table.get?_add, if_pos rfl]
    rw [if_pos h0, if_pos h0]
    simp only [answerWith, job?, hread]
  · rw [if_neg h0, if_neg h0]

/-- A job that was just added has nothing to keep up yet. One without any index is complete. -/
theorem Orderly.staffed_addJob (h : Orderly s) (hjob : inv.job = ⟨s.jobs.next⟩)
    (Ended : StrandId → Outcome V → Prop) (callback : Callback V) :
    Staffed inv Ended 0 (s.addJob inv.inputs.length callback
      (some ⟨inv.inputs.map some, inv.callable, inv.concurrency.isChained⟩)).1 := by
  have hnone := h.answersOf_next
  rw [addJob_eq]
  dsimp only
  generalize hentry : (JobEntry.mk (Job.start inv.inputs.length).1 callback
    (some ⟨inv.inputs.map some, inv.callable, inv.concurrency.isChained⟩) : JobEntry V B) = entry
  have hread : (s.jobs.add entry).get? inv.job.number = some entry := by
    rw [Table.get?_add, hjob, if_pos rfl]
  have hdrive : entry.drive =
      some ⟨inv.inputs.map some, inv.callable, inv.concurrency.isChained⟩ := by rw [← hentry]
  have hstands : Job.Stands inv.inputs.length [] 0 entry.job := by
    rw [← hentry]
    exact Job.Stands.start _
  have hhooked : ∀ k st i, s.strand? k = some st → st.hook ≠ some ⟨inv.job, i⟩ := by
    intro k st i hst hhook
    have hlt := h.hooked k st _ hst hhook
    rw [hjob] at hlt
    exact Nat.lt_irrefl _ hlt
  have hadded : Orderly { s with jobs := s.jobs.add entry } :=
    watches_orderly.change (.addJob s entry (fun hf => hf) fun _ _ _ _ => trivial) h
  by_cases h0 : inv.inputs.length = 0
  · rw [if_pos h0, ← hjob]
    refine (guards_complete.performWith guards_complete.cancel ?_ fun _ _ _ => trivial).staffed
    refine ⟨[], [], Crew.start ?_ hread hdrive hstands hhooked ?_, h0.symm, fun _ => .start⟩
    · exact watches_orderly.change
        (.answered (s := { s with jobs := s.jobs.add entry }) (fun hf => hf) hread _) hadded
    · rw [if_pos h0]
      show answersOf inv.job (s.journal.push _).toList = _
      rw [Array.toList_push, answersOf_append, hjob, hnone]
      simp [answersOf]
  · rw [if_neg h0]
    refine ⟨[], [], Crew.start hadded hread hdrive hstands hhooked ?_, fun _ => .start⟩
    rw [if_neg h0, hjob]
    exact hnone

/-! ## The first strands -/

/-- A launch from outside leaves one strand more to keep up. -/
theorem Staffed.launchNext (h : Staffed inv Ended k s) (hk : k < inv.width) :
    Staffed inv Ended (k + 1) (launchNextWith cancel inv.job (s.launchRounds inv.job) s).1 ∧
      (inv.IsTotal →
        (launchNextWith cancel inv.job (s.launchRounds inv.job) s).2 = none) := by
  obtain ⟨calls, exits, hcrew, hwide⟩ := h
  obtain ⟨entry, n, hj, -, hstands, -⟩ := hcrew.entry
  have hrounds : s.launchRounds inv.job = inv.inputs.length + 1 := by
    unfold launchRounds
    rw [hj]
    exact congrArg (· + 1) hstands.slots_length
  exact hcrew.launchNext guards_complete.cancel (by omega) fun ht => ⟨k, rfl, hk, hwide ht⟩

/-- Without a body for each of the inputs there is nothing to keep up. -/
theorem Staffed.of_panic (h : Staffed inv Ended k s) (hnot : ¬ inv.IsTotal) (k' : Nat) :
    Staffed inv Ended k' s := by
  obtain ⟨calls, exits, hcrew, -⟩ := h
  exact ⟨calls, exits, hcrew, fun ht => absurd ht hnot⟩

theorem Staffed.launchInitial (h : Staffed inv Ended k s) (n : Nat) (hn : k + n ≤ inv.width) :
    Staffed inv Ended (k + n) (launchInitial inv.job n s).1 := by
  induction n generalizing k s with
  | zero => exact h
  | succ n ih =>
    obtain ⟨hstaffed, hnone⟩ := h.launchNext (by omega)
    unfold Scheduler.launchInitial
    generalize launchNextWith cancel inv.job (s.launchRounds inv.job) s = result at hstaffed hnone
    obtain ⟨s', p⟩ := result
    cases p with
    | none =>
      rw [show k + (n + 1) = k + 1 + n by omega]
      exact ih hstaffed (by omega)
    | some p =>
      refine hstaffed.of_panic (fun ht => ?_) _
      cases hnone ht

theorem Orderly.staffed_drive (h : Orderly s) (hjob : inv.job = ⟨s.jobs.next⟩)
    (Ended : StrandId → Outcome V → Prop) (callback : Callback V) :
    Staffed inv Ended inv.width
      (s.drive inv.inputs inv.callable inv.concurrency callback).1 := by
  have hlaunch := (h.staffed_addJob hjob Ended callback).launchInitial inv.width
    (by rw [Nat.zero_add])
  rw [Nat.zero_add] at hlaunch
  rw [drive_eq, ← hjob]
  exact hlaunch

/-- **An invocation is staffed when it has been started.** -/
theorem Orderly.staffed_after (h : Orderly s) (hstart : s.starts m = some inv) :
    Staffed inv Ended inv.width (s.after m) := by
  cases m with
  | invoke inputs callable concurrency callback =>
    simp only [starts] at hstart
    split at hstart
    · cases hstart
    next hgo =>
      obtain rfl := Option.some.inj hstart
      have hdrive := h.staffed_drive
        (show (⟨⟨s.jobs.next⟩, inputs, callable, concurrency⟩ : Invocation V B).job = _ from rfl)
        Ended callback
      show Staffed _ Ended _ (s.invoke inputs callable concurrency callback).1
      unfold invoke
      rw [if_neg hgo]
      split
      next heq =>
        rw [heq] at hdrive
        exact hdrive
      next heq =>
        rw [heq] at hdrive
        exact hdrive
  | invokeParked id inputs callable concurrency =>
    rcases invokeParked_cases s id inputs callable concurrency with
      ⟨⟨e, hpark⟩, -⟩ | ⟨st, hst, hrun, hslot, hpark, heq⟩
    · simp only [starts, hpark] at hstart
      cases hstart
    · simp only [starts, hpark] at hstart
      obtain rfl := Option.some.inj hstart
      show Staffed _ Ended _ (s.invokeParked id inputs callable concurrency).1
      rw [heq]
      exact (watches_orderly.issue h hst hrun).staffed_drive rfl Ended _
  | _ => cases hstart

/-! ## Runs -/

/-- A staffed invocation stays staffed in the course of moves that leave its handle alone. -/
theorem Initial.staffed_of_run (h : Initial s) (ha : s.Admissible (before ++ rest))
    (hstaffed : Staffed inv Ended k (s.run before))
    (halone : ∀ m ∈ rest, ¬ m.Handles inv.job)
    (hended : ∀ id r, EndedIn s (before ++ rest) id r → Ended id r) :
    Staffed inv Ended k (s.run (before ++ rest)) := by
  -- On the moves after the start, from the end: each comes in a stable state.
  induction rest using List.reverseRecOn with
  | nil => rwa [List.append_nil]
  | append_singleton rest m ih =>
    rw [← List.append_assoc] at ha hended ⊢
    obtain ⟨hprev, hm, -⟩ := admissible_append.mp ha
    have hthis := ih hprev (fun m' hm' => halone m' (List.mem_append_left _ hm')) (by
      rintro id r ⟨done, m', todo, heq, hfinish⟩
      exact hended id r ⟨done, m', todo ++ [m], by rw [heq]; simp, hfinish⟩)
    have hjob : inv.job.number < (s.run (before ++ rest)).jobs.next := by
      obtain ⟨calls, exits, hcrew, -⟩ := hthis
      obtain ⟨entry, -, hj, -⟩ := hcrew.entry
      exact Table.lt_next_of_get? hj
    rw [run_append]
    refine watches_staffed.after hthis (h.stable_run hprev) hm ?_ ?_ ?_
    · rintro j hj rfl
      exact halone m (by simp) hj
    · intro _ hnew
      rw [← hnew] at hjob
      exact Nat.lt_irrefl _ hjob
    · exact fun id r hfinish => hended id r ⟨before ++ rest, m, [], rfl, hfinish⟩

/-- **An invocation stays staffed**, in every run in which nobody else uses the handle of its
    job. -/
theorem Initial.staffed_run (h : Initial s) (ha : s.Admissible (before ++ m :: rest))
    (hstart : (s.run before).starts m = some inv) (halone : ∀ m ∈ rest, ¬ m.Handles inv.job) :
    Staffed inv (EndedIn s (before ++ m :: rest)) inv.width (s.run (before ++ m :: rest)) := by
  obtain ⟨hbefore, -⟩ := admissible_append.mp ha
  have hafter : Staffed inv (EndedIn s (before ++ m :: rest)) inv.width
      (s.run (before ++ [m])) := by
    rw [run_append]
    exact (h.orderly_run hbefore).staffed_after hstart
  rw [List.append_cons] at ha hafter ⊢
  exact h.staffed_of_run ha hafter halone fun _ _ hr => hr

end Scheduler
end CoopSched
