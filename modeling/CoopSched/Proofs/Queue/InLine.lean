import CoopSched.Proofs.Queue.Calls
import CoopSched.Proofs.Shutdown.Report

/-!
# In line — strands are dispatched in the order in which they were enqueued

The ready queue is a plain list (`Refines`), and the workers take from its front. So at any moment
whoever waits is dispatched before anybody who does not (`Initial.not_overtaken`). A strand in the
middle of a segment does not wait: if it yields, it comes after everybody who waited then.

On a single worker the segments come one by one, too: it takes a strand only when it is through with
the one before (`Initial.dispatched_alone`).
-/

namespace CoopSched
namespace Scheduler

variable {V B : Type} {s : Scheduler V B} {m : Move V B} {ms before rest : List (Move V B)}
  {k id : StrandId} {body : B}

/-! ## Nobody is overtaken -/

/-- **Whoever waits is dispatched before anybody who does not.** -/
theorem Initial.not_overtaken (hs : Initial s) (ha : s.Admissible (before ++ rest))
    (hout : k ∉ (s.run before).queue.waiting) (hk : k ∈ (s.run before).gather dispatches rest) :
    ∃ later, (s.run before).gather dispatches rest = (s.run before).queue.waiting ++ later ∧
      k ∈ later := by
  have hline := hs.line_from ha
  rw [List.append_assoc, List.append_eq_append_iff] at hline
  rcases hline with ⟨later, heq, -⟩ | ⟨left, heq, -⟩
  · rw [heq, List.mem_append] at hk
    exact ⟨later, heq, hk.resolve_left hout⟩
  · -- Not all who waited have left, so nobody came after them.
    rw [heq] at hout
    exact absurd (List.mem_append_left left hk) hout

/-- Whoever is on a worker does not wait. -/
theorem Initial.held_not_waiting (hs : Initial s) (ha : s.Admissible ms)
    (hk : k ∈ (s.run ms).held) : k ∉ (s.run ms).queue.waiting := by
  have hplaced := (hs.stable_run ha).placed
  obtain ⟨st, hst, hrun⟩ := (hplaced.busy_iff k).mp hk
  exact hplaced.running_not_waiting hst hrun

/-- A strand that yields goes to the end of the line. -/
theorem Initial.yield_waiting (hs : Initial s)
    (ha : s.Admissible (ms ++ [.endSegment id body .yield]))
    (hopen : (s.run ms).isCancelling = false)
    (hslot : ((s.run ms).strand? id).bind (·.bridge) = none) :
    (s.run (ms ++ [.endSegment id body .yield])).queue.waiting =
      (s.run ms).queue.waiting ++ [id] := by
  obtain ⟨hprev, hheld, -⟩ := admissible_append.mp ha
  obtain ⟨st, hst, hrun⟩ := ((hs.stable_run hprev).placed.busy_iff id).mp hheld
  obtain ⟨mark, hmark⟩ := Status.exists_of_running hrun
  have hkept : ((s.run ms).keepBody id body).strand? id = some { st with body := some body } := by
    rw [keepBody, strand?_updateStrand_self, hst]
    rfl
  rw [run_snoc]
  show ((s.run ms).endSegment id body .yield).queue.waiting = _
  unfold endSegment follow
  simp only [hopen, hslot, Bool.false_and, Option.isSome_none, Bool.false_eq_true, if_false]
  rw [requeue_running hkept hmark]
  rfl

/-! ## A single worker -/

theorem Initial.workers_run (hs : Initial s) (ha : s.Admissible ms) :
    (s.run ms).workers = s.workers := by
  induction ms using List.reverseRecOn with
  | nil => rfl
  | append_singleton ms m ih =>
    obtain ⟨hprev, hm, -⟩ := admissible_append.mp ha
    rw [run_snoc, (hs.stable_run hprev).workers_after hm]
    exact ih hprev

/-- A single worker takes a strand when it is through with the one before. -/
theorem Initial.dispatched_alone (hs : Initial s) (hone : s.workers = 1)
    (ha : s.Admissible (ms ++ [m])) (hk : k ∈ (s.run ms).dispatches m) :
    (s.run ms).held = [] ∧ (s.run (ms ++ [m])).held = [k] := by
  have hprev := (admissible_append.mp ha).1
  have hfree : (s.run ms).canDispatch = true → (s.run ms).held = [] := by
    intro hcan
    have hlt := canDispatch_free hcan
    rw [hs.workers_run hprev, hone] at hlt
    exact List.length_eq_zero_iff.mp (Nat.lt_one_iff.mp hlt)
  cases m with
  | dispatch =>
    have hd := (hs.stable_run hprev).placed.dispatched
    rw [run_snoc]
    change k ∈ ((s.run ms).dispatch.2.map (·.strand)).toList at hk
    show _ ∧ (s.run ms).dispatch.1.held = [k]
    generalize (s.run ms).dispatch.1 = s', (s.run ms).dispatch.2 = seg at hd hk ⊢
    cases hd with
    | idle => cases hk
    | plain _ _ _ hcan =>
      rw [List.mem_singleton.mp hk, hfree hcan]
      exact ⟨rfl, rfl⟩
    | resumed _ _ _ hcan =>
      rw [List.mem_singleton.mp hk, hfree hcan]
      exact ⟨rfl, rfl⟩
  | _ => cases hk

/-! ## The law -/

/-- A single worker takes the strands in line. -/
structure InLine (s : Scheduler V B) (ms : List (Move V B)) : Prop where
  /-- Whoever was enqueued was dispatched, in turn, or was taken out by a shutdown, or waits. -/
  order : s.gather queues ms =
    s.gather dispatches ms ++ s.gather discards ms ++ (s.run ms).queue.waiting
  /-- One segment comes after the other. -/
  alone : ∀ before m rest k, ms = before ++ m :: rest → k ∈ (s.run before).dispatches m →
    (s.run before).held = [] ∧ (s.run (before ++ [m])).held = [k]
  /-- A strand that yields goes to the end of the line, -/
  yields : ∀ before id body rest, ms = before ++ .endSegment id body .yield :: rest →
    (s.run before).isCancelling = false → ((s.run before).strand? id).bind (·.bridge) = none →
    (s.run (before ++ [.endSegment id body .yield])).queue.waiting =
      (s.run before).queue.waiting ++ [id]
  /-- and is not dispatched again before everybody who waited when it yielded. -/
  lastly : ∀ before id body rest, ms = before ++ .endSegment id body .yield :: rest →
    id ∈ (s.run (before ++ [.endSegment id body .yield])).gather dispatches rest →
    ∃ later, (s.run (before ++ [.endSegment id body .yield])).gather dispatches rest =
      (s.run before).queue.waiting ++ later ∧ id ∈ later

theorem Initial.inLine (hs : Initial s) (hone : s.workers = 1) (ha : s.Admissible ms) :
    InLine s ms where
  order := hs.line_run ha
  alone := by
    intro before m rest k heq hk
    rw [heq, List.append_cons] at ha
    exact hs.dispatched_alone hone (admissible_append.mp ha).1 hk
  yields := by
    intro before id body rest heq hopen hslot
    rw [heq, List.append_cons] at ha
    exact hs.yield_waiting (admissible_append.mp ha).1 hopen hslot
  lastly := by
    intro before id body rest heq hk
    rw [heq] at ha
    obtain ⟨hprev, hheld, -⟩ := admissible_append.mp ha
    -- Ending the segment dispatches nobody.
    have hsame : (s.run before).gather dispatches (.endSegment id body .yield :: rest) =
        (s.run (before ++ [.endSegment id body .yield])).gather dispatches rest := by
      rw [run_snoc]
      rfl
    rw [← hsame] at hk ⊢
    exact hs.not_overtaken ha (hs.held_not_waiting hprev hheld) hk

/-- **First come, first served.** The ready queue is a plain list, whatever is called on it, and so
    a single worker takes the strands in the order in which they were enqueued. -/
theorem first_come_first_served (hs : Initial s) (hone : s.workers = 1) :
    (∀ calls, ReadyQueue.Refines calls (({} : ReadyQueue).serve calls).2
        (({} : ReadyQueue).serve calls).1) ∧
      ∀ ms, s.Admissible ms → InLine s ms :=
  ⟨ReadyQueue.refines_serve, fun _ ha => hs.inLine hone ha⟩

/-- A queue has room for two, and is closed while somebody is out; he comes back all the same. Two
    strands wait, the first of them yields, and a third one comes before he is dispatched again. -/
theorem first_come_first_served_yield :
    let calls : List ReadyQueue.Call := [.push ⟨1⟩, .offer ⟨2⟩ (some 2), .offer ⟨3⟩ (some 2), .pop,
      .close, .push ⟨1⟩, .offer ⟨3⟩ none, .release, .pop, .abort, .pop, .drain]
    let served := ({} : ReadyQueue).serve calls
    let ms : List (Move Nat Unit) := [.spawn () none, .spawn () none, .dispatch, .spawn () none,
      .endSegment ⟨1⟩ () .yield, .spawn () none, .dispatch, .endSegment ⟨2⟩ () (.done (.ok 5)),
      .dispatch, .endSegment ⟨3⟩ () (.done (.ok 6)), .dispatch]
    ReadyQueue.Refines calls served.2 served.1 ∧
      ReadyQueue.left served.2 = [⟨1⟩, ⟨2⟩, ⟨1⟩] ∧ ReadyQueue.Honest served.2 ∧
      served.1.running = 1 ∧
      InLine single ms ∧ single.gather dispatches ms = [⟨1⟩, ⟨2⟩, ⟨3⟩, ⟨1⟩] ∧
      (single.run ms).queue.waiting = [⟨4⟩] := by
  intro calls served ms
  have ha : single.Admissible ms := by simp [ms, Admissible, Allows]; decide
  obtain ⟨hqueue, hruns⟩ := first_come_first_served (single_initial (V := Nat) (B := Unit)) rfl
  refine ⟨hqueue calls, by decide, ?_, by decide, hruns ms ha, by decide, by decide⟩
  intro before after heq
  have hall : ∀ n < 13, ReadyQueue.returned (served.2.take n) ≤
      ReadyQueue.taken (served.2.take n) := by decide
  have hlength : before.length + after.length = 12 := by rw [← List.length_append, ← heq]; rfl
  rw [← show served.2.take before.length = before by rw [heq, List.take_left]]
  exact hall _ (by omega)

end Scheduler
end CoopSched
