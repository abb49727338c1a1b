import CoopSched.Proofs.Scheduler.Watch

/-!
# Finishing — a strand finishes once

A strand finishes in the move that ends its last segment, with what that move says (`finishes`). It
has ended then, and nothing brings back a strand that has ended. So the outcome with which a strand
finished in the course of a run (`EndedIn`) is one outcome.
-/

namespace CoopSched
namespace Scheduler

variable {V B : Type} {s s' : Scheduler V B} {m : Move V B} {ms before rest : List (Move V B)}
  {k id : StrandId} {r r' : Outcome V}

/-- The strand finished with this outcome in the course of the moves. -/
def EndedIn (s : Scheduler V B) (ms : List (Move V B)) (id : StrandId) (r : Outcome V) : Prop :=
  ∃ before m rest, ms = before ++ m :: rest ∧ (s.run before).finishes m = some (id, r)

/-- What is so at a move of a run is so at an earlier one or at the last. -/
theorem exists_split_snoc {α : Type} {l : List α} {last : α} {P : List α → α → Prop} :
    (∃ before a rest, l ++ [last] = before ++ a :: rest ∧ P before a) ↔
      (∃ before a rest, l = before ++ a :: rest ∧ P before a) ∨ P l last := by
  constructor
  · rintro ⟨before, a, rest, heq, hp⟩
    rcases List.eq_nil_or_concat rest with rfl | ⟨rest, end', rfl⟩
    · obtain ⟨rfl, hlast⟩ := List.append_inj' heq rfl
      obtain rfl := (List.cons.inj hlast).1
      exact Or.inr hp
    · rw [List.concat_eq_append, ← List.cons_append, ← List.append_assoc] at heq
      exact Or.inl ⟨before, a, rest, (List.append_inj' heq rfl).1, hp⟩
  · rintro (⟨before, a, rest, rfl, hp⟩ | hp)
    · exact ⟨before, a, rest ++ [last], by simp, hp⟩
    · exact ⟨l, last, [], rfl, hp⟩

theorem endedIn_snoc : EndedIn s (ms ++ [m]) id r ↔
    EndedIn s ms id r ∨ (s.run ms).finishes m = some (id, r) :=
  exists_split_snoc (P := fun before m => (s.run before).finishes m = some (id, r))

/-! ## What has ended stays ended -/

theorem HasEnded.of_update (h : s.HasEnded k) {f : Strand V B → Strand V B}
    (hstrands : s'.strands = s.strands.update id.number f)
    (hf : ∀ st, s.strand? id = some st → st.status.isTerminal = true →
      (f st).status.isTerminal = true) : s'.HasEnded k := by
  obtain ⟨st, hst, hend⟩ := h
  unfold HasEnded
  rw [strand?_of_update hstrands, hst]
  split
  next hk =>
    subst hk
    exact ⟨f st, rfl, hf st hst hend⟩
  next => exact ⟨st, rfl, hend⟩

theorem HasEnded.spawn (h : s.HasEnded k) (r : SpawnRequest B) : (s.spawn r).1.HasEnded k := by
  obtain ⟨st, hst, hend⟩ := h
  exact ⟨st, strand?_spawn hst r, hend⟩

theorem UnwatchedChange.hasEnded {watched : JobId → Prop} {free : BridgeId → Prop}
    (hb : UnwatchedChange watched free s s') (h : s.HasEnded k) : s'.HasEnded k := by
  cases hb with
  | setBridge hb x => exact h
  | wake alive id =>
    obtain ⟨queue, counters, journal, channel, heq⟩ := wake_row alive id
    refine h.of_update (f := Strand.woken) (by rw [heq]) fun st _ hend => ?_
    rw [st.woken_terminal]
    exact hend
  | answered hj hentry answer => exact h
  | job hj hf => exact h
  | addJob entry hj hok => exact h
  | launch body hook hj hentry => exact h.spawn _
  | cut hst hend hhook hover =>
    obtain ⟨counters, journal, channel, heq⟩ := cut_eq hst
    exact h.of_update (f := Strand.cut) (by rw [heq]) fun _ _ _ => rfl
  | retire id kept => exact h.of_update (f := (·.publish kept)) rfl fun _ _ hend => hend

theorem OwnChange.hasEnded {watched : JobId → Prop} (hs : OwnChange watched s s')
    (h : s.HasEnded k) : s'.HasEnded k := by
  cases hs with
  | still hstrands hjobs hhushed hover =>
    obtain ⟨st, hst, hend⟩ := h
    exact ⟨st, by rw [← hst, strand?, strand?, hstrands], hend⟩
  | row hst hstrands hstays hjobs hhushed hover =>
    refine h.of_update hstrands fun st' hst' hend => ?_
    obtain rfl := Option.some.inj (hst.symm.trans hst')
    rw [hstays.ended]
    exact hend
  | spawn r hhook hparent => exact h.spawn r
  | finish hst hrun hhook ok =>
    obtain ⟨counters, journal, channel, heq⟩ := markFinished_eq s _ ok
    exact h.of_update (f := Strand.finished ok) (by rw [heq])
      fun _ _ _ => Status.finished_terminal ok

/-- Nothing brings back a strand that has ended. -/
theorem watches_hasEnded (k : StrandId) :
    Watches (fun _ => False) (fun _ _ => True) fun s : Scheduler V B => s.HasEnded k where
  change := UnwatchedChange.hasEnded
  callbacks := fun _ _ _ => trivial
  cut_off := fun _ _ _ _ hwatched => hwatched.elim
  own := OwnChange.hasEnded
  finished := fun _ _ _ _ hwatched => hwatched.elim

/-! ## The move that finishes a strand -/

/-- A strand finishes in a segment of its own, and not by being cut off. -/
theorem finishes_eq (h : s.finishes m = some (id, r)) :
    ∃ body step, m = .endSegment id body step ∧ (s.isCancelling && !step.isDone) = false ∧
      step.conclusion? ((s.strand? id).bind (·.bridge)).isSome = some r := by
  cases m with
  | endSegment k body step =>
    simp only [finishes] at h
    split at h
    · cases h
    next hnot =>
      obtain ⟨r', hcon, heq⟩ := Option.map_eq_some_iff.mp h
      obtain ⟨rfl, rfl⟩ := Prod.mk.inj heq
      exact ⟨body, step, rfl, Bool.eq_false_of_not_eq_true hnot, hcon⟩
  | _ => cases h

/-- A move that finishes a strand is the end of it. -/
theorem after_finishes (h : s.finishes m = some (id, r)) :
    s.after m = (s.finish id r).release id := by
  obtain ⟨body, step, rfl, hnot, hcon⟩ := finishes_eq h
  show s.endSegment id body step = _
  unfold endSegment follow
  rw [if_neg (by simp [hnot])]
  cases hslot : ((s.strand? id).bind (·.bridge)).isSome <;> rw [hslot] at hcon <;>
    cases step <;> simp only [Step.conclusion?] at hcon <;> cases hcon <;> rfl

/-- Only a strand that runs can finish. -/
theorem Placed.finishes (hp : Placed s.held s) (ha : s.Allows m)
    (h : s.finishes m = some (id, r)) :
    ∃ st, s.strand? id = some st ∧ st.status.isRunning = true := by
  obtain ⟨body, step, rfl, -⟩ := finishes_eq h
  exact (hp.busy_iff id).mp ha

theorem hasEnded_markFinished {st : Strand V B} (hst : s.strand? id = some st) (ok : Bool) :
    (s.markFinished id ok).HasEnded id := by
  obtain ⟨counters, journal, channel, heq⟩ := markFinished_eq s id ok
  refine ⟨st.finished ok, ?_, Status.finished_terminal ok⟩
  rw [strand?_of_update_some (f := Strand.finished ok) (by rw [heq]) hst, if_pos rfl]

/-- What every small change keeps is there after a move that finishes a strand, if it is there when
    the strand is marked. -/
theorem Stable.marked {Ok : BridgeId → Wakeup V → Prop} {drained : Bool}
    {P : Scheduler V B → Prop} (hs : Stable Ok drained s) (ha : s.Allows m)
    (h : s.finishes m = some (id, r)) (w : Watches (fun _ => False) (fun _ _ => True) P)
    (hmarked : P (s.markFinished id r.isOk)) : P (s.after m) := by
  obtain ⟨st, hst, hrun⟩ := hs.placed.finishes ha h
  obtain ⟨mark, hmark⟩ := Status.exists_of_running hrun
  rw [after_finishes h, finish_running hst hmark]
  refine w.release (w.change (.retire _ id _) ?_) id
  unfold handOver
  split
  · exact w.resolveWith w.cancel hmarked (fun hf => hf) r
  split
  next parent ps hp =>
    have hsettled := w.children hmarked parent fun _ => (ps.children.settle id r).1
    dsimp only
    split
    next fired hfired => exact w.deliverFired hsettled fun _ _ => trivial
    · exact w.report hsettled id _
  · exact w.report hmarked id r

theorem Stable.hasEnded {Ok : BridgeId → Wakeup V → Prop} {drained : Bool}
    (hs : Stable Ok drained s) (ha : s.Allows m) (h : s.finishes m = some (id, r)) :
    (s.after m).HasEnded id := by
  obtain ⟨st, hst, -⟩ := hs.placed.finishes ha h
  exact hs.marked ha h (watches_hasEnded id) (hasEnded_markFinished hst r.isOk)

theorem Initial.hasEnded_run (h : Initial s) (ha : s.Admissible (before ++ rest))
    (hend : (s.run before).HasEnded k) : (s.run (before ++ rest)).HasEnded k :=
  (watches_hasEnded k).run h ha hend

/-- Who finished has ended. -/
theorem Initial.hasEnded_of_endedIn (h : Initial s) (ha : s.Admissible ms)
    (hr : EndedIn s ms id r) : (s.run ms).HasEnded id := by
  obtain ⟨before, m, rest, rfl, hfinish⟩ := hr
  obtain ⟨hbefore, hm, -⟩ := admissible_append.mp ha
  have hended := (h.stable_run hbefore).hasEnded hm hfinish
  rw [← run_snoc] at hended
  rw [List.append_cons] at ha ⊢
  exact h.hasEnded_run ha hended

/-- A strand that finishes has not finished before. -/
theorem Initial.finishes_new (h : Initial s) (ha : s.Admissible (ms ++ [m]))
    (hfinish : (s.run ms).finishes m = some (id, r)) : ¬ EndedIn s ms id r' := by
  intro hr
  obtain ⟨hprev, hm, -⟩ := admissible_append.mp ha
  obtain ⟨st, hst, hrun⟩ := (h.stable_run hprev).placed.finishes hm hfinish
  have hterm := (h.hasEnded_of_endedIn hprev hr).all st hst
  rw [Status.not_terminal_of_running hrun] at hterm
  cases hterm

/-- **A strand finishes with one outcome.** -/
theorem Initial.endedIn_unique (h : Initial s) (ha : s.Admissible ms) (hr : EndedIn s ms id r)
    (hr' : EndedIn s ms id r') : r = r' := by
  induction ms using List.reverseRecOn with
  | nil =>
    obtain ⟨before, m, rest, heq, -⟩ := hr
    simp at heq
  | append_singleton ms m ih =>
    rcases endedIn_snoc.mp hr with hold | hnew <;> rcases endedIn_snoc.mp hr' with hold' | hnew'
    · exact ih (admissible_append.mp ha).1 hold hold'
    · exact absurd hold (h.finishes_new ha hnew')
    · exact absurd hold' (h.finishes_new ha hnew)
    · exact (Prod.mk.inj (Option.some.inj (hnew.symm.trans hnew'))).2

end Scheduler
end CoopSched
