import CoopSched.Proofs.Scheduler.Cascade
import CoopSched.Proofs.Scheduler.Finishing
import CoopSched.Proofs.Scheduler.Orderly

/-!
# Cutting — whom the journal reports as cancelled

Strands are cancelled by shutdowns only, and who is cancelled has ended with that. Who had ended
before is not cancelled any more.
-/

namespace CoopSched
namespace Scheduler

variable {V B : Type} {s s' : Scheduler V B} {ms before rest : List (Move V B)} {k : StrandId}
  {watched : JobId → Prop} {free : BridgeId → Prop}

/-- A shutdown has cancelled the strand. -/
def WasCut (s : Scheduler V B) (k : StrandId) : Prop :=
  .event ⟨k, .cancelled⟩ ∈ s.journal.toList

theorem Tells.wasCut {recs : List (Record V)} (h : Tells s s' recs) :
    s'.WasCut k ↔ s.WasCut k ∨ .event ⟨k, .cancelled⟩ ∈ recs := by
  rw [WasCut, h, List.mem_append]
  rfl

theorem Hushed.wasCut (h : Hushed s s') : s'.WasCut k ↔ s.WasCut k := by
  obtain ⟨recs, htells, hidle⟩ := h
  rw [htells.wasCut, or_iff_left]
  intro hmem
  cases hidle _ hmem

theorem WasCut.spawn (r : SpawnRequest B) : (s.spawn r).1.WasCut k ↔ s.WasCut k := by
  rcases spawn_told s r with ⟨-, heq⟩ | ⟨counters, channel, heq⟩ | ⟨counters, channel, heq⟩ <;>
    rw [heq]
  · rw [Tells.wasCut (s := s) (.push rfl)]
    simp
  · rw [Tells.wasCut (show Tells s _ [.event ⟨⟨s.strands.next⟩, .created⟩,
      .event ⟨⟨s.strands.next⟩, .rejected⟩] by simp [Tells])]
    simp

/-- A small change that cancels a strand comes in a shutdown, and it ends the strand. -/
theorem UnwatchedChange.wasCut (hb : UnwatchedChange watched free s s') (h : s'.WasCut k) :
    s.WasCut k ∨ s.isShutDown = true ∧ ¬ s.HasEnded k ∧ s'.HasEnded k := by
  cases hb with
  | wake alive id => exact Or.inl ((hushed_wake alive id).wasCut.mp h)
  | answered hj hentry answer =>
    rcases (Tells.wasCut (.push rfl)).mp h with hold | hmem
    · exact Or.inl hold
    · cases List.mem_singleton.mp hmem
  | launch body hook hj hentry => exact Or.inl ((WasCut.spawn _).mp h)
  | @cut id st hst hend hhook hover =>
    obtain ⟨idle, htells, hidle⟩ := cut_tells s id st.bridge
    rcases htells.wasCut.mp h with hold | hmem
    · exact Or.inl hold
    rcases List.mem_append.mp hmem with hmem | hmem
    · cases hidle _ hmem
    · cases List.mem_singleton.mp hmem
      refine Or.inr ⟨hover, fun hended => ?_, st.cut, (cut_row hst _).trans (if_pos rfl), rfl⟩
      cases hend.symm.trans (hended.all st hst)
  | _ => exact Or.inl h

/-- A strand that finishes is not cancelled with that. -/
theorem wasCut_markFinished {id : StrandId} {ok : Bool} (h : (s.markFinished id ok).WasCut k) :
    s.WasCut k := by
  obtain ⟨idle, htells, hidle⟩ := markFinished_tells s id ok
  rcases htells.wasCut.mp h with hold | hmem
  · exact hold
  · rcases List.mem_cons.mp hmem with heq | hmem
    · cases heq
    · cases hidle _ hmem

theorem OwnChange.wasCut (hs : OwnChange watched s s') (h : s'.WasCut k) : s.WasCut k := by
  cases hs with
  | still hstrands hjobs hhushed hover => exact hhushed.wasCut.mp h
  | row hst hstrands hstays hjobs hhushed hover => exact hhushed.wasCut.mp h
  | spawn r hhook hparent => exact (WasCut.spawn r).mp h
  | finish hst hrun hhook ok => exact wasCut_markFinished h

theorem Steady.isShutDown (h : Steady s s') : s'.isShutDown = s.isShutDown := by
  rw [Scheduler.isShutDown, Scheduler.isShutDown, isCancelling, isCancelling, h.phase,
    h.terminated]

theorem UnwatchedChange.isShutDown (hb : UnwatchedChange watched free s s') :
    s'.isShutDown = s.isShutDown := by
  cases hb with
  | wake alive id => exact (Steady.wake alive id).isShutDown
  | launch body hook hj hentry => exact (Steady.spawn s _).isShutDown
  | cut hst hend hhook hover => exact (Steady.cut hst).isShutDown
  | _ => rfl

theorem OwnChange.isShutDown (hs : OwnChange watched s s') (h : s.isShutDown = true) :
    s'.isShutDown = true := by
  cases hs with
  | still hstrands hjobs hhushed hover => exact hover h
  | row hst hstrands hstays hjobs hhushed hover => exact hover.trans h
  | spawn r hhook hparent => exact (Steady.spawn s r).isShutDown.trans h
  | finish hst hrun hhook ok => exact (Lasts.markFinished s _ ok).isShutDown.trans h

/-- Who was cancelled was cancelled by a shutdown, and has ended. -/
theorem watches_wasCut (k : StrandId) :
    Watches (fun _ => False) (fun _ _ => True) fun s : Scheduler V B =>
      s.WasCut k → s.isShutDown = true ∧ s.HasEnded k where
  change := by
    intro s s' hb h hcut
    rcases hb.wasCut hcut with hold | ⟨hover, -, hended⟩
    · exact ⟨hb.isShutDown.trans (h hold).1, hb.hasEnded (h hold).2⟩
    · exact ⟨hb.isShutDown.trans hover, hended⟩
  callbacks := fun _ _ _ => trivial
  cut_off := fun _ _ _ _ hwatched => hwatched.elim
  own := by
    intro s s' hs h hcut
    have hold := h (hs.wasCut hcut)
    exact ⟨hs.isShutDown hold.1, hs.hasEnded hold.2⟩
  finished := fun _ _ _ _ hwatched => hwatched.elim

/-- Who has ended without being cancelled is never cancelled. -/
theorem watches_uncut (k : StrandId) :
    Watches (fun _ => False) (fun _ _ => True) fun s : Scheduler V B =>
      s.HasEnded k ∧ ¬ s.WasCut k where
  change := by
    rintro s s' hb ⟨hended, hnot⟩
    refine ⟨hb.hasEnded hended, fun hcut => ?_⟩
    rcases hb.wasCut hcut with hold | ⟨-, hlive, -⟩
    · exact hnot hold
    · exact hlive hended
  callbacks := fun _ _ _ => trivial
  cut_off := fun _ _ _ _ hwatched => hwatched.elim
  own := by
    rintro s s' hs ⟨hended, hnot⟩
    exact ⟨hs.hasEnded hended, fun hcut => hnot (hs.wasCut hcut)⟩
  finished := fun _ _ _ _ hwatched => hwatched.elim

theorem Initial.wasCut_run (hs : Initial s) (ha : s.Admissible ms) (hcut : (s.run ms).WasCut k) :
    (s.run ms).isShutDown = true ∧ (s.run ms).HasEnded k := by
  refine (watches_wasCut k).run_initial hs ha (fun hno => ?_) hcut
  rw [WasCut, hs.journal] at hno
  cases hno

/-- **Who has ended otherwise is not cancelled.** -/
theorem Initial.uncut_run (hs : Initial s) (ha : s.Admissible (before ++ rest))
    (hended : (s.run before).HasEnded k) (hnot : ¬ (s.run before).WasCut k) :
    ¬ (s.run (before ++ rest)).WasCut k :=
  ((watches_uncut k).run hs ha ⟨hended, hnot⟩).2

/-- **Who finished is not cancelled.** -/
theorem Initial.uncut_endedIn {r : Outcome V} (hs : Initial s) (ha : s.Admissible ms)
    (hr : EndedIn s ms k r) : ¬ (s.run ms).WasCut k := by
  obtain ⟨before, m, rest, rfl, hfinish⟩ := hr
  obtain ⟨hbefore, hm, -⟩ := admissible_append.mp ha
  have hstable := hs.stable_run hbefore
  obtain ⟨st, hst, hrun⟩ := hstable.placed.finishes hm hfinish
  have hnot : ¬ (s.run before).WasCut k := fun hcut => by
    have hterm := (hs.wasCut_run hbefore hcut).2.all st hst
    cases (Status.not_terminal_of_running hrun).symm.trans hterm
  -- It is marked as finished before anything is set off.
  have hafter := hstable.marked hm hfinish (watches_uncut k)
    ⟨hasEnded_markFinished hst r.isOk, fun hcut => hnot (wasCut_markFinished hcut)⟩
  rw [← run_snoc] at hafter
  rw [List.append_cons] at ha ⊢
  exact hs.uncut_run ha hafter.1 hafter.2

end Scheduler
end CoopSched
