import CoopSched.Proofs.Outcome.Gathered
import CoopSched.Proofs.Shutdown.Cutters
import CoopSched.Proofs.Shutdown.Stopped

/-!
# Reports — what a shutdown reports, and what it leaves out

A shutdown reports how many strands its clean-up cancelled, and how many it took out of the ready
queue. Both are seen in the moves of the run (`reportIn`), and that is what `finishShutdown` returns
when nothing comes in between (`Initial.report_finish`).

Whoever comes into the ready queue is dispatched or taken out at the end (`Initial.line_run`), so
the second figure is right. The first one leaves out whoever was cancelled by a worker or by a
completion: it is what the counter says only if there is nobody like that (`shutdown_reported`).
-/

namespace CoopSched
namespace Scheduler

variable {V B α : Type} {s : Scheduler V B} {m : Move V B} {ms before waiting : List (Move V B)}
  {k : StrandId} {mode : ShutdownMode} {Ok : BridgeId → Wakeup V → Prop} {drained : Bool}

/-- The strand that a move of the clean-up cancels, if it comes in time. -/
def cleansUp (s : Scheduler V B) : Move V B → List StrandId
  | .cancel id => if (s.cancel id s.cleanUpReason).2 then [id] else []
  | _ => []

/-- The strands that a move takes out of the ready queue for good. -/
def discards (s : Scheduler V B) : Move V B → List StrandId
  | .drain => s.queue.drain.2
  | _ => []

/-- What a shutdown has to report of a run. -/
def reportIn (s : Scheduler V B) (ms : List (Move V B)) : ShutdownReport :=
  ⟨(s.gather cleansUp ms).length, (s.gather discards ms).length⟩

/-- The strands that come into the ready queue with a move. -/
def queues (s : Scheduler V B) (m : Move V B) : List StrandId :=
  if m.takesOut then [] else (s.after m).queue.waiting.drop s.queue.waiting.length

/-- The strand that a move dispatches. -/
def dispatches (s : Scheduler V B) (m : Move V B) : List StrandId :=
  ((s.segment? m).map (·.strand)).toList

/-! ## As long as there are workers -/

theorem Initial.not_cleanUp (hs : Initial s) (ha : s.Admissible ms)
    (alive : (s.run ms).terminated = false) : ∀ m ∈ ms, m.isCleanUp = false := by
  have hstart := hs.stable_run (show s.Admissible [] from trivial)
  have hany := (hstart.alive_run ha (fun _ m _ _ => respects_all _ m) alive).2
  exact fun m hm => Bool.eq_false_iff.mpr (List.any_eq_false.mp hany m hm)

/-- Nothing is to be reported before the clean-up. -/
theorem gather_cleanUp {see : Scheduler V B → Move V B → List α}
    (hsee : ∀ s m, m.isCleanUp = false → see s m = []) (h : ∀ m ∈ ms, m.isCleanUp = false) :
    s.gather see ms = [] := by
  refine List.eq_nil_iff_forall_not_mem.mpr fun a hmem => ?_
  obtain ⟨before, m, rest, rfl, hseen⟩ := mem_gather.mp hmem
  rw [hsee _ _ (h m (by simp))] at hseen
  cases hseen

theorem cleansUp_nil (s : Scheduler V B) (m : Move V B) (h : m.isCleanUp = false) :
    s.cleansUp m = [] := by
  cases m <;> first | rfl | cases h

theorem discards_nil (s : Scheduler V B) (m : Move V B) (h : m.isCleanUp = false) :
    s.discards m = [] := by
  cases m <;> first | rfl | cases h

/-! ## The clean-up -/

/-- The clean-up counts a strand just when it cancels it. -/
theorem Initial.cancel_counts {id : StrandId} (hs : Initial s)
    (ha : s.Admissible (ms ++ [.cancel id])) :
    ((s.run ms).cancel id (s.run ms).cleanUpReason).2 = true ↔ (s.run ms).Cuts (.cancel id) id := by
  have hstable := hs.stable_run (admissible_append.mp ha).1
  have hafter : s.run (ms ++ [.cancel id]) =
      ((s.run ms).cancel id (s.run ms).cleanUpReason).1 := run_snoc s ms _
  rw [hs.cuts_iff ha, hafter]
  cases hst : (s.run ms).strand? id with
  | none =>
    rw [cancel_none hst]
    exact ⟨fun h => (by cases h), fun h => absurd h.2.1 h.1⟩
  | some st =>
    cases hend : st.status.isTerminal with
    | true =>
      rw [cancel_terminal ⟨st, hst, hend⟩]
      exact ⟨fun h => (by cases h), fun h => absurd ⟨st, hst, hend⟩ h.1⟩
    | false =>
      obtain ⟨n, hn⟩ := hstable.sound
      obtain ⟨s', kept, -, heq⟩ := cancel_running hn hst hend (s.run ms).cleanUpReason
      have hended := hstable.hasEnded_cancel hst (s.run ms).cleanUpReason
      refine ⟨fun _ => ⟨fun h => ?_, hended, fun r h => (by cases h)⟩, fun _ => by rw [heq]⟩
      cases hend.symm.trans (h.all st hst)

theorem Initial.mem_cleansUp (hs : Initial s) (ha : s.Admissible (ms ++ [m])) :
    k ∈ (s.run ms).cleansUp m ↔ (s.run ms).Cuts m k ∧ Cutter.Of (s.run ms) k .cleanUp m := by
  cases m with
  | cancel id =>
    have hcounts := hs.cancel_counts ha
    rw [cleansUp]
    constructor
    · intro hk
      split at hk
      next hcancelled =>
        obtain rfl := List.mem_singleton.mp hk
        exact ⟨hcounts.mp hcancelled, .cleanUp⟩
      next => cases hk
    · rintro ⟨hcuts, hof⟩
      cases hof
      rw [if_pos (hcounts.mpr hcuts)]
      exact List.mem_singleton.mpr rfl
  | _ =>
    constructor
    · intro hk
      cases hk
    · rintro ⟨-, hof⟩
      cases hof

theorem Initial.mem_cleanedUp (hs : Initial s) (ha : s.Admissible ms) :
    k ∈ s.gather cleansUp ms ↔ CutBy s ms .cleanUp k := by
  rw [mem_gather, CutBy]
  refine exists_congr fun before => exists_congr fun m => exists_congr fun rest =>
    and_congr_right fun heq => hs.mem_cleansUp ?_
  rw [heq, List.append_cons] at ha
  exact (admissible_append.mp ha).1

/-- Nobody is cleaned up twice. -/
theorem Initial.cleanedUp_nodup (hs : Initial s) (ha : s.Admissible ms) :
    (s.gather cleansUp ms).Nodup := by
  induction ms using List.reverseRecOn with
  | nil => exact List.nodup_nil
  | append_singleton ms m ih =>
    have hprev := (admissible_append.mp ha).1
    rw [gather_snoc]
    refine List.nodup_append.mpr ⟨ih hprev, ?_, fun i hi j hj heq => ?_⟩
    · cases m <;> first | exact List.nodup_nil | skip
      rw [cleansUp]
      split
      · exact List.nodup_singleton _
      · exact List.nodup_nil
    · rw [← heq] at hj
      exact ((hs.mem_cleansUp ha).mp hj).1.1
        ((hs.wasCut_iff_cutBy hprev).mpr ⟨_, (hs.mem_cleanedUp hprev).mp hi⟩)

/-! ## The ready queue -/

/-- Nobody is dispatched with the workers gone. -/
theorem dispatches_nil (gone : s.terminated = true) (m : Move V B) : s.dispatches m = [] := by
  rw [dispatches, segment_refused gone]
  rfl

/-- Who waits, and who comes into the queue with a move, is dispatched by it, or discarded, or he
    waits when it is through. -/
theorem Initial.line_after (hs : Initial s) (ha : s.Admissible (ms ++ [m])) :
    (s.run ms).queue.waiting ++ (s.run ms).queues m =
      (s.run ms).dispatches m ++ (s.run ms).discards m ++ (s.run (ms ++ [m])).queue.waiting := by
  cases htakes : m.takesOut with
  | false =>
    obtain ⟨new, hnew⟩ := (hs.moveChange ha).queueGrows htakes
    have hidle : (s.run ms).dispatches m = [] ∧ (s.run ms).discards m = [] := by
      cases m <;> first | exact ⟨rfl, rfl⟩ | cases htakes
    rw [queues, htakes, if_neg Bool.false_ne_true, ← run_snoc, hnew, List.drop_left, hidle.1,
      hidle.2]
    rfl
  | true =>
    rw [queues, htakes, if_pos rfl, List.append_nil, run_snoc]
    cases m with
    | dispatch =>
      have hdispatched := (hs.stable_run (admissible_append.mp ha).1).placed.dispatched
      show _ = ((s.run ms).dispatch.2.map (·.strand)).toList ++ [] ++
        (s.run ms).dispatch.1.queue.waiting
      generalize (s.run ms).dispatch.1 = s', (s.run ms).dispatch.2 = seg at hdispatched ⊢
      cases hdispatched with
      | idle => rfl
      | plain _ _ _ _ hq => exact hq
      | resumed _ _ _ _ hq => exact hq
    | drain => exact (List.append_nil _).symm
    | _ => cases htakes

/-- From any moment on: whoever waits then, and then whoever comes into the ready queue, is
    dispatched, in turn, or taken out at the end, or still waits. -/
theorem Initial.line_from (hs : Initial s) (ha : s.Admissible (before ++ ms)) :
    (s.run before).queue.waiting ++ (s.run before).gather queues ms =
      (s.run before).gather dispatches ms ++ (s.run before).gather discards ms ++
        (s.run (before ++ ms)).queue.waiting := by
  induction ms using List.reverseRecOn with
  | nil => rw [List.append_nil]; exact List.append_nil _
  | append_singleton ms m ih =>
    rw [← List.append_assoc] at ha ⊢
    have hprev := (admissible_append.mp ha).1
    have hline := hs.line_after ha
    rw [run_append] at hline
    -- Nobody is discarded before the last one was dispatched.
    have horder : (s.run before).gather discards ms ++ ((s.run before).run ms).dispatches m =
        ((s.run before).run ms).dispatches m ++ (s.run before).gather discards ms := by
      cases gone : (s.run (before ++ ms)).terminated with
      | true => rw [← run_append, dispatches_nil gone, List.append_nil, List.nil_append]
      | false =>
        have hearly := fun m hm => hs.not_cleanUp hprev gone m (List.mem_append_right before hm)
        rw [gather_cleanUp discards_nil hearly, List.append_nil, List.nil_append]
    calc (s.run before).queue.waiting ++ (s.run before).gather queues (ms ++ [m])
      _ = (s.run before).gather dispatches ms ++ (s.run before).gather discards ms ++
            (((s.run before).run ms).queue.waiting ++ ((s.run before).run ms).queues m) := by
          rw [gather_snoc, ← List.append_assoc, ih hprev, run_append, List.append_assoc]
      _ = (s.run before).gather dispatches ms ++
            ((s.run before).gather discards ms ++ ((s.run before).run ms).dispatches m) ++
            ((s.run before).run ms).discards m ++ (s.run (before ++ ms ++ [m])).queue.waiting := by
          rw [hline]
          simp only [List.append_assoc]
      _ = (s.run before).gather dispatches (ms ++ [m]) ++
            (s.run before).gather discards (ms ++ [m]) ++
            (s.run (before ++ ms ++ [m])).queue.waiting := by
          rw [horder, gather_snoc, gather_snoc]
          simp only [List.append_assoc]

/-- **Whoever comes into the ready queue is dispatched**, in turn, or taken out at the end, or still
    waits. -/
theorem Initial.line_run (hs : Initial s) (ha : s.Admissible ms) :
    s.gather queues ms =
      s.gather dispatches ms ++ s.gather discards ms ++ (s.run ms).queue.waiting := by
  have hline := hs.line_from (show s.Admissible ([] ++ ms) from ha)
  rwa [run_nil, hs.empty.2.2.2.2.1] at hline

/-! ## Without anything in between -/

/-- What the clean-up counts are the strands that its moves cancel. -/
theorem cancelAll_count (hs : Stable Ok drained s) (gone : s.terminated = true)
    (hwaiting : s.queue.waiting = []) (ids : List StrandId) :
    (cancelAll s.cleanUpReason ids s).2 = (s.gather cleansUp (ids.map .cancel)).length := by
  induction ids generalizing s drained with
  | nil => rfl
  | cons id rest ih =>
    have hnext := hs.cancel gone hwaiting id s.cleanUpReason
    have hnot : id ∉ s.queue.waiting := by simp [hwaiting]
    have hsteady := (hs.mid.cancel hnot s.cleanUpReason).steady
    have hreason := cleanUpReason_congr hsteady.phase
    obtain ⟨n, hn⟩ := hs.sound
    have hrest := ih hnext (hsteady.terminated.trans gone) (by rw [cancel_queue hn gone, hwaiting])
    rw [hreason] at hrest
    rw [List.map_cons, gather, List.length_append, show s.after (.cancel id) =
      (s.cancel id s.cleanUpReason).1 from rfl, ← hrest, cleansUp]
    generalize hn : (cancelAll s.cleanUpReason rest (s.cancel id s.cleanUpReason).1).2 = n
    show (if (s.cancel id s.cleanUpReason).2 then
      (cancelAll s.cleanUpReason rest (s.cancel id s.cleanUpReason).1).2 + 1
      else (cancelAll s.cleanUpReason rest (s.cancel id s.cleanUpReason).1).2) = _
    rw [hn]
    split
    · rw [List.length_singleton, Nat.add_comm]
    · rw [List.length_nil, Nat.zero_add]

theorem gather_cancels (s : Scheduler V B) (ids : List StrandId) :
    s.gather discards (ids.map .cancel) = [] := by
  induction ids generalizing s with
  | nil => rfl
  | cons id rest ih => exact ih (s.after (.cancel id))

/-- A shutdown ends when nobody is on a worker, and with the workers still there. -/
theorem canFinishShutdown_idle (h : s.canFinishShutdown = true) :
    s.terminated = false ∧ s.held = [] := by
  unfold canFinishShutdown at h
  cases hphase : s.phase <;> rw [hphase] at h <;> simp at h
  · exact ⟨h.1.1, h.1.2⟩
  · exact h

/-- **What `finishShutdown` returns is what the run has to report.** -/
theorem Initial.report_finish (hs : Initial s) (ha : s.Admissible ms)
    (hidle : (s.run ms).canFinishShutdown = true) :
    s.reportIn (ms ++ (s.run ms).closing) = (s.run ms).finishShutdown.2 := by
  obtain ⟨alive, hheld⟩ := canFinishShutdown_idle hidle
  have hearly := hs.not_cleanUp ha alive
  have hdrained := ((hs.stable_run ha).closeQueue.terminate rfl hheld).drain
  rw [reportIn, gather_append, gather_append, gather_cleanUp cleansUp_nil hearly,
    gather_cleanUp discards_nil hearly, List.nil_append, List.nil_append]
  have hcancelled : ((s.run ms).gather cleansUp (s.run ms).closing).length =
      (s.run ms).finishShutdown.2.cancelled :=
    (cancelAll_count hdrained rfl rfl (s.run ms).live).symm
  have hdiscarded : (s.run ms).gather discards (s.run ms).closing = (s.run ms).queue.waiting := by
    show (s.run ms).queue.waiting ++ gather _ discards ((s.run ms).live.map .cancel) = _
    rw [gather_cancels, List.append_nil]
  rw [hcancelled, hdiscarded]
  rfl

/-! ## The law -/

/-- What a report says of a run in which a shutdown has returned. -/
structure Reported (s : Scheduler V B) (ms : List (Move V B)) (report : ShutdownReport) : Prop where
  /-- The counter, the observers and the strands agree on who was cancelled. -/
  counted : (s.run ms).stats.counted.cancelled =
    (s.run ms).journal.toList.countP (·.counter? == some .cancelled)
  cancelled : (s.run ms).stats.counted.cancelled = {k | (s.run ms).WasCut k}.ncard
  /-- Whoever failed without having finished was cancelled. -/
  moved : ∀ k, (s.run ms).WasCut k ↔
    (s.run ms).status? k = some .doneError ∧ ∀ r, ¬ EndedIn s ms k r
  /-- He was cancelled in one of three ways. -/
  way : ∀ k, (s.run ms).WasCut k ↔ ∃! c, CutBy s ms c k
  /-- Reported are the strands to which the clean-up came first, -/
  cleanedUp : report.cancelled = {k | CutBy s ms .cleanUp k}.ncard
  /-- and the others are left out. -/
  leftOut : (s.run ms).stats.counted.cancelled = report.cancelled +
    ({k | CutBy s ms .worker k}.ncard + {k | CutBy s ms .completion k}.ncard)
  complete : report.cancelled = (s.run ms).stats.counted.cancelled ↔
    ∀ k, ¬ CutBy s ms .worker k ∧ ¬ CutBy s ms .completion k
  /-- Of those who came into the ready queue the first were dispatched, in turn, and the others are
      reported. -/
  discarded : ∃ left, s.gather queues ms = s.gather dispatches ms ++ left ∧
    report.discarded = left.length

theorem ShutsDown.reported (hdown : ShutsDown s mode ms) (hs : Initial s) (ha : s.Admissible ms) :
    Reported s ms (s.reportIn ms) := by
  have hcleanedUp : (s.reportIn ms).cancelled = {k | CutBy s ms .cleanUp k}.ncard :=
    length_eq_ncard (hs.cleanedUp_nodup ha) fun k => hs.mem_cleanedUp ha
  have hleftOut : (s.run ms).counters.cancelled = (s.reportIn ms).cancelled +
      ({k | CutBy s ms .worker k}.ncard + {k | CutBy s ms .completion k}.ncard) := by
    rw [hcleanedUp, hs.cancelled_eq_sum ha]
  have hempty : ∀ c, {k | CutBy s ms c k}.ncard = 0 ↔ ∀ k, ¬ CutBy s ms c k := fun c => by
    rw [Set.ncard_eq_zero (hs.cutBy_finite ha c), Set.eq_empty_iff_forall_notMem]
    rfl
  refine
    { counted := hs.counter_eq ha .cancelled
      cancelled := hs.cancelled_eq_ncard ha
      moved := fun k => hs.wasCut_iff ha
      way := fun k => ?_
      cleanedUp := hcleanedUp
      leftOut := hleftOut
      complete := ?_
      discarded := ⟨s.gather discards ms, ?_, rfl⟩ }
  · rw [hs.wasCut_iff_cutBy ha]
    exact ⟨fun ⟨c, hc⟩ => ⟨c, hc, fun c' hc' => hs.cutBy_unique ha hc' hc⟩,
      fun ⟨c, hc, _⟩ => ⟨c, hc⟩⟩
  · show _ = (s.run ms).counters.cancelled ↔ _
    rw [forall_and, ← hempty, ← hempty, hleftOut]
    omega
  · have hstopped := hdown.stopped hs ((List.append_nil ms).symm ▸ ha)
    rw [List.append_nil] at hstopped
    rw [hs.line_run ha, hstopped.waiting, List.append_nil]

/-- **What a shutdown reports**, in either mode. -/
theorem shutdown_reported (hs : Initial s) :
    (∀ mode ms, s.Admissible ms → ShutsDown s mode ms → Reported s ms (s.reportIn ms)) ∧
      ∀ mode before waiting, s.Admissible (before ++ [.beginShutdown mode] ++ waiting) →
        (s.run before).isStopping = false →
        (s.run (before ++ [.beginShutdown mode] ++ waiting)).canFinishShutdown = true →
        ∃ ending, s.Admissible (before ++ [.beginShutdown mode] ++ waiting ++ ending) ∧
          ShutsDown s mode (before ++ [.beginShutdown mode] ++ waiting ++ ending) ∧
          (s.run (before ++ [.beginShutdown mode] ++ waiting)).finishShutdown =
            (s.run (before ++ [.beginShutdown mode] ++ waiting ++ ending),
              s.reportIn (before ++ [.beginShutdown mode] ++ waiting ++ ending)) := by
  refine ⟨fun mode ms ha hdown => hdown.reported hs ha,
    fun mode before waiting ha hopen hidle => ?_⟩
  obtain ⟨ha', hdown, hrun⟩ := hs.shutsDown_finish ha hopen (canFinishShutdown_idle hidle).2
  exact ⟨_, ha', hdown, Prod.ext hrun.symm (hs.report_finish ha hidle).symm⟩

/-- An immediate shutdown finds a strand of a job blocked, and another one that is blocked on the
    bridge which the callback of the job completes; a third one is in a segment and yields, and a
    fourth one waits. The clean-up cancels the first and the last of them, and all four are
    cancelled. -/
theorem shutdown_reported_four :
    let before : List (Move Nat Unit) := [
      .invoke [10] (fun _ _ => .ok ()) .unbounded fun _ => [.complete ⟨2⟩ (.completed (.ok 7))],
      .dispatch, .park ⟨1⟩, .endSegment ⟨1⟩ () .park, .spawn () none, .dispatch, .park ⟨2⟩,
      .endSegment ⟨2⟩ () .park, .spawn () none, .dispatch, .spawn () none]
    let begun := before ++ [.beginShutdown .immediate] ++ [.endSegment ⟨3⟩ () .yield]
    let ms := begun ++ [.terminate, .drain, .cancel ⟨1⟩, .cancel ⟨2⟩, .cancel ⟨4⟩]
    Reported single ms (single.reportIn ms) ∧ single.reportIn ms = ⟨2, 1⟩ ∧
      (single.run ms).stats.counted.cancelled = 4 ∧
      (∃ ending, (single.run begun).finishShutdown =
        (single.run (begun ++ ending), single.reportIn (begun ++ ending))) ∧
      (single.run begun).finishShutdown.2 = ⟨2, 1⟩ := by
  intro before begun ms
  have ha : single.Admissible ms := by simp [ms, begun, before, Admissible, Allows]; decide
  have hdown : ShutsDown single .immediate ms := by
    refine ⟨before, [.endSegment ⟨3⟩ () .yield], [], [], [.cancel ⟨1⟩, .cancel ⟨2⟩, .cancel ⟨4⟩],
      rfl, rfl, fun k hk => ?_⟩
    have hlive : (single.run (begun ++ [.terminate] ++ [] ++ [.drain] ++ [])).live =
        [⟨1⟩, ⟨2⟩, ⟨4⟩] := rfl
    rw [hlive] at hk
    simp only [List.mem_cons, List.not_mem_nil, or_false] at hk
    rcases hk with rfl | rfl | rfl <;> simp
  obtain ⟨hreported, hfinish⟩ := shutdown_reported single_initial
  obtain ⟨ending, -, -, heq⟩ :=
    hfinish .immediate before [.endSegment ⟨3⟩ () .yield] (admissible_append.mp ha).1 rfl rfl
  exact ⟨hreported .immediate ms ha hdown, by decide, by decide, ⟨ending, heq⟩, by decide⟩

/-- So it is not so that a shutdown reports all strands that it cancels: one that is in a segment
    when an immediate shutdown begins, and yields then, is cancelled by its worker. -/
theorem not_reported_yield :
    ¬ ∀ (s : Scheduler Nat Unit) (mode : ShutdownMode) (before waiting : List (Move Nat Unit)),
      Initial s → s.Admissible (before ++ [.beginShutdown mode] ++ waiting) →
      (s.run before).isStopping = false →
      (s.run (before ++ [.beginShutdown mode] ++ waiting)).canFinishShutdown = true →
      (s.run (before ++ [.beginShutdown mode] ++ waiting)).finishShutdown.2.cancelled =
        (s.run (before ++ [.beginShutdown mode] ++
          waiting)).finishShutdown.1.stats.counted.cancelled := by
  intro h
  have hrun := h single .immediate [.spawn () none, .dispatch] [.endSegment ⟨1⟩ () .yield]
    single_initial (by simp [Admissible, Allows]; decide) rfl rfl
  revert hrun
  decide

end Scheduler
end CoopSched
