import CoopSched.Proofs.Scheduler.Placement
import CoopSched.Proofs.Scheduler.Segments

/-!
# Parts — what a move does before anything is set off

A move changes the row of its own strand first. Each of these changes keeps the strands placed; it
is here that a strand goes from the workers to the queue, to its bridge or to its end, and that
`busy` loses it.
-/

namespace CoopSched
namespace Scheduler

variable {V B : Type} {Ok : BridgeId → Wakeup V → Prop} {busy : List StrandId} {n : Nat}
  {s : Scheduler V B} {id : StrandId} {st : Strand V B}

theorem not_mem_erase (h : busy.Nodup) : id ∉ busy.erase id :=
  fun hmem => absurd rfl (h.mem_erase_iff.mp hmem).1

/-- A busy strand leaves its worker and is where its new row says. -/
theorem Placed.leave (h : Placed busy s) {s' : Scheduler V B} {st' : Strand V B}
    (hst : s.strand? id = some st) (hrun : st.status.isRunning = true)
    (hrow : ∀ k, s'.strand? k = if id = k then some st' else s.strand? k)
    (hbridges : s'.bridges = s.bridges) (hterm : s'.terminated = s.terminated)
    (hwaiting : s'.queue.waiting =
      if st'.status = .runnable then s.queue.waiting ++ [id] else s.queue.waiting)
    (hready : st'.status = .runnable ∨ st'.status = .blocked)
    (hslot : SlotFits s id st') (hsame : st'.bridge = st.bridge)
    (hbody : st'.body.isSome = true) : Placed (busy.erase id) s' := by
  have hread : ∀ b, s'.bridge? b = s.bridge? b := fun b => by rw [bridge?, bridge?, hbridges]
  have hwait : id ∉ s.queue.waiting := h.not_waiting hst (Status.not_ready_of_running hrun)
  refine h.change hrow (fun b k stage _ => by rw [hread]) ?_ ?_ (h.busy_nodup.erase id) ?_ ?_
    (hslot.congr fun b stage hb => (hread b).trans hb) ?_ (fun _ => hbody) ?_
  · rw [hwaiting]
    split
    · exact nodup_push h.waiting_nodup hwait
    · exact h.waiting_nodup
  · intro k hk
    rw [hwaiting] at hk
    split at hk
    next hs =>
      rcases List.mem_append.mp hk with hk | hk
      · exact Or.inl ⟨fun heq => hwait (heq ▸ hk), hk⟩
      · exact Or.inr ⟨(List.mem_singleton.mp hk).symm, hs⟩
    next => exact Or.inl ⟨fun heq => hwait (heq ▸ hk), hk⟩
  · intro k hk
    exact List.mem_erase_of_ne (Ne.symm hk)
  · refine ⟨fun hmem => absurd hmem (not_mem_erase h.busy_nodup), fun hr => ?_⟩
    rcases hready with hs | hs <;> rw [hs] at hr <;> cases hr
  · intro b hb
    rw [hread] at hb
    obtain ⟨old, hold, hor⟩ := h.pending b id hb
    rw [← Option.some.inj (hst.symm.trans hold)] at hor
    rcases hor with hend | hslot
    · rw [Status.not_running_of_terminal hend] at hrun
      cases hrun
    · exact Or.inr (hsame.trans hslot)
  · intro gone
    rw [h.gone (hterm ▸ gone)]
    rfl

/-! ## Bridges and bodies -/

theorem issueBridge_strand? (hst : s.strand? id = some st) (k : StrandId) :
    (s.issueBridge id).1.strand? k =
      if id = k then some { st with bridge := some ⟨s.bridges.next⟩ } else s.strand? k :=
  strand?_of_update_some (f := fun st => { st with bridge := some ⟨s.bridges.next⟩ }) rfl hst k

theorem issueBridge_bridge? (s : Scheduler V B) (id : StrandId) (b : BridgeId) :
    (s.issueBridge id).1.bridge? b =
      if (⟨s.bridges.next⟩ : BridgeId) = b then some ⟨id, .pending⟩ else s.bridge? b := by
  show (s.bridges.add { strand := id }).get? b.number = _
  rw [Table.get?_add]
  by_cases hb : (⟨s.bridges.next⟩ : BridgeId) = b
  · rw [if_pos hb, ← hb, if_pos rfl]
  · rw [if_neg hb, if_neg fun heq => hb (BridgeId.number_inj.mp heq.symm)]
    rfl

/-- A running strand with an empty slot has no mark. -/
theorem Placed.unmarked (h : Placed busy s) (hst : s.strand? id = some st)
    (hrun : st.status.isRunning = true) (hslot : st.bridge = none) :
    st.status = .running false := by
  obtain ⟨mark, hs⟩ := Status.exists_of_running hrun
  cases mark with
  | false => exact hs
  | true =>
    obtain ⟨b, hb⟩ := (h.slot id st hst).exists_bridge (Or.inr hs)
    rw [hslot] at hb
    cases hb

theorem bridge?_next (s : Scheduler V B) : s.bridge? ⟨s.bridges.next⟩ = none :=
  s.bridges.get?_next

theorem Placed.issue (h : Placed busy s) (hst : s.strand? id = some st)
    (hrun : st.status.isRunning = true) (hslot : st.bridge = none) :
    Placed busy (s.issueBridge id).1 := by
  have hs := h.unmarked hst hrun hslot
  refine h.change (issueBridge_strand? hst) ?_ h.waiting_nodup ?_ h.busy_nodup
    (fun _ _ => Iff.rfl) (show id ∈ busy ↔ st.status.isRunning = true from h.busy_iff_running hst)
    ?_ ?_ ?_ h.gone
  · intro b k stage hk
    rw [issueBridge_bridge?]
    split
    next hb =>
      subst hb
      rw [bridge?_next]
      constructor
      · intro heq
        exact absurd (congrArg Bridge.strand (Option.some.inj heq)) hk
      · intro heq
        cases heq
    next => exact Iff.rfl
  · intro k hk
    refine Or.inl ⟨?_, hk⟩
    rintro rfl
    exact h.not_waiting hst (by rw [hs]; decide) hk
  · unfold SlotFits
    simp only [hs]
    rw [issueBridge_bridge?, if_pos rfl]
  · intro b hb
    rw [issueBridge_bridge?] at hb
    split at hb
    next heq => exact Or.inr (congrArg some heq)
    next =>
      obtain ⟨old, hold, hor⟩ := h.pending b id hb
      rw [← Option.some.inj (hst.symm.trans hold), hslot, hs] at hor
      rcases hor with hend | hnone
      · cases hend
      · cases hnone
  · intro hready
    dsimp only at hready
    rw [hs] at hready
    rcases hready with hs | hs <;> cases hs

theorem keepBody_strand? (hst : s.strand? id = some st) (body : B) (k : StrandId) :
    (s.keepBody id body).strand? k =
      if id = k then some { st with body := some body } else s.strand? k :=
  strand?_of_update_some (f := fun st => { st with body := some body }) rfl hst k

theorem Placed.keepBody (h : Placed busy s) (hst : s.strand? id = some st)
    (hrun : st.status.isRunning = true) (body : B) : Placed busy (s.keepBody id body) := by
  refine h.change (keepBody_strand? hst body) (fun _ _ _ _ => Iff.rfl) h.waiting_nodup ?_
    h.busy_nodup (fun _ _ => Iff.rfl)
    (show id ∈ busy ↔ st.status.isRunning = true from h.busy_iff_running hst)
    (h.slot id st hst) ?_
    (fun _ => rfl) h.gone
  · intro k hk
    refine Or.inl ⟨?_, hk⟩
    rintro rfl
    refine h.not_waiting hst ?_ hk
    intro hs
    rw [hs] at hrun
    cases hrun
  · intro b hb
    obtain ⟨old, hold, hor⟩ := h.pending b id hb
    rw [← Option.some.inj (hst.symm.trans hold)] at hor
    exact hor

/-! ## The end of a segment -/

/-- What a strand parks on is what its mark says. -/
theorem Placed.block (h : Placed busy s) (hst : s.strand? id = some st)
    (hrun : st.status.isRunning = true) (hslot : st.bridge.isSome = true)
    (hbody : st.body.isSome = true) : Placed (busy.erase id) (s.block id) := by
  have hfits := h.slot id st hst
  obtain ⟨b, hb⟩ := Option.isSome_iff_exists.mp hslot
  obtain ⟨m, hm⟩ := Status.exists_of_running hrun
  obtain ⟨counters, journal, channel, heq⟩ := block_running hst hm
  generalize s.block id = s' at heq
  have hstrands : s'.strands = s.strands.update id.number (Strand.parked m) := by rw [heq]
  have hqueue : s'.queue = if m then s.queue.push id else s.queue := by rw [heq]
  refine h.leave hst hrun (strand?_of_update_some hstrands hst) (by rw [heq]) (by rw [heq]) ?_ ?_
    ?_ rfl hbody
  · rw [hqueue]
    cases m <;> rfl
  · cases m with
    | true => exact Or.inl rfl
    | false => exact Or.inr rfl
  · unfold SlotFits at hfits ⊢
    rw [hb, hm] at hfits
    rw [show (st.parked m).bridge = some b from hb]
    cases m with
    | true => exact hfits
    | false => exact hfits

theorem Placed.requeue (h : Placed busy s) (hst : s.strand? id = some st)
    (hrun : st.status.isRunning = true) (hslot : st.bridge = none)
    (hbody : st.body.isSome = true) : Placed (busy.erase id) (s.requeue id) := by
  have hs := h.unmarked hst hrun hslot
  rw [requeue_running hst hs]
  refine h.leave hst hrun (strand?_of_update_some rfl hst) rfl rfl (if_pos rfl).symm (Or.inl rfl)
    ?_ rfl hbody
  unfold SlotFits
  rw [show st.requeued.bridge = none from hslot]
  exact ⟨by simp [Strand.requeued], by simp [Strand.requeued]⟩

theorem Placed.running_not_waiting (h : Placed busy s) (hst : s.strand? id = some st)
    (hrun : st.status.isRunning = true) : id ∉ s.queue.waiting := by
  apply h.not_waiting hst
  intro hs
  rw [hs] at hrun
  cases hrun

theorem Placed.markFinished (h : Placed busy s) (hst : s.strand? id = some st)
    (hrun : st.status.isRunning = true) (ok : Bool) :
    Placed (busy.erase id) (s.markFinished id ok) := by
  obtain ⟨counters, journal, channel, heq⟩ := s.markFinished_eq id ok
  rw [heq]
  exact h.end_strand (h.running_not_waiting hst hrun) (strand?_of_update_some rfl hst)
    (fun _ _ _ _ => Iff.rfl) rfl rfl (Status.finished_terminal ok) rfl

theorem Placed.cut (h : Placed busy s) (hst : s.strand? id = some st)
    (hwait : id ∉ s.queue.waiting) : Placed (busy.erase id) (s.cut id st.bridge) := by
  obtain ⟨counters, journal, channel, heq⟩ := cut_eq hst
  generalize s.cut id st.bridge = s' at heq
  have hstrands : s'.strands = s.strands.update id.number Strand.cut := by rw [heq]
  refine h.end_strand hwait (strand?_of_update_some hstrands hst) ?_ (by rw [heq]) (by rw [heq])
    rfl rfl
  intro a k stage hk
  cases hslot : st.bridge with
  | none =>
    rw [hslot] at heq
    rw [heq]
    exact Iff.rfl
  | some b =>
    obtain ⟨old, hb⟩ := (h.slot id st hst).owner hslot
    have hbridges : s'.bridges = s.bridges.update b.number Bridge.shut := by rw [heq, hslot]
    exact bridge?_of_update_iff hbridges hb (Bridge.shut_strand _) hk a stage

theorem Placed.retire (h : Placed busy s) (id : StrandId) (kept : Option (Outcome V)) :
    Placed busy (s.retire id kept) :=
  h.of_row rfl (fun _ _ => ⟨rfl, rfl, rfl⟩) rfl rfl rfl

/-! ## The queue -/

theorem Queued.block (h : Queued s) (hst : s.strand? id = some st)
    (hrun : st.status.isRunning = true) : Queued (s.block id) := by
  obtain ⟨m, hm⟩ := Status.exists_of_running hrun
  obtain ⟨counters, journal, channel, heq⟩ := block_running hst hm
  rw [heq]
  refine h.of_row rfl (fun st' hst' hs => ?_) fun k hk _ => ?_
  · cases m with
    | true => exact List.mem_append_right _ List.mem_cons_self
    | false => cases hs
  · cases m with
    | true => exact List.mem_append_left _ hk
    | false => exact hk

theorem Queued.requeue (h : Queued s) (hst : s.strand? id = some st) {m : Bool}
    (hs : st.status = .running m) : Queued (s.requeue id) := by
  rw [requeue_running hst hs]
  exact h.of_row rfl (fun _ _ _ => List.mem_append_right _ List.mem_cons_self)
    fun _ hk _ => List.mem_append_left _ hk

theorem Queued.markFinished (h : Queued s) (id : StrandId) (ok : Bool) :
    Queued (s.markFinished id ok) := by
  obtain ⟨counters, journal, channel, heq⟩ := s.markFinished_eq id ok
  rw [heq]
  refine h.of_row rfl (fun _ _ hs => ?_) fun _ hk _ => hk
  have hend := Status.finished_terminal ok
  rw [show Status.finished ok = .runnable from hs] at hend
  cases hend

theorem Queued.cut (h : Queued s) (hst : s.strand? id = some st) :
    Queued (s.cut id st.bridge) := by
  obtain ⟨counters, journal, channel, heq⟩ := cut_eq hst
  rw [heq]
  exact h.of_row rfl (fun _ _ hs => by cases hs) fun _ hk _ => hk

/-! ## Soundness -/

theorem Sound.issue (h : Sound Ok n s) (id : StrandId) : Sound Ok n (s.issueBridge id).1 :=
  h.of_row (f := fun st => { st with bridge := some ⟨s.bridges.next⟩ }) rfl
    (fun _ _ => Or.inl rfl) (fun _ _ hrun => hrun) rfl rfl (fun hc => hc) (fun _ hk _ => hk)

theorem Sound.keepBody (h : Sound Ok n s) (id : StrandId) (body : B) :
    Sound Ok n (s.keepBody id body) :=
  h.of_row (f := fun st => { st with body := some body }) rfl
    (fun _ _ => Or.inl rfl) (fun _ _ hrun => hrun) rfl rfl (fun hc => hc) (fun _ hk _ => hk)

theorem Sound.block (h : Sound Ok n s) (hst : s.strand? id = some st)
    (hrun : st.status.isRunning = true) : Sound Ok n (s.block id) := by
  obtain ⟨m, hm⟩ := Status.exists_of_running hrun
  obtain ⟨counters, journal, channel, heq⟩ := block_running hst hm
  rw [heq]
  refine h.of_row rfl (fun _ _ => Or.inl rfl) (fun st' hst' _ => ?_) rfl rfl ?_ (fun _ hk _ => hk)
  · rw [← Option.some.inj (hst.symm.trans hst')]
    exact Status.not_terminal_of_running hrun
  · cases m <;> exact fun hc => hc

theorem Sound.requeue (h : Sound Ok n s) (hst : s.strand? id = some st)
    (hrun : st.status.isRunning = true) : Sound Ok n (s.requeue id) := by
  obtain ⟨m, hm⟩ := Status.exists_of_running hrun
  rw [requeue_running hst hm]
  refine h.of_row rfl (fun _ _ => Or.inl rfl) (fun st' hst' _ => ?_) rfl rfl (fun hc => hc)
    (fun _ hk _ => hk)
  rw [← Option.some.inj (hst.symm.trans hst')]
  exact Status.not_terminal_of_running hrun

theorem Sound.markFinished (h : Sound Ok n s) (id : StrandId) (ok : Bool) :
    Sound Ok n (s.markFinished id ok) := by
  obtain ⟨counters, journal, channel, heq⟩ := s.markFinished_eq id ok
  rw [heq]
  refine h.of_row rfl (fun _ _ => Or.inr rfl) (fun st _ hrun => ?_) rfl rfl (fun hc => hc)
    (fun _ hk _ => hk)
  rw [show (st.finished ok).status = .finished ok from rfl, Status.finished_terminal] at hrun
  cases hrun

theorem Sound.retire (h : Sound Ok n s) (hend : s.HasEnded id) (kept : Option (Outcome V)) :
    Sound Ok n (s.retire id kept) := by
  refine h.of_row rfl (fun _ _ => Or.inl rfl) (fun _ _ hrun => hrun) rfl rfl (fun hc => hc) ?_
  intro k hk hrun
  refine (List.mem_erase_of_ne ?_).mpr hk
  intro heq
  obtain ⟨st, hst, hst'⟩ := hrun heq
  have hst'' : st.status.isTerminal = false := hst'
  rw [hend.all st hst] at hst''
  cases hst''

/-! ## The middle of a move -/

/-- What holds in the middle of a move that began at `s₀`. -/
structure Mid (Ok : BridgeId → Wakeup V → Prop) (busy : List StrandId) (s₀ s : Scheduler V B) :
    Prop where
  steady : Steady s₀ s
  sound : ∃ n, Sound Ok n s
  placed : Placed busy s
  queued : Queued s₀ → Queued s

variable {s₀ : Scheduler V B}

theorem Mid.changes (h : Mid Ok busy s₀ s) {s' : Scheduler V B} (hd : Changes Ok s s') :
    Mid Ok busy s₀ s' where
  steady := h.steady.trans hd.steady
  sound := by
    obtain ⟨n, hn⟩ := h.sound
    exact ⟨n, hn.changes hd⟩
  placed := hd.placed h.placed
  queued := fun hq => hd.queued (h.queued hq)

/-- Changes that need the state to be sound. -/
theorem Mid.changes_of (h : Mid Ok busy s₀ s) {s' : Scheduler V B}
    (hd : ∀ n, Sound Ok n s → Changes Ok s s') : Mid Ok busy s₀ s' := by
  obtain ⟨n, hn⟩ := h.sound
  exact h.changes (hd n hn)

theorem Mid.issue (h : Mid Ok busy s₀ s) (hst : s.strand? id = some st)
    (hrun : st.status.isRunning = true) (hslot : st.bridge = none) :
    Mid Ok busy s₀ (s.issueBridge id).1 where
  steady := h.steady.trans (by constructor <;> rfl)
  sound := by
    obtain ⟨n, hn⟩ := h.sound
    exact ⟨n, hn.issue id⟩
  placed := h.placed.issue hst hrun hslot
  queued := fun hq => (h.queued hq).of_row
    (f := fun st => { st with bridge := some ⟨s.bridges.next⟩ }) rfl
    (fun st' hst' hs => h.queued hq id st' hst' hs) fun _ hk _ => hk

theorem Mid.keepBody (h : Mid Ok busy s₀ s) (hst : s.strand? id = some st)
    (hrun : st.status.isRunning = true) (body : B) : Mid Ok busy s₀ (s.keepBody id body) where
  steady := h.steady.trans (by constructor <;> rfl)
  sound := by
    obtain ⟨n, hn⟩ := h.sound
    exact ⟨n, hn.keepBody id body⟩
  placed := h.placed.keepBody hst hrun body
  queued := fun hq => (h.queued hq).of_row (f := fun st => { st with body := some body }) rfl
    (fun st' hst' hs => h.queued hq id st' hst' hs) fun _ hk _ => hk

theorem Mid.block (h : Mid Ok busy s₀ s) (hst : s.strand? id = some st)
    (hrun : st.status.isRunning = true) (hslot : st.bridge.isSome = true)
    (hbody : st.body.isSome = true) : Mid Ok (busy.erase id) s₀ (s.block id) where
  steady := by
    obtain ⟨m, hm⟩ := Status.exists_of_running hrun
    obtain ⟨counters, journal, channel, heq⟩ := block_running hst hm
    rw [heq]
    apply h.steady.trans
    cases m <;> constructor <;> rfl
  sound := by
    obtain ⟨n, hn⟩ := h.sound
    exact ⟨n, hn.block hst hrun⟩
  placed := h.placed.block hst hrun hslot hbody
  queued := fun hq => (h.queued hq).block hst hrun

theorem Mid.requeue (h : Mid Ok busy s₀ s) (hst : s.strand? id = some st)
    (hrun : st.status.isRunning = true) (hslot : st.bridge = none)
    (hbody : st.body.isSome = true) : Mid Ok (busy.erase id) s₀ (s.requeue id) where
  steady := by
    rw [requeue_running hst (h.placed.unmarked hst hrun hslot)]
    exact h.steady.trans (by constructor <;> rfl)
  sound := by
    obtain ⟨n, hn⟩ := h.sound
    exact ⟨n, hn.requeue hst hrun⟩
  placed := h.placed.requeue hst hrun hslot hbody
  queued := fun hq => (h.queued hq).requeue hst (h.placed.unmarked hst hrun hslot)

theorem Mid.retire (h : Mid Ok busy s₀ s) (hend : s.HasEnded id) (kept : Option (Outcome V)) :
    Mid Ok busy s₀ (s.retire id kept) where
  steady := h.steady.trans (by constructor <;> rfl)
  sound := by
    obtain ⟨n, hn⟩ := h.sound
    exact ⟨n, hn.retire hend kept⟩
  placed := h.placed.retire id kept
  queued := fun hq => (h.queued hq).of_row rfl (fun st hst hs => h.queued hq id st hst hs)
    fun _ hk _ => hk

theorem Mid.markFinished (h : Mid Ok busy s₀ s) (hst : s.strand? id = some st)
    (hrun : st.status.isRunning = true) (ok : Bool) :
    Mid Ok (busy.erase id) s₀ (s.markFinished id ok) where
  steady := by
    obtain ⟨counters, journal, channel, heq⟩ := s.markFinished_eq id ok
    rw [heq]
    exact h.steady.trans (by constructor <;> rfl)
  sound := by
    obtain ⟨n, hn⟩ := h.sound
    exact ⟨n, hn.markFinished id ok⟩
  placed := h.placed.markFinished hst hrun ok
  queued := fun hq => (h.queued hq).markFinished id ok

/-- A running strand finishes, and its outcome is handed over. -/
theorem Mid.finish (h : Mid Ok busy s₀ s) (hst : s.strand? id = some st)
    (hrun : st.status.isRunning = true) (outcome : Outcome V) :
    Mid Ok (busy.erase id) s₀ (s.finish id outcome) := by
  obtain ⟨m, hm⟩ := Status.exists_of_running hrun
  have hmark := h.markFinished hst hrun outcome.isOk
  have hended : (s.markFinished id outcome.isOk).HasEnded id := by
    obtain ⟨counters, journal, channel, heq⟩ := s.markFinished_eq id outcome.isOk
    rw [heq]
    refine ⟨st.finished outcome.isOk, ?_, Status.finished_terminal _⟩
    exact (strand?_of_update_some (s := s) rfl hst id).trans (if_pos rfl)
  rw [finish_running hst hm]
  obtain ⟨n, hn⟩ := hmark.sound
  have hd := changes_handOver hn id st outcome
  exact (hmark.changes hd).retire (hd.hasEnded hended) _

/-- A strand is cancelled wherever it is, unless it stands in the queue. -/
theorem Mid.cancel (h : Mid Ok busy s₀ s) (hwait : id ∉ s.queue.waiting) (reason : Failure) :
    Mid Ok (busy.erase id) s₀ (s.cancel id reason).1 := by
  cases hst : s.strand? id with
  | none =>
    have hnot : id ∉ busy := by
      rw [h.placed.busy_iff]
      rintro ⟨st, hst', -⟩
      rw [hst] at hst'
      cases hst'
    rw [cancel_none hst, List.erase_of_not_mem hnot]
    exact h
  | some st =>
    cases hend : st.status.isTerminal with
    | true =>
      have hnot := h.placed.not_busy hst (Status.not_running_of_terminal hend)
      rw [cancel_terminal ⟨st, hst, hend⟩, hnot]
      exact h
    | false =>
      obtain ⟨n, hn⟩ := h.sound
      obtain ⟨s', kept, hd, heq⟩ := cancel_running hn hst hend reason
      have hcut : Mid Ok (busy.erase id) s₀ (s.cut id st.bridge) :=
        { steady := h.steady.trans (.cut hst)
          sound := ⟨n, hn.cut hst⟩
          placed := h.placed.cut hst hwait
          queued := fun hq => (h.queued hq).cut hst }
      have hended : (s.cut id st.bridge).HasEnded id := by
        obtain ⟨counters, journal, channel, heq⟩ := cut_eq hst
        rw [heq]
        exact ⟨st.cut, (strand?_of_update_some (s := s) rfl hst id).trans (if_pos rfl), rfl⟩
      rw [heq]
      exact (hcut.changes hd).retire (hd.hasEnded hended) kept

end Scheduler
end CoopSched
