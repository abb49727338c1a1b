import CoopSched.Proofs.Scheduler.Parts

/-!
# How a segment ends and how one begins

A body says what it wants, and the worker does it: the strand is finished, queued again, or parked
on a bridge or on its children. Whatever that is, the strand is not busy afterwards and is placed
(`Mid.follow`). A worker that begins a segment makes the strand in front busy (`Placed.begun`).
-/

namespace CoopSched
namespace Scheduler

variable {V B : Type} {Ok : BridgeId → Wakeup V → Prop} {busy : List StrandId} {n : Nat}
  {s₀ s : Scheduler V B} {id : StrandId} {st : Strand V B}

/-! ## Parking on children -/

theorem arm_waiter (g : Group V) (mode : WaitMode) (b : BridgeId) :
    (g.arm mode b).1.waiter = some (mode, b) ∨ (g.arm mode b).1.waiter = none :=
  fire_waiter { g with waiter := some (mode, b) }

theorem arm_delivery {g : Group V} {mode : WaitMode} {b : BridgeId} {d : Delivery V}
    (h : (g.arm mode b).2 = some d) : d.bridge = b ∧ ∃ outcome, d.payload = .children outcome := by
  obtain ⟨mode', hw, hpayload⟩ := fire_delivery h
  have hw' : some (mode, b) = some (mode', d.bridge) := hw
  simp only [Option.some.injEq, Prod.mk.injEq] at hw'
  exact ⟨hw'.2.symm, hpayload⟩

theorem Sound.arm (h : Sound Ok n s) (hst : s.strand? id = some st) {b : BridgeId}
    (hok : ∀ outcome, Ok b (.children outcome)) (mode : WaitMode) :
    Sound Ok n (s.updateStrand id fun st' =>
      { st' with children := (st.children.arm mode b).1 }) := by
  have hread : ∀ k, (s.updateStrand id fun st' =>
      { st' with children := (st.children.arm mode b).1 }).strand? k =
        if id = k then some { st with children := (st.children.arm mode b).1 } else s.strand? k :=
    strand?_of_update_some (f := fun st' => { st' with children := (st.children.arm mode b).1 }) rfl
      hst
  refine ⟨h.callbacks, ?_, ?_, ?_⟩
  · intro k st' mode' b' hst' hw outcome
    rw [hread] at hst'
    split at hst'
    · obtain rfl := Option.some.inj hst'
      rcases arm_waiter st.children mode b with harm | harm
      · have hw' : some (mode, b) = some (mode', b') := harm.symm.trans hw
        simp only [Option.some.injEq, Prod.mk.injEq] at hw'
        rw [← hw'.2]
        exact hok outcome
      · rw [show (st.children.arm mode b).1.waiter = some (mode', b') from hw] at harm
        cases harm
    · exact h.waiters k st' mode' b' hst' hw outcome
  · intro k st' hst' hend
    rw [hread] at hst'
    split at hst'
    next hk =>
      obtain rfl := Option.some.inj hst'
      exact hk ▸ h.listed id st hst hend
    next => exact h.listed k st' hst' hend
  · intro gone
    obtain ⟨hc, hn⟩ := h.closed gone
    refine ⟨hc, (Finset.card_le_card (unfinished_subset ?_)).trans hn⟩
    intro k st' hst' hend
    rw [hread] at hst'
    split at hst'
    next hk =>
      obtain rfl := Option.some.inj hst'
      exact ⟨st, hk ▸ hst, hend⟩
    next => exact ⟨st', hst', hend⟩

/-- The group of a strand waits, and nobody has been told. -/
theorem Mid.armed (h : Mid Ok busy s₀ s) (hst : s.strand? id = some st) {b : BridgeId}
    (hok : ∀ outcome, Ok b (.children outcome)) (mode : WaitMode) :
    Mid Ok busy s₀ (s.updateStrand id fun st' =>
      { st' with children := (st.children.arm mode b).1 }) where
  steady := h.steady.trans (by constructor <;> rfl)
  sound := by
    obtain ⟨n, hn⟩ := h.sound
    exact ⟨n, hn.arm hst hok mode⟩
  placed := h.placed.of_row rfl (fun _ _ => ⟨rfl, rfl, rfl⟩) rfl rfl rfl
  queued := fun hq => (h.queued hq).of_row rfl (fun st hst hs => h.queued hq id st hst hs)
    fun _ hk _ => hk

theorem Mid.arm (h : Mid Ok busy s₀ s) (hst : s.strand? id = some st) {b : BridgeId}
    (hok : ∀ outcome, Ok b (.children outcome)) (mode : WaitMode) :
    Mid Ok busy s₀ ((s.updateStrand id fun st' =>
      { st' with children := (st.children.arm mode b).1 }).deliverFired
        (st.children.arm mode b).2) := by
  refine (h.armed hst hok mode).changes_of fun n hn => changes_deliverFired hn ?_
  intro d hd
  obtain ⟨hb, outcome, hpayload⟩ := arm_delivery hd
  rw [hb, hpayload]
  exact hok outcome

theorem block_strand? {m : Bool} (hst : s.strand? id = some st) (hm : st.status = .running m)
    (k : StrandId) :
    (s.block id).strand? k = if id = k then some (st.parked m) else s.strand? k := by
  obtain ⟨counters, journal, channel, heq⟩ := block_running hst hm
  rw [heq]
  exact strand?_of_update_some (s := s) rfl hst k

theorem Mid.blockOnChildren (h : Mid Ok busy s₀ s) (hst : s.strand? id = some st)
    (hrun : st.status.isRunning = true) (hslot : st.bridge = none)
    (hbody : st.body.isSome = true)
    (hok : ∀ outcome, Ok ⟨s.bridges.next⟩ (.children outcome)) (mode : WaitMode) :
    Mid Ok (busy.erase id) s₀ (s.blockOnChildren id mode) := by
  have hissue := h.issue hst hrun hslot
  have hrow := (issueBridge_strand? hst id).trans (if_pos rfl)
  obtain ⟨m, hm⟩ := Status.exists_of_running hrun
  have hblock := hissue.block hrow hrun rfl hbody
  have hrow' := (block_strand? hrow hm id).trans (if_pos rfl)
  have harm := hblock.arm hrow' hok mode
  unfold Scheduler.blockOnChildren
  dsimp only
  rw [show (s.issueBridge id).1.block id = _ from rfl, hrow']
  exact harm

/-! ## The end of a segment -/

/-- A bridge that a segment obtains for the children it awaits may bring their outcome. -/
def Follows (Ok : BridgeId → Wakeup V → Prop) (s : Scheduler V B) (id : StrandId)
    (step : Step V) : Prop :=
  ∀ mode, step = .await mode → (s.strand? id).bind (·.bridge) = none →
    ∀ outcome, Ok ⟨s.bridges.next⟩ (.children outcome)

theorem Mid.follow (h : Mid Ok busy s₀ s) (hst : s.strand? id = some st)
    (hrun : st.status.isRunning = true) (body : B) {step : Step V} (hok : Follows Ok s id step) :
    Mid Ok (busy.erase id) s₀ (s.follow id body step) := by
  have hkeep := h.keepBody hst hrun body
  have hrow := (keepBody_strand? hst body id).trans (if_pos rfl)
  unfold Scheduler.follow
  rw [hst, Option.bind_some]
  cases hslot : st.bridge with
  | none =>
    cases step with
    | done outcome => exact h.finish hst hrun outcome
    | yield => exact hkeep.requeue hrow hrun hslot rfl
    | park => exact h.finish hst hrun _
    | await mode =>
      have hnone : (s.strand? id).bind (·.bridge) = none := by rw [hst]; exact hslot
      exact hkeep.blockOnChildren hrow hrun hslot rfl (hok mode rfl hnone) mode
  | some b =>
    cases step with
    | done outcome => exact h.finish hst hrun outcome
    | yield => exact hkeep.block hrow hrun (by rw [hslot]; rfl) rfl
    | park => exact hkeep.block hrow hrun (by rw [hslot]; rfl) rfl
    | await mode => exact h.finish hst hrun _

/-! ## The start of a segment -/

theorem Sound.begun (h : Sound Ok n s) (hst : s.strand? id = some st)
    (hs : st.status = .runnable) {s' : Scheduler V B} {resumed : Bool}
    (hstrands : s'.strands = s.strands.update id.number (Strand.begun resumed))
    (hjobs : s'.jobs = s.jobs) (hterm : s'.terminated = s.terminated)
    (hclosed : s'.queue.closed = s.queue.closed) (hlive : s'.live = s.live) : Sound Ok n s' := by
  refine h.of_row hstrands (fun _ _ => Or.inl rfl) (fun st' hst' _ => ?_) hjobs hterm
    (fun hc => hclosed.trans hc) (fun _ hk _ => hlive ▸ hk)
  rw [← Option.some.inj (hst.symm.trans hst'), hs]
  rfl

theorem Placed.begun (h : Placed busy s) (hst : s.strand? id = some st)
    (hs : st.status = .runnable) {rest : List StrandId} (hq : s.queue.waiting = id :: rest)
    (alive : s.terminated = false) {s' : Scheduler V B} {resumed : Bool}
    (hstrands : s'.strands = s.strands.update id.number (Strand.begun resumed))
    (hwaiting : s'.queue.waiting = rest) (hterm : s'.terminated = s.terminated)
    (hbridge : ∀ b k stage, id ≠ k →
      (s'.bridge? b = some ⟨k, stage⟩ ↔ s.bridge? b = some ⟨k, stage⟩))
    (hslot : (st.begun resumed).bridge = none)
    (hpending : ∀ b, s'.bridge? b = some ⟨id, .pending⟩ → s.bridge? b = some ⟨id, .pending⟩) :
    Placed (busy ++ [id]) s' := by
  have hnodup := h.waiting_nodup
  rw [hq, List.nodup_cons] at hnodup
  have hnot : id ∉ busy := by
    rw [h.busy_iff_running hst, hs]
    decide
  refine h.change (strand?_of_update_some hstrands hst) hbridge (hwaiting ▸ hnodup.2) ?_ ?_ ?_ ?_
    ?_ ?_ ?_ ?_
  · intro k hk
    rw [hwaiting] at hk
    refine Or.inl ⟨?_, ?_⟩
    · rintro rfl
      exact hnodup.1 hk
    · rw [hq]
      exact List.mem_cons_of_mem _ hk
  · refine List.nodup_append.mpr ⟨h.busy_nodup, by simp, ?_⟩
    intro a ha b hb heq
    rw [List.mem_singleton.mp hb] at heq
    exact hnot (heq ▸ ha)
  · intro k hk
    rw [List.mem_append, List.mem_singleton]
    exact ⟨fun hor => hor.resolve_right (Ne.symm hk), Or.inl⟩
  · exact ⟨fun _ => rfl, fun _ => List.mem_append_right _ List.mem_cons_self⟩
  · unfold SlotFits
    rw [hslot]
    exact ⟨by simp [Strand.begun], by simp [Strand.begun]⟩
  · intro b hb
    obtain ⟨old, hold, hor⟩ := h.pending b id (hpending b hb)
    rw [← Option.some.inj (hst.symm.trans hold)] at hor
    have hfits := h.slot id st hst
    rcases hor with hend | hslot
    · rw [hs] at hend
      cases hend
    · rcases hfits.pending hslot (hpending b hb) with hs' | hs' <;> rw [hs] at hs' <;> cases hs'
  · rintro (hr | hr) <;> cases hr
  · intro gone
    rw [hterm, alive] at gone
    cases gone

theorem Queued.begun (h : Queued s) {rest : List StrandId} (hq : s.queue.waiting = id :: rest)
    {s' : Scheduler V B} {resumed : Bool}
    (hstrands : s'.strands = s.strands.update id.number (Strand.begun resumed))
    (hwaiting : s'.queue.waiting = rest) : Queued s' := by
  refine h.of_row hstrands (fun _ _ hs => by cases hs) fun k hk hne => ?_
  rw [hq] at hk
  rw [hwaiting]
  exact (List.mem_cons.mp hk).resolve_left (Ne.symm hne)

end Scheduler
end CoopSched
