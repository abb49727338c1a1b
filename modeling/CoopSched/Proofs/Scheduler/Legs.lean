import CoopSched.Proofs.Scheduler.Chronicle
import CoopSched.Proofs.Scheduler.Turns

/-!
# Legs — the row of a strand and its last segment

What a strand is told next is decided by its row: its bridge slot, and what was left for it. The
row agrees with the last segment of the strand in the chronicle (`Agrees`), in every state of a
run. It is the turn of a strand that changes both at once; nobody else touches either.
-/

namespace CoopSched
namespace Scheduler

variable {V B : Type} {Ok : BridgeId → Wakeup V → Prop} {s s₁ s' : Scheduler V B} {m : Move V B}
  {id : StrandId} {st st₁ st' : Strand V B} {legs : List (Leg V)}

/-- What a strand that is not on a worker will be told, by its row. -/
def expects (payload : BridgeId → Option (Wakeup V)) (st : Strand V B) : Option (Wakeup V) :=
  match st.bridge with
  | none => some (st.wakeup.getD .yielded)
  | some b => payload b

/-- Does the row of a strand agree with its segments? -/
def Agrees (st : Strand V B) (legs : List (Leg V)) : Prop :=
  match st.status with
  | .runnable | .blocked => ∀ payload, due payload legs = expects payload st
  | .running _ => ∃ leg older, legs = leg :: older ∧ leg.ended = none ∧
      leg.bridge.map (·.2) = st.bridge
  | .doneOk | .doneError => True

theorem Agrees.due (h : Agrees st legs) (hs : st.status = .runnable ∨ st.status = .blocked)
    (payload : BridgeId → Option (Wakeup V)) : due payload legs = expects payload st := by
  unfold Agrees at h
  rcases hs with hs | hs <;> rw [hs] at h <;> exact h payload

theorem Agrees.of_due (hs : st.status = .runnable ∨ st.status = .blocked)
    (h : ∀ payload, Scheduler.due payload legs = expects payload st) : Agrees st legs := by
  unfold Agrees
  rcases hs with hs | hs <;> rw [hs] <;> exact h

theorem Agrees.running (h : Agrees st legs) (hrun : st.status.isRunning = true) :
    ∃ leg older, legs = leg :: older ∧ leg.ended = none ∧ leg.bridge.map (·.2) = st.bridge := by
  obtain ⟨mark, hs⟩ := Status.exists_of_running hrun
  unfold Agrees at h
  rw [hs] at h
  exact h

theorem Agrees.of_running {leg : Leg V} {older : List (Leg V)} (hrun : st.status.isRunning = true)
    (hended : leg.ended = none) (hbridge : leg.bridge.map (·.2) = st.bridge) :
    Agrees st (leg :: older) := by
  obtain ⟨mark, hs⟩ := Status.exists_of_running hrun
  unfold Agrees
  rw [hs]
  exact ⟨leg, older, rfl, hended, hbridge⟩

theorem Agrees.of_terminal (hend : st.status.isTerminal = true) : Agrees st legs := by
  unfold Agrees
  cases hs : st.status with
  | doneOk => trivial
  | doneError => trivial
  | _ =>
    rw [hs] at hend
    cases hend

/-- To be woken leaves a strand in agreement. -/
theorem Agrees.later (h : Agrees st legs) (hl : Later st st') : Agrees st' legs := by
  have hexpects : ∀ payload : BridgeId → Option (Wakeup V),
      expects payload st' = expects payload st := by
    intro payload
    rw [expects, expects, hl.bridge, hl.wakeup]
  have hwaiting : st.status = .runnable ∨ st.status = .blocked →
      st'.status = .runnable ∨ st'.status = .blocked → Agrees st' legs := by
    intro hs hs'
    refine .of_due hs' fun payload => ?_
    rw [hexpects]
    exact h.due hs payload
  have hrunning : st.status.isRunning = true → st'.status.isRunning = true → Agrees st' legs := by
    intro hrun hrun'
    obtain ⟨leg, older, rfl, hended, hbridge⟩ := h.running hrun
    exact .of_running hrun' hended (hbridge.trans hl.bridge.symm)
  have hstatus := hl.status
  cases hs : st.status <;> rw [hs] at hstatus
  case runnable =>
    exact hwaiting (Or.inl hs) (Or.inl (by rcases hstatus with hs' | hs' <;> exact hs'))
  case running mark =>
    exact hrunning (by rw [hs]; rfl) (by rcases hstatus with hs' | hs' <;> rw [hs'] <;> rfl)
  case blocked =>
    exact hwaiting (Or.inr hs) hstatus.symm
  case doneOk =>
    exact .of_terminal (by rcases hstatus with hs' | hs' <;> rw [hs'] <;> rfl)
  case doneError =>
    exact .of_terminal (by rcases hstatus with hs' | hs' <;> rw [hs'] <;> rfl)

/-- A strand that has not run yet has no segments. -/
theorem Agrees.fresh (h : Fresh st) : Agrees st [] := by
  refine .of_due (Or.inl h.status) fun payload => ?_
  rw [expects, h.bridge, h.wakeup]
  rfl

/-! ## All strands -/

/-- Do the rows of all strands agree with their segments? -/
structure Logs (legs : StrandId → List (Leg V)) (s : Scheduler V B) : Prop where
  rows : ∀ id st, s.strand? id = some st → Agrees st (legs id)
  fresh : ∀ id, s.strand? id = none → legs id = []

variable {legs legs' : StrandId → List (Leg V)}

theorem Logs.later (h : Logs legs s) (hr : Rows s s') : Logs legs s' where
  rows := by
    intro id st' hst'
    cases hst : s.strand? id with
    | none =>
      rw [h.fresh id hst]
      exact .fresh (hr.new id st' hst hst')
    | some st =>
      obtain ⟨last, hlast, hlater⟩ := hr.old id st hst
      rw [Option.some.inj (hlast.symm.trans hst')] at hlater
      exact (h.rows id st hst).later hlater
  fresh := by
    intro id hnone
    cases hst : s.strand? id with
    | none => exact h.fresh id hst
    | some st =>
      obtain ⟨st', hst', -⟩ := hr.old id st hst
      rw [hnone] at hst'
      cases hst'

theorem Logs.own (h : Logs legs s) (hown : Own s s₁ id st st₁)
    (hother : ∀ k, id ≠ k → legs' k = legs k) (hself : Agrees st₁ (legs' id)) : Logs legs' s₁ where
  rows := by
    intro k st' hst'
    rw [hown.rows] at hst'
    split at hst'
    next hk =>
      rw [← Option.some.inj hst', ← hk]
      exact hself
    next hk =>
      rw [hother k hk]
      exact h.rows k st' hst'
  fresh := by
    intro k hnone
    rw [hown.rows] at hnone
    split at hnone
    next => cases hnone
    next hk =>
      rw [hother k hk]
      exact h.fresh k hnone

/-! ## Turns -/

/-- A move that begins no segment, ends none and obtains no bridge leaves the segments. -/
theorem nextLegs_quiet (hissued : s.issued m = none) (hseg : s.segment? m = none)
    (hend : m.conclusion? = none) (k : StrandId) (legs : List (Leg V)) :
    nextLegs s m k legs = legs := by
  rw [nextLegs, hissued, hseg, hend]
  rfl

theorem nextLegs_issue {o : Origin} {b : BridgeId} (hissued : s.issued m = some (id, o, b))
    (hseg : s.segment? m = none) (hend : m.conclusion? = none) (k : StrandId)
    (legs : List (Leg V)) :
    nextLegs s m k legs =
      if id = k then legs.modifyHead fun leg => { leg with bridge := some (o, b) } else legs := by
  rw [nextLegs, hissued, hseg, hend]
  rfl

theorem nextLegs_dispatch {seg : Segment V B} (hseg : s.dispatch.2 = some seg) (k : StrandId)
    (legs : List (Leg V)) :
    nextLegs s .dispatch k legs =
      if seg.strand = k then { told := seg.wakeup } :: legs else legs := by
  rw [nextLegs, show s.segment? .dispatch = some seg from hseg]
  rfl

theorem nextLegs_end {body : B} {step : Step V}
    (hissued : s.issued (.endSegment id body step) = none) (k : StrandId) (legs : List (Leg V)) :
    nextLegs s (.endSegment id body step) k legs =
      if id = k then legs.modifyHead fun leg => { leg with ended := some step } else legs := by
  rw [nextLegs, hissued]
  rfl

theorem nextLegs_await {body : B} {mode : WaitMode} {o : Origin} {b : BridgeId}
    (hissued : s.issued (.endSegment id body (.await mode)) = some (id, o, b)) (k : StrandId)
    (legs : List (Leg V)) :
    nextLegs s (.endSegment id body (.await mode)) k legs =
      if id = k then legs.modifyHead fun leg =>
        { leg with bridge := some (o, b), ended := some (.await mode) } else legs := by
  rw [nextLegs, hissued]
  show endLeg (some (id, .await mode)) k (handBridge (some (id, o, b)) k legs) = _
  unfold endLeg handBridge
  dsimp only
  split
  · exact List.modifyHead_modifyHead
  · rfl

/-- A turn changes the row of a strand and its segments so that they agree again. -/
theorem Turn.logs (h : Turn s m s₁) (hl : Logs legs s) :
    Logs (fun k => nextLegs s m k (legs k)) s₁ := by
  -- In each case one strand has a new row and new legs, and the others keep theirs (`Logs.own`).
  cases h with
  | quiet hissued hseg hend hstill =>
    simp only [nextLegs_quiet hissued hseg hend]
    refine ⟨fun k st hst => hl.rows k st ?_, fun k hnone => hl.fresh k ?_⟩
    · rw [← hstill.strands]
      exact hst
    · rw [← hstill.strands]
      exact hnone
  | issue hissued hseg hend hrun hslot hown hbridges =>
    simp only [nextLegs_issue hissued hseg hend]
    obtain ⟨leg, older, hlegs, hended, -⟩ := (hl.rows _ _ hown.row).running hrun
    refine hl.own hown (fun k hk => if_neg hk) ?_
    rw [if_pos rfl, hlegs]
    exact .of_running hrun hended rfl
  | begun hseg hs hslot hown hbridges =>
    simp only [nextLegs_dispatch hseg]
    refine hl.own hown (fun k hk => if_neg hk) ?_
    rw [if_pos rfl]
    exact .of_running rfl rfl hslot.symm
  | resumed hseg hs hslot hb hown hbridges =>
    simp only [nextLegs_dispatch hseg]
    refine hl.own hown (fun k hk => if_neg hk) ?_
    rw [if_pos rfl]
    exact .of_running rfl rfl rfl
  | @ended m _ id st st₁ hissued hseg hend hown hover hslot hfates =>
    refine hl.own hown (fun k hk => ?_) (.of_terminal hover)
    rw [nextLegs, hissued, hseg]
    unfold endLeg
    split
    next k' step hconclusion =>
      exact if_neg fun heq => hk ((hend k' step hconclusion).symm.trans heq)
    next => rfl
  | @requeued _ id _ _ body hrun hslot hown hs₁ hslot₁ hwakeup₁ hbridges =>
    have hissued : s.issued (.endSegment id body .yield) = none := rfl
    simp only [nextLegs_end hissued]
    obtain ⟨leg, older, hlegs, -, hbridge⟩ := (hl.rows _ _ hown.row).running hrun
    refine hl.own hown (fun k hk => if_neg hk) (.of_due (Or.inl hs₁) fun payload => ?_)
    rw [if_pos rfl, hlegs, expects, hslot₁, hwakeup₁]
    rw [hslot, Option.map_eq_none_iff] at hbridge
    show Leg.due payload { leg with ended := some .yield } = some .yielded
    rw [Leg.due, hbridge]
  | @parked _ id st st₁ body step b hstep hrun hslot hown hs₁ hslot₁ hbridges =>
    have hissued : s.issued (.endSegment id body step) = none := by
      rcases hstep with rfl | rfl <;> rfl
    simp only [nextLegs_end hissued]
    obtain ⟨leg, older, hlegs, -, hbridge⟩ := (hl.rows _ _ hown.row).running hrun
    refine hl.own hown (fun k hk => if_neg hk) (.of_due hs₁ fun payload => ?_)
    rw [if_pos rfl, hlegs, expects, hslot₁]
    rw [hslot] at hbridge
    obtain ⟨⟨o, b'⟩, hleg, rfl⟩ := Option.map_eq_some_iff.mp hbridge
    show Leg.due payload { leg with ended := some step } = payload b'
    rw [Leg.due, hleg]
    rcases hstep with rfl | rfl <;> rfl
  | @awaiting _ id st st₁ body mode hrun hslot hcancelling hown hs₁ hslot₁ hbridges =>
    simp only [nextLegs_await (issued_await hown.row hslot hcancelling)]
    obtain ⟨leg, older, hlegs, -⟩ := (hl.rows _ _ hown.row).running hrun
    refine hl.own hown (fun k hk => if_neg hk) (.of_due (Or.inr hs₁) fun payload => ?_)
    rw [if_pos rfl, hlegs, expects, hslot₁]
    rfl

/-- The strand that begins a segment is told what is due. -/
theorem Turn.due {payload : BridgeId → Option (Wakeup V)} (h : Turn s m s₁) (hl : Logs legs s)
    (hc : ∀ b x w, s.bridge? b = some x → x.stage = .holding w → payload b = some w)
    {seg : Segment V B} (hseg : s.segment? m = some seg) :
    due payload (legs seg.strand) = some seg.wakeup := by
  have hno : s.segment? m = none → Scheduler.due payload (legs seg.strand) = some seg.wakeup := by
    intro hnone
    rw [hnone] at hseg
    cases hseg
  cases h with
  | quiet _ hnone _ _ => exact hno hnone
  | issue _ hnone _ _ _ _ _ => exact hno hnone
  | begun hbegun hs hslot hown _ =>
    obtain rfl := Option.some.inj (hbegun.symm.trans hseg)
    rw [(hl.rows _ _ hown.row).due (Or.inl hs), expects, hslot]
  | resumed hresumed hs hslot hb hown _ =>
    obtain rfl := Option.some.inj (hresumed.symm.trans hseg)
    rw [(hl.rows _ _ hown.row).due (Or.inl hs), expects, hslot]
    exact hc _ _ _ hb rfl
  | ended _ hnone _ _ _ _ _ => exact hno hnone
  | requeued _ _ _ _ _ _ _ => exact hno rfl
  | parked _ _ _ _ _ _ _ => exact hno rfl
  | awaiting _ _ _ _ _ _ _ => exact hno rfl

/-- The segment that obtains a bridge has none. -/
theorem Turn.handed {o : Origin} {b : BridgeId} (h : Turn s m s₁) (hl : Logs legs s)
    (hi : s.issued m = some (id, o, b)) :
    ∃ leg older, legs id = leg :: older ∧ leg.bridge = none := by
  obtain ⟨-, ⟨st, hst, hrun, hslot⟩, -⟩ := h.obtains hi
  obtain ⟨leg, older, hlegs, -, hbridge⟩ := (hl.rows id st hst).running hrun
  rw [hslot, Option.map_eq_none_iff] at hbridge
  exact ⟨leg, older, hlegs, hbridge⟩

/-! ## When there are workers -/

/-- Only a strand on a worker obtains a bridge. -/
theorem Turn.issued_alive {drained : Bool} {o : Origin} {b : BridgeId} (h : Turn s m s₁)
    (hs : Stable Ok drained s) (hi : s.issued m = some (id, o, b)) : s.terminated = false := by
  obtain ⟨-, ⟨st, hst, hrun, -⟩, -⟩ := h.obtains hi
  exact hs.placed.alive hst hrun

end Scheduler
end CoopSched
