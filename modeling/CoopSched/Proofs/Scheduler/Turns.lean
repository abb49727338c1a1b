import CoopSched.Proofs.Scheduler.Fates
import CoopSched.Proofs.Scheduler.Stable

/-!
# Turns — every move in three parts

A move changes the strand that makes it, if there is one (`Turn`); then follows what that sets off
(`Changes`); and what comes at the end touches nothing that a strand or a bridge could tell by
(`Tail`). `Stable.apart` takes every move apart so, once and for all.
-/

namespace CoopSched

/-- What decides how a strand goes on. -/
def Strand.face {V B : Type} (st : Strand V B) :
    Status × Option BridgeId × Option (Wakeup V) × Option B :=
  (st.status, st.bridge, st.wakeup, st.body)

namespace Scheduler

variable {V B : Type} {Ok : BridgeId → Wakeup V → Prop} {drained : Bool} {n : Nat}
  {s s₁ s' : Scheduler V B} {m : Move V B} {id : StrandId} {st st₁ : Strand V B}

/-! ## The three parts -/

/-- No strand comes into the queue, and a closed queue stays closed. -/
structure QueueShrinks (s s' : Scheduler V B) : Prop where
  waiting : ∀ k ∈ s'.queue.waiting, k ∈ s.queue.waiting
  closed : s.queue.closed = true → s'.queue.closed = true

/-- Nothing is changed that a strand or a bridge could tell by. -/
structure Still (s s₁ : Scheduler V B) : Prop where
  strands : ∀ id, s₁.strand? id = s.strand? id
  bridges : ∀ b, s₁.bridge? b = s.bridge? b
  terminated : s₁.terminated = s.terminated
  queueShrinks : QueueShrinks s s₁

/-- Only one strand is changed. -/
structure Own (s s₁ : Scheduler V B) (id : StrandId) (st st₁ : Strand V B) : Prop where
  row : s.strand? id = some st
  rows : ∀ k, s₁.strand? k = if id = k then some st₁ else s.strand? k
  terminated : s₁.terminated = s.terminated

/-- What a move does to the strand that makes it. -/
inductive Turn (s : Scheduler V B) : Move V B → Scheduler V B → Prop
  | quiet {m : Move V B} {s₁ : Scheduler V B} (hissued : s.issued m = none)
      (hseg : s.segment? m = none) (hend : m.conclusion? = none) (hstill : Still s s₁) :
      Turn s m s₁
  | issue {m : Move V B} {s₁ : Scheduler V B} {id : StrandId} {st : Strand V B} {o : Origin}
      (hissued : s.issued m = some (id, o, ⟨s.bridges.next⟩)) (hseg : s.segment? m = none)
      (hend : m.conclusion? = none) (hrun : st.status.isRunning = true) (hslot : st.bridge = none)
      (hown : Own s s₁ id st { st with bridge := some ⟨s.bridges.next⟩ })
      (hbridges : ∀ b, s₁.bridge? b =
        if (⟨s.bridges.next⟩ : BridgeId) = b then some ⟨id, .pending⟩ else s.bridge? b) :
      Turn s m s₁
  | begun {s₁ : Scheduler V B} {id : StrandId} {st : Strand V B} {body : B}
      (hseg : s.dispatch.2 = some ⟨id, st.wakeup.getD .yielded, body⟩)
      (hs : st.status = .runnable) (hslot : st.bridge = none)
      (hown : Own s s₁ id st (st.begun false)) (hbridges : ∀ b, s₁.bridge? b = s.bridge? b) :
      Turn s .dispatch s₁
  | resumed {s₁ : Scheduler V B} {id : StrandId} {st : Strand V B} {body : B} {b : BridgeId}
      {w : Wakeup V} (hseg : s.dispatch.2 = some ⟨id, w, body⟩) (hs : st.status = .runnable)
      (hslot : st.bridge = some b) (hb : s.bridge? b = some ⟨id, .holding w⟩)
      (hown : Own s s₁ id st (st.begun true))
      (hbridges : s₁.bridges = s.bridges.update b.number fun _ => ⟨id, .spent⟩) :
      Turn s .dispatch s₁
  /-- The strand ends. -/
  | ended {m : Move V B} {s₁ : Scheduler V B} {id : StrandId} {st st₁ : Strand V B}
      (hissued : s.issued m = none) (hseg : s.segment? m = none)
      (hend : ∀ k step, m.conclusion? = some (k, step) → k = id) (hown : Own s s₁ id st st₁)
      (hover : st₁.status.isTerminal = true) (hslot : st₁.bridge = none)
      (hbridges : ∀ Ok : BridgeId → Wakeup V → Prop, Bridges Ok True s s₁)
      (hwhere : st.status.isRunning = true ∨ s.terminated = true ∧ st₁.status = .doneError)
      (hshrinks : QueueShrinks s s₁) : Turn s m s₁
  | requeued {s₁ : Scheduler V B} {id : StrandId} {st st₁ : Strand V B} {body : B}
      (hrun : st.status.isRunning = true) (hslot : st.bridge = none)
      (hown : Own s s₁ id st st₁) (hs₁ : st₁.status = .runnable) (hslot₁ : st₁.bridge = none)
      (hwakeup₁ : st₁.wakeup = some .yielded) (hbridges : ∀ b, s₁.bridge? b = s.bridge? b) :
      Turn s (.endSegment id body .yield) s₁
  /-- The strand parks on the bridge in its slot. -/
  | parked {s₁ : Scheduler V B} {id : StrandId} {st st₁ : Strand V B} {body : B} {step : Step V}
      {b : BridgeId} (hstep : step = .yield ∨ step = .park) (hrun : st.status.isRunning = true)
      (hslot : st.bridge = some b) (hown : Own s s₁ id st st₁)
      (hs₁ : st₁.status = .runnable ∨ st₁.status = .blocked) (hslot₁ : st₁.bridge = some b)
      (hbridges : ∀ b, s₁.bridge? b = s.bridge? b) : Turn s (.endSegment id body step) s₁
  | awaiting {s₁ : Scheduler V B} {id : StrandId} {st st₁ : Strand V B} {body : B}
      {mode : WaitMode} (hrun : st.status.isRunning = true) (hslot : st.bridge = none)
      (hcancelling : s.isCancelling = false) (hown : Own s s₁ id st st₁)
      (hs₁ : st₁.status = .blocked) (hslot₁ : st₁.bridge = some ⟨s.bridges.next⟩)
      (hbridges : ∀ b, s₁.bridge? b =
        if (⟨s.bridges.next⟩ : BridgeId) = b then some ⟨id, .pending⟩ else s.bridge? b) :
      Turn s (.endSegment id body (.await mode)) s₁

/-- What comes at the end of a move. -/
structure Tail (s s' : Scheduler V B) : Prop where
  rows : ∀ id, (s'.strand? id).map Strand.face = (s.strand? id).map Strand.face
  bridges : ∀ b, s'.bridge? b = s.bridge? b
  alive : s'.terminated = false → s.terminated = false
  queueShrinks : QueueShrinks s s'

theorem QueueShrinks.of_queue (h : s'.queue = s.queue) : QueueShrinks s s' := by
  constructor <;> rw [h]
  · exact fun _ hk => hk
  · exact id

theorem QueueShrinks.trans {s'' : Scheduler V B} (h : QueueShrinks s s')
    (h' : QueueShrinks s' s'') : QueueShrinks s s'' :=
  ⟨fun k hk => h.waiting k (h'.waiting k hk), fun hc => h'.closed (h.closed hc)⟩

theorem Tail.refl (s : Scheduler V B) : Tail s s :=
  ⟨fun _ => rfl, fun _ => rfl, id, .of_queue rfl⟩

theorem Tail.of_update {f : Strand V B → Strand V B}
    (hstrands : s'.strands = s.strands.update id.number f) (hf : ∀ st, (f st).face = st.face)
    (hbridges : s'.bridges = s.bridges) (hterm : s'.terminated = s.terminated)
    (hqueue : s'.queue = s.queue) : Tail s s' where
  rows := by
    intro k
    rw [strand?_of_update hstrands]
    split
    · simp only [Option.map_map, Function.comp_def, hf]
    · rfl
  bridges := fun b => by rw [bridge?, bridge?, hbridges]
  alive := fun alive => hterm.symm.trans alive
  queueShrinks := .of_queue hqueue

theorem Tail.retire (s : Scheduler V B) (id : StrandId) (kept : Option (Outcome V)) :
    Tail s (s.retire id kept) := .of_update rfl (fun _ => rfl) rfl rfl rfl

theorem Tail.release {id : StrandId} (h : Tail s s') : Tail s (s'.release id) :=
  ⟨h.rows, h.bridges, h.alive, h.queueShrinks.trans ⟨fun _ hk => hk, fun hc => hc⟩⟩

theorem Tail.row (h : Tail s s') (hst : s.strand? id = some st) :
    ∃ st', s'.strand? id = some st' ∧ st'.face = st.face := by
  have hface := h.rows id
  rw [hst, Option.map_some] at hface
  exact Option.map_eq_some_iff.mp hface

theorem Later.of_face {st' : Strand V B} (h : st'.face = st.face) : Later st st' := by
  simp only [Strand.face, Prod.mk.injEq] at h
  exact ⟨h.2.1, h.2.2.1, h.2.2.2, Or.inl h.1⟩

theorem Tail.later (h : Tail s s') : Rows s s' where
  old := by
    intro id st hst
    obtain ⟨st', hst', hface⟩ := h.row hst
    exact ⟨st', hst', .of_face hface⟩
  new := by
    intro id st' hnone hst'
    have hface := h.rows id
    rw [hnone, hst'] at hface
    cases hface

theorem Still.refl (s : Scheduler V B) : Still s s :=
  ⟨fun _ => rfl, fun _ => rfl, rfl, .of_queue rfl⟩

theorem Own.of_update {f : Strand V B → Strand V B} (hst : s.strand? id = some st)
    (hstrands : s₁.strands = s.strands.update id.number f)
    (hterm : s₁.terminated = s.terminated) : Own s s₁ id st (f st) :=
  ⟨hst, strand?_of_update_some hstrands hst, hterm⟩

theorem Own.trans {s₂ : Scheduler V B} {st₂ : Strand V B} (h : Own s s₁ id st st₁)
    (h' : Own s₁ s₂ id st₁ st₂) : Own s s₂ id st st₂ where
  row := h.row
  rows := by
    intro k
    rw [h'.rows k]
    split
    · rfl
    next hk => rw [h.rows k, if_neg hk]
  terminated := h'.terminated.trans h.terminated

theorem Own.self (h : Own s s₁ id st st₁) : s₁.strand? id = some st₁ := by
  rw [h.rows, if_pos rfl]

/-! ## What a turn leaves of the rest -/

theorem Turn.terminated (h : Turn s m s₁) : s₁.terminated = s.terminated := by
  cases h with
  | quiet _ _ _ hstill => exact hstill.terminated
  | issue _ _ _ _ _ hown => exact hown.terminated
  | begun _ _ _ hown => exact hown.terminated
  | resumed _ _ _ _ hown => exact hown.terminated
  | ended _ _ _ hown => exact hown.terminated
  | requeued _ _ hown => exact hown.terminated
  | parked _ _ _ hown => exact hown.terminated
  | awaiting _ _ _ hown => exact hown.terminated

theorem Turn.fates (h : Turn s m s₁) : Fates Ok s s₁ := by
  cases h with
  | quiet _ _ _ hstill => exact .of_same hstill.bridges
  | issue _ _ _ _ _ _ hbridges => exact .of_issue hbridges
  | begun _ _ _ _ hbridges => exact .of_same hbridges
  | resumed _ _ _ hb _ hbridges =>
    refine .of_update hbridges fun x hx => ?_
    rw [← Option.some.inj (hb.symm.trans hx)]
    exact ⟨rfl, Or.inr (Or.inr ⟨_, rfl, rfl⟩)⟩
  | ended _ _ _ _ _ _ hbridges => exact .of_bridges (hbridges Ok)
  | requeued _ _ _ _ _ _ hbridges => exact .of_same hbridges
  | parked _ _ _ _ _ _ hbridges => exact .of_same hbridges
  | awaiting _ _ _ _ _ _ hbridges => exact .of_issue hbridges

theorem issued_await {body : B} {mode : WaitMode} (hst : s.strand? id = some st)
    (hslot : st.bridge = none) (hcancelling : s.isCancelling = false) :
    s.issued (.endSegment id body (.await mode)) = some (id, .children, ⟨s.bridges.next⟩) := by
  simp only [issued, hcancelling, hst, Option.bind_some, hslot]
  rfl

/-- It is a running strand without a bridge that obtains one, and it gets the next one. -/
theorem Turn.obtains {o : Origin} {b : BridgeId} (h : Turn s m s₁)
    (hi : s.issued m = some (id, o, b)) :
    b = ⟨s.bridges.next⟩ ∧
      (∃ st, s.strand? id = some st ∧ st.status.isRunning = true ∧ st.bridge = none) ∧
      ∀ a, s₁.bridge? a =
        if (⟨s.bridges.next⟩ : BridgeId) = a then some ⟨id, .pending⟩ else s.bridge? a := by
  cases h with
  | quiet hnone _ _ _ =>
    rw [hnone] at hi
    cases hi
  | issue hissued _ _ hrun hslot hown hbridges =>
    rw [hissued] at hi
    obtain ⟨rfl, heq⟩ := Prod.mk.inj (Option.some.inj hi)
    exact ⟨(Prod.mk.inj heq).2.symm, ⟨_, hown.row, hrun, hslot⟩, hbridges⟩
  | ended hnone _ _ _ _ _ _ =>
    rw [hnone] at hi
    cases hi
  | parked hstep _ _ _ _ _ _ => rcases hstep with rfl | rfl <;> cases hi
  | awaiting hrun hslot hcancelling hown _ _ hbridges =>
    rw [issued_await hown.row hslot hcancelling] at hi
    obtain ⟨rfl, heq⟩ := Prod.mk.inj (Option.some.inj hi)
    exact ⟨(Prod.mk.inj heq).2.symm, ⟨_, hown.row, hrun, hslot⟩, hbridges⟩
  | _ => cases hi

/-- A strand runs only while there are workers. -/
theorem Placed.alive {busy : List StrandId} (h : Placed busy s) (hst : s.strand? id = some st)
    (hrun : st.status.isRunning = true) : s.terminated = false := by
  have hbusy : id ∈ busy := (h.busy_iff id).mpr ⟨st, hst, hrun⟩
  cases hterm : s.terminated with
  | false => rfl
  | true =>
    rw [h.gone hterm] at hbusy
    cases hbusy

theorem segment_alive {seg : Segment V B} (h : s.segment? m = some seg) : s.terminated = false := by
  cases m with
  | dispatch =>
    cases hcan : s.canDispatch with
    | true => exact canDispatch_alive hcan
    | false =>
      have hidle : s.dispatch.2 = some seg := h
      rw [dispatch_idle hcan] at hidle
      cases hidle
  | _ => cases h

/-- A strand that is changed by a turn was on a worker or is taken by one. When the workers are gone
    it is cancelled. -/
theorem Turn.moved {k : StrandId} (h : Turn s m s₁) (hst : s.strand? k = some st) :
    s₁.strand? k = some st ∨ ∃ st₁, s₁.strand? k = some st₁ ∧
      (st.status.isRunning = true ∨ (st.status = .runnable ∧ s.terminated = false) ∨
        (s.terminated = true ∧ st₁.status = .doneError)) := by
  have hmine : ∀ {id : StrandId} {old new : Strand V B}, Own s s₁ id old new →
      (old.status.isRunning = true ∨ (old.status = .runnable ∧ s.terminated = false) ∨
        (s.terminated = true ∧ new.status = .doneError)) →
      s₁.strand? k = some st ∨ ∃ st₁, s₁.strand? k = some st₁ ∧
        (st.status.isRunning = true ∨ (st.status = .runnable ∧ s.terminated = false) ∨
          (s.terminated = true ∧ st₁.status = .doneError)) := by
    intro id old new hown hold
    have hrow := hown.rows k
    split at hrow
    next hid =>
      subst hid
      rw [Option.some.inj (hown.row.symm.trans hst)] at hold
      exact Or.inr ⟨new, hrow, hold⟩
    next => exact Or.inl (hrow.trans hst)
  cases h with
  | quiet _ _ _ hstill => exact Or.inl ((hstill.strands k).trans hst)
  | issue _ _ _ hrun _ hown => exact hmine hown (Or.inl hrun)
  | begun hseg hready _ hown =>
    exact hmine hown (Or.inr (Or.inl ⟨hready, segment_alive (m := .dispatch) hseg⟩))
  | resumed hseg hready _ _ hown =>
    exact hmine hown (Or.inr (Or.inl ⟨hready, segment_alive (m := .dispatch) hseg⟩))
  | ended _ _ _ hown _ _ _ hwhere => exact hmine hown (hwhere.imp_right Or.inr)
  | requeued hrun _ hown => exact hmine hown (Or.inl hrun)
  | parked _ hrun _ hown => exact hmine hown (Or.inl hrun)
  | awaiting hrun _ _ hown => exact hmine hown (Or.inl hrun)

/-! ## Taking a move apart -/

/-- A move from `s` to `s'` in its three parts. -/
def Apart (Ok : BridgeId → Wakeup V → Prop) (s : Scheduler V B) (m : Move V B)
    (s' : Scheduler V B) : Prop :=
  ∃ s₁ s₂, Turn s m s₁ ∧ Changes Ok s₁ s₂ ∧ Tail s₂ s'

theorem Apart.of_changes (hissued : s.issued m = none) (hseg : s.segment? m = none)
    (hend : m.conclusion? = none) (hd : Changes Ok s s') : Apart Ok s m s' :=
  ⟨s, s', .quiet hissued hseg hend (.refl s), hd, .refl s'⟩

theorem Apart.of_turn (h : Turn s m s') : Apart Ok s m s' := ⟨s', s', h, .refl, .refl s'⟩

theorem Apart.of_still (hissued : s.issued m = none) (hseg : s.segment? m = none)
    (hend : m.conclusion? = none) (hstill : Still s s') : Apart Ok s m s' :=
  .of_turn (.quiet hissued hseg hend hstill)

theorem Apart.release {id : StrandId} (h : Apart Ok s m s') : Apart Ok s m (s'.release id) := by
  obtain ⟨s₁, s₂, hturn, hd, htail⟩ := h
  exact ⟨s₁, s₂, hturn, hd, htail.release⟩

theorem Apart.of_issue {o : Origin} (hst : s.strand? id = some st)
    (hrun : st.status.isRunning = true) (hslot : st.bridge = none)
    (hissued : s.issued m = some (id, o, ⟨s.bridges.next⟩)) (hseg : s.segment? m = none)
    (hend : m.conclusion? = none) (hd : Changes Ok (s.issueBridge id).1 s') : Apart Ok s m s' :=
  ⟨_, s', .issue hissued hseg hend hrun hslot ⟨hst, issueBridge_strand? hst, rfl⟩
    (issueBridge_bridge? s id), hd, .refl s'⟩

theorem Apart.park (s : Scheduler V B) (id : StrandId) :
    Apart Ok s (.park id) (s.after (.park id)) := by
  show Apart Ok s (.park id) (s.park id).1
  rcases park_cases s id with ⟨e, heq⟩ | ⟨st, hst, hrun, hslot, heq⟩
  · rw [heq]
    exact .of_still (by simp only [issued, heq]) rfl rfl (.refl s)
  · rw [heq]
    exact .of_issue (o := .park) hst hrun hslot (by simp only [issued, heq]) rfl rfl .refl

theorem Stable.apart_invokeParked (h : Stable Ok drained s) {inputs : List V}
    {callable : Nat → V → Except Panic B} {concurrency : Concurrency}
    (hr : Respects Ok s (.invokeParked id inputs callable concurrency)) :
    Apart Ok s (.invokeParked id inputs callable concurrency)
      (s.after (.invokeParked id inputs callable concurrency)) := by
  show Apart Ok s _ (s.invokeParked id inputs callable concurrency).1
  rcases invokeParked_cases s id inputs callable concurrency with
    ⟨⟨e, hpark⟩, heq⟩ | ⟨st, hst, hrun, hslot, hpark, heq⟩
  · rw [heq]
    exact .of_still (by simp only [issued, hpark]) rfl rfl (.refl s)
  · rw [heq]
    have hissued : s.issued (.invokeParked id inputs callable concurrency) =
        some (id, .invocation, ⟨s.bridges.next⟩) := by simp only [issued, hpark]
    obtain ⟨n, hn⟩ := h.sound
    refine .of_issue hst hrun hslot hissued rfl rfl ?_
    exact changes_driveParked (hn.issue id) inputs callable concurrency
      fun answer => hr.issued id .invocation _ hissued (by decide) _ trivial

theorem Stable.apart_dispatch (h : Stable Ok drained s) :
    Apart Ok s .dispatch (s.after .dispatch) := by
  have hd := h.placed.dispatched
  show Apart Ok s .dispatch s.dispatch.1
  generalize hs' : s.dispatch.1 = s', hseg : s.dispatch.2 = seg at hd
  cases hd with
  | idle hcan => exact .of_still rfl hseg rfl (.refl s)
  | plain counters journal channel hcan hq hst hs hslot hbody =>
    exact .of_turn (.begun hseg hs hslot (.of_update (f := Strand.begun false) hst rfl rfl)
      fun _ => rfl)
  | resumed counters journal channel hcan hq hst hs hslot hb hbody =>
    exact .of_turn (.resumed hseg hs hslot hb (.of_update (f := Strand.begun true) hst rfl rfl)
      rfl)

/-! ## The end of a strand -/

/-- A strand is cancelled: it is cut off, and nested changes follow. -/
theorem apart_cancel (hn : Sound Ok n s) (hissued : s.issued m = none)
    (hseg : s.segment? m = none) (hend : ∀ k step, m.conclusion? = some (k, step) → k = id)
    (hst : s.strand? id = some st) (hlive : st.status.isTerminal = false)
    (hwhere : st.status.isRunning = true ∨ s.terminated = true) (reason : Failure) :
    Apart Ok s m (s.cancel id reason).1 := by
  obtain ⟨s₂, kept, hd, heq⟩ := cancel_running hn hst hlive reason
  have hcut : Own s (s.cut id st.bridge) id st st.cut ∧ QueueShrinks s (s.cut id st.bridge) := by
    obtain ⟨counters, journal, channel, hcut⟩ := cut_eq hst
    rw [hcut]
    exact ⟨.of_update hst rfl rfl, .of_queue rfl⟩
  rw [heq]
  exact ⟨_, s₂, .ended hissued hseg hend hcut.1 rfl rfl (fun Ok => Bridges.cut trivial hst)
    (hwhere.imp_right fun gone => ⟨gone, rfl⟩) hcut.2, hd, .retire s₂ id kept⟩

/-- A strand finishes: it is marked, and nested changes follow. -/
theorem apart_finish (hn : Sound Ok n s) (hissued : s.issued m = none)
    (hseg : s.segment? m = none) (hend : ∀ k step, m.conclusion? = some (k, step) → k = id)
    (hst : s.strand? id = some st) (hrun : st.status.isRunning = true) (outcome : Outcome V) :
    Apart Ok s m (s.finish id outcome) := by
  obtain ⟨mark, hs⟩ := Status.exists_of_running hrun
  have hmark : Own s (s.markFinished id outcome.isOk) id st (st.finished outcome.isOk) ∧
      (s.markFinished id outcome.isOk).bridges = s.bridges ∧
      QueueShrinks s (s.markFinished id outcome.isOk) := by
    obtain ⟨counters, journal, channel, heq⟩ := s.markFinished_eq id outcome.isOk
    rw [heq]
    exact ⟨.of_update hst rfl rfl, rfl, .of_queue rfl⟩
  rw [finish_running hst hs]
  exact ⟨_, _, .ended hissued hseg hend hmark.1 (Status.finished_terminal _) rfl
      (fun _ => .of_same hmark.2.1) (Or.inl hrun) hmark.2.2,
    changes_handOver (hn.markFinished id _) id st outcome, .retire _ id _⟩

/-! ## The end of a segment -/

theorem Own.keepBody (hst : s.strand? id = some st) (body : B) :
    Own s (s.keepBody id body) id st { st with body := some body } :=
  ⟨hst, keepBody_strand? hst body, rfl⟩

theorem Own.issue (hst : s.strand? id = some st) :
    Own s (s.issueBridge id).1 id st { st with bridge := some ⟨s.bridges.next⟩ } :=
  ⟨hst, issueBridge_strand? hst, rfl⟩

theorem Own.block {mark : Bool} (hst : s.strand? id = some st)
    (hs : st.status = .running mark) : Own s (s.block id) id st (st.parked mark) := by
  obtain ⟨counters, journal, channel, heq⟩ := block_running hst hs
  rw [heq]
  exact .of_update hst rfl rfl

theorem Own.requeue {mark : Bool} (hst : s.strand? id = some st)
    (hs : st.status = .running mark) : Own s (s.requeue id) id st st.requeued := by
  rw [requeue_running hst hs]
  exact .of_update hst rfl rfl

theorem Own.arm (hst : s.strand? id = some st) (mode : WaitMode) (b : BridgeId) :
    Own s (s.updateStrand id fun st' => { st' with children := (st.children.arm mode b).1 }) id st
      { st with children := (st.children.arm mode b).1 } :=
  .of_update (f := fun st' => { st' with children := (st.children.arm mode b).1 }) hst rfl rfl

theorem block_bridge? {mark : Bool} (hst : s.strand? id = some st)
    (hs : st.status = .running mark) (b : BridgeId) : (s.block id).bridge? b = s.bridge? b := by
  obtain ⟨counters, journal, channel, heq⟩ := block_running hst hs
  rw [heq]
  rfl

theorem parked_status (mark : Bool) (st : Strand V B) :
    (st.parked mark).status = .runnable ∨ (st.parked mark).status = .blocked := by
  cases mark with
  | true => exact Or.inl rfl
  | false => exact Or.inr rfl

theorem apart_park {body : B} {step : Step V} {b : BridgeId} (hstep : step = .yield ∨ step = .park)
    (hst : s.strand? id = some st) (hrun : st.status.isRunning = true)
    (hslot : st.bridge = some b) :
    Apart Ok s (.endSegment id body step) ((s.keepBody id body).block id) := by
  obtain ⟨mark, hs⟩ := Status.exists_of_running hrun
  have hkeep := Own.keepBody hst body
  have hown := hkeep.trans (.block hkeep.self hs)
  exact .of_turn (.parked hstep hrun hslot hown (parked_status mark _) hslot
    (block_bridge? hkeep.self hs))

theorem apart_requeue {body : B} (hst : s.strand? id = some st)
    (hrun : st.status.isRunning = true) (hslot : st.bridge = none) :
    Apart Ok s (.endSegment id body .yield) ((s.keepBody id body).requeue id) := by
  obtain ⟨mark, hs⟩ := Status.exists_of_running hrun
  have hkeep := Own.keepBody hst body
  refine .of_turn (.requeued hrun hslot (hkeep.trans (.requeue hkeep.self hs)) rfl hslot rfl ?_)
  intro b
  rw [requeue_running hkeep.self hs]
  rfl

/-- A segment that waits for children obtains a bridge for them, and arms its group. -/
theorem apart_await (hn : Sound Ok n s) {body : B} {mode : WaitMode}
    (hst : s.strand? id = some st) (hs : st.status = .running false) (hslot : st.bridge = none)
    (hcancelling : s.isCancelling = false)
    (hok : ∀ outcome, Ok ⟨s.bridges.next⟩ (.children outcome)) :
    Apart Ok s (.endSegment id body (.await mode))
      ((s.keepBody id body).blockOnChildren id mode) := by
  have hrun : st.status.isRunning = true := by
    rw [hs]
    rfl
  have hkeep := Own.keepBody hst body
  have hissue := hkeep.trans (.issue hkeep.self)
  have hblock := hissue.trans (.block hissue.self hs)
  have harm := hblock.trans (.arm hblock.self mode ⟨s.bridges.next⟩)
  have hsound : Sound Ok n (((s.keepBody id body).issueBridge id).1.block id) :=
    ((hn.keepBody id body).issue id).block hissue.self hrun
  unfold Scheduler.blockOnChildren
  dsimp only
  rw [show ((s.keepBody id body).issueBridge id).1.block id = _ from rfl, hblock.self]
  refine ⟨_, _, .awaiting hrun hslot hcancelling harm rfl rfl fun b => ?_,
    changes_deliverFired (hsound.arm hblock.self hok mode) ?_, .refl _⟩
  · exact (block_bridge? hissue.self hs b).trans (issueBridge_bridge? (s.keepBody id body) id b)
  · intro d hd
    obtain ⟨hb, outcome, hpayload⟩ := arm_delivery hd
    rw [hb, hpayload]
    exact hok outcome

/-- No bridge is obtained for children by a segment that is cut off, or that has one already. -/
theorem issued_end_none {body : B} {step : Step V}
    (h : ∀ mode, step = .await mode →
      s.isCancelling = true ∨ ((s.strand? id).bind (·.bridge)).isSome = true) :
    s.issued (.endSegment id body step) = none := by
  cases step with
  | await mode =>
    have hor := h mode rfl
    rw [← Bool.or_eq_true] at hor
    simp only [issued, hor, if_true]
  | _ => rfl

theorem apart_follow (hn : Sound Ok n s) (hst : s.strand? id = some st) {mark : Bool}
    (hs : st.status = .running mark) (hmark : st.bridge = none → mark = false) {body : B}
    {step : Step V} (hcancelling : (s.isCancelling && !step.isDone) = false)
    (hok : Follows Ok s id step) :
    Apart Ok s (.endSegment id body step) (s.follow id body step) := by
  have hrun : st.status.isRunning = true := by
    rw [hs]
    rfl
  have hread : (s.strand? id).bind (·.bridge) = st.bridge := by rw [hst, Option.bind_some]
  have hfinish : ∀ outcome, s.issued (.endSegment id body step) = none →
      Apart Ok s (.endSegment id body step) (s.finish id outcome) := by
    intro outcome hissued
    refine apart_finish hn hissued rfl ?_ hst hrun outcome
    rintro k step' heq
    exact (Prod.mk.inj (Option.some.inj heq)).1.symm
  unfold Scheduler.follow
  rw [hread]
  cases hslot : st.bridge with
  | none =>
    cases step with
    | done outcome => exact hfinish outcome rfl
    | yield => exact apart_requeue hst hrun hslot
    | park => exact hfinish _ rfl
    | await mode =>
      rw [hmark hslot] at hs
      exact apart_await hn hst hs hslot (by simpa [Step.isDone] using hcancelling)
        (hok mode rfl (hread.trans hslot))
  | some b =>
    cases step with
    | done outcome => exact hfinish outcome rfl
    | yield => exact apart_park (Or.inl rfl) hst hrun hslot
    | park => exact apart_park (Or.inr rfl) hst hrun hslot
    | await mode =>
      refine hfinish _ (issued_end_none fun _ _ => Or.inr ?_)
      rw [hread, hslot]
      rfl

theorem Stable.apart_endSegment (h : Stable Ok drained s) (hid : id ∈ s.held) {body : B}
    {step : Step V} (hr : Respects Ok s (.endSegment id body step)) :
    Apart Ok s (.endSegment id body step) (s.after (.endSegment id body step)) := by
  obtain ⟨st, hst, hrun⟩ := (h.placed.busy_iff id).mp hid
  obtain ⟨n, hn⟩ := h.sound
  show Apart Ok s (.endSegment id body step) (s.endSegment id body step)
  unfold Scheduler.endSegment
  split
  next hcut =>
    rw [Bool.and_eq_true] at hcut
    refine (apart_cancel hn (issued_end_none fun _ _ => Or.inl hcut.1) rfl ?_ hst
      (Status.not_terminal_of_running hrun) (Or.inl hrun) _).release
    rintro k step' heq
    exact (Prod.mk.inj (Option.some.inj heq)).1.symm
  next hnot =>
    have hcancelling := Bool.eq_false_of_not_eq_true hnot
    obtain ⟨mark, hs⟩ := Status.exists_of_running hrun
    refine (apart_follow hn hst hs ?_ hcancelling (hr.follows hcancelling)).release
    intro hslot
    have hunmarked := hs.symm.trans (h.placed.unmarked hst hrun hslot)
    exact Status.running.inj hunmarked

/-! ## Every move -/

theorem Stable.apart_cleanUp (h : Stable Ok drained s) (gone : s.terminated = true)
    (id : StrandId) :
    Apart Ok s (.cancel id) (s.after (.cancel id)) := by
  obtain ⟨n, hn⟩ := h.sound
  show Apart Ok s (.cancel id) (s.cancel id s.cleanUpReason).1
  cases hst : s.strand? id with
  | none =>
    rw [cancel_none hst]
    exact .of_still rfl rfl rfl (.refl s)
  | some st =>
    cases hend : st.status.isTerminal with
    | true =>
      rw [cancel_terminal ⟨st, hst, hend⟩]
      exact .of_still rfl rfl rfl (.refl s)
    | false =>
      exact apart_cancel hn rfl rfl (fun _ _ heq => by cases heq) hst hend (Or.inr gone) _

theorem Stable.apart_expireTimer (h : Stable Ok drained s) (t : TimerId) :
    Apart Ok s (.expireTimer t) (s.after (.expireTimer t)) := by
  show Apart Ok s (.expireTimer t) (s.expireTimer t)
  unfold Scheduler.expireTimer
  split
  · exact .of_still rfl rfl rfl (.refl s)
  next timer ht =>
    dsimp only
    split
    · exact .of_still rfl rfl rfl ⟨fun _ => rfl, fun _ => rfl, rfl, .of_queue rfl⟩
    next e he =>
      have hupdate := h.updateTimer t (f := fun _ => timer.expire.1) fun timer' ht' => by
        rw [← Option.some.inj (ht.symm.trans ht')]
        exact timer.expire_bridge
      obtain ⟨n, hn⟩ := hupdate.sound
      exact ⟨{ s with timers := s.timers.update t.number fun _ => timer.expire.1 }, _,
        .quiet rfl rfl rfl ⟨fun _ => rfl, fun _ => rfl, rfl, .of_queue rfl⟩,
        changes_tryComplete hn (h.timers t timer ht (.err e)), .refl _⟩

theorem Apart.join (s : Scheduler V B) (id : StrandId) :
    Apart Ok s (.join id) (s.after (.join id)) := by
  show Apart Ok s (.join id) (((s.join id).map (·.1)).getD s)
  rcases join_cases s id with heq | ⟨outcome, heq⟩
  · rw [heq]
    exact .of_still rfl rfl rfl (.refl s)
  · rw [heq]
    exact ⟨s, s, .quiet rfl rfl rfl (.refl s), .refl, .of_update rfl (fun _ => rfl) rfl rfl rfl⟩

/-- **Every move that may come is a turn of its strand, nested changes, and a tail.** -/
theorem Stable.apart (h : Stable Ok drained s) (ha : s.Allows m) (hr : Respects Ok s m) :
    Apart Ok s m (s.after m) := by
  obtain ⟨n, hn⟩ := h.sound
  cases m with
  | spawn body name => exact .of_changes rfl rfl rfl (.single (.spawn s _))
  | park id => exact .park s id
  | complete b r => exact .of_changes rfl rfl rfl (changes_deliver hn (hr.targets b _ ⟨rfl, rfl⟩))
  | tryComplete b r =>
    exact .of_changes rfl rfl rfl (changes_tryComplete hn (hr.targets b _ ⟨rfl, rfl⟩))
  | deliver b payload =>
    exact .of_changes rfl rfl rfl (changes_deliver hn (hr.targets b _ ⟨rfl, rfl⟩))
  | invoke inputs callable concurrency callback =>
    exact .of_changes rfl rfl rfl (changes_invoke hn inputs callable concurrency callback
      fun answer b w hmem => hr.targets b w ⟨answer, hmem⟩)
  | createJob length callback =>
    exact .of_changes rfl rfl rfl (changes_addJob hn length callback none
      fun answer b w hmem => hr.targets b w ⟨answer, hmem⟩)
  | submit j index r =>
    exact .of_changes rfl rfl rfl (changes_submitWith cancels_cancel hn j index r)
  | claim j => exact .of_changes rfl rfl rfl (changes_claim s j)
  | armTimer b d now =>
    refine .of_still rfl rfl rfl ?_
    obtain ⟨timers, heq⟩ := after_armTimer s b d now
    rw [heq]
    exact ⟨fun _ => rfl, fun _ => rfl, rfl, .of_queue rfl⟩
  | disarmTimer t => exact .of_still rfl rfl rfl ⟨fun _ => rfl, fun _ => rfl, rfl, .of_queue rfl⟩
  | detachTimer t => exact .of_still rfl rfl rfl ⟨fun _ => rfl, fun _ => rfl, rfl, .of_queue rfl⟩
  | pollTimer t =>
    refine .of_still rfl rfl rfl ?_
    obtain ⟨timers, heq⟩ := after_pollTimer s t
    rw [heq]
    exact ⟨fun _ => rfl, fun _ => rfl, rfl, .of_queue rfl⟩
  | expireTimer t => exact h.apart_expireTimer t
  | join id => exact .join s id
  | drainChannel =>
    refine .of_still rfl rfl rfl ?_
    show Still s ((s.drainChannel.map (·.1)).getD s)
    unfold Scheduler.drainChannel
    cases s.channel with
    | none => exact .refl s
    | some c => exact ⟨fun _ => rfl, fun _ => rfl, rfl, .of_queue rfl⟩
  | spawnDetached id body => exact .of_changes rfl rfl rfl (.single (.spawn s _))
  | spawnChild id body => exact .of_changes rfl rfl rfl (changes_spawnChild s id body)
  | invokeParked id inputs callable concurrency => exact h.apart_invokeParked hr
  | dispatch => exact h.apart_dispatch
  | endSegment id body step => exact h.apart_endSegment ha hr
  | beginShutdown mode =>
    refine .of_still rfl rfl rfl ?_
    show Still s ((s.beginShutdown mode).getD s)
    unfold Scheduler.beginShutdown
    cases s.phase.enter? mode.phase with
    | none => exact .refl s
    | some phase =>
      show Still s { s with
        phase := phase
        queue := if phase.isCancelling then s.queue.abort else s.queue }
      refine ⟨fun _ => rfl, fun _ => rfl, rfl, ?_⟩
      split
      · exact ⟨fun _ hk => hk, fun _ => rfl⟩
      · exact .of_queue rfl
  | closeQueue =>
    exact .of_still rfl rfl rfl ⟨fun _ => rfl, fun _ => rfl, rfl, fun _ hk => hk, fun _ => rfl⟩
  | terminate =>
    exact ⟨s, s, .quiet rfl rfl rfl (.refl s), .refl, fun _ => rfl, fun _ => rfl,
      (fun alive => by cases alive), .of_queue rfl⟩
  | drain =>
    exact .of_still rfl rfl rfl ⟨fun _ => rfl, fun _ => rfl, rfl,
      fun _ hk => absurd hk List.not_mem_nil, fun hc => hc⟩
  | cancel id => exact h.apart_cleanUp ha.1 id

/-! ## What the parts say together -/

theorem Tail.fates (h : Tail s s') : Fates Ok s s' := .of_same h.bridges

theorem Apart.fates (h : Apart Ok s m s') : Fates Ok s s' := by
  obtain ⟨s₁, s₂, hturn, hd, htail⟩ := h
  exact (hturn.fates.trans (.of_bridges hd.bridges)).trans htail.fates

theorem Apart.obtains {o : Origin} {b : BridgeId} (h : Apart Ok s m s')
    (hi : s.issued m = some (id, o, b)) :
    ∃ st, s.strand? id = some st ∧ st.status.isRunning = true ∧ st.bridge = none := by
  obtain ⟨s₁, -, hturn, -⟩ := h
  exact (hturn.obtains hi).2.1

theorem Apart.alive (h : Apart Ok s m s') (alive : s'.terminated = false) :
    s.terminated = false := by
  obtain ⟨s₁, s₂, hturn, hd, htail⟩ := h
  rw [← hturn.terminated, ← hd.steady.terminated]
  exact htail.alive alive

/-- When the workers are gone no strand comes into the queue any more. -/
theorem Apart.queueShrinks (h : Apart Ok s m s') (hs : Stable Ok drained s)
    (gone : s.terminated = true) : QueueShrinks s s' := by
  obtain ⟨s₁, s₂, hturn, hd, htail⟩ := h
  obtain ⟨n, hn⟩ := hs.sound
  have hidle : ∀ {id : StrandId} {st st₁ : Strand V B}, Own s s₁ id st st₁ →
      st.status.isRunning = true → QueueShrinks s s₁ := fun hown hrun =>
    absurd ((hs.placed.alive hown.row hrun).symm.trans gone) (by decide)
  -- Only a running strand could come back to the queue by itself, and none runs any more.
  have hfirst : QueueShrinks s s₁ := by
    cases hturn with
    | quiet _ _ _ hstill => exact hstill.queueShrinks
    | issue _ _ _ hrun _ hown => exact hidle hown hrun
    | begun hseg =>
      exact absurd ((segment_alive (m := .dispatch) hseg).symm.trans gone) (by decide)
    | resumed hseg =>
      exact absurd ((segment_alive (m := .dispatch) hseg).symm.trans gone) (by decide)
    | ended _ _ _ _ _ _ _ _ hshrinks => exact hshrinks
    | requeued hrun _ hown => exact hidle hown hrun
    | parked _ hrun _ hown => exact hidle hown hrun
    | awaiting hrun _ _ hown => exact hidle hown hrun
  have hqueue := hd.waiting (hfirst.closed (hn.closed gone).1) (hturn.terminated.trans gone)
  exact (hfirst.trans (.of_queue hqueue)).trans htail.queueShrinks

/-- What follows a turn leaves the strands as they are, as long as there are workers. -/
theorem Apart.rows (h : Apart Ok s m s') (alive : s.terminated = false) :
    ∃ s₁, Turn s m s₁ ∧ Rows s₁ s' := by
  obtain ⟨s₁, s₂, hturn, hd, htail⟩ := h
  exact ⟨s₁, hturn, (hd.rows (hturn.terminated.trans alive)).trans htail.later⟩

/-- As long as there are workers no clean-up has begun. -/
theorem Stable.alive_run {ms : List (Move V B)} (h : Stable Ok drained s) (ha : s.Admissible ms)
    (hr : ∀ before m rest, ms = before ++ m :: rest → Respects Ok (s.run before) m)
    (alive : (s.run ms).terminated = false) :
    s.terminated = false ∧ ms.any Move.isCleanUp = false := by
  -- On the moves, from the end: the workers were there before if they are there after.
  induction ms generalizing s drained with
  | nil => exact ⟨alive, rfl⟩
  | cons m ms ih =>
    obtain ⟨hm, hms⟩ := ha
    have hfirst := hr [] m ms rfl
    have hrest := ih (h.after hm hfirst) hms
      (fun before m' rest heq => hr (m :: before) m' rest (by rw [heq]; rfl)) alive
    have hs := (h.apart hm hfirst).alive hrest.1
    refine ⟨hs, ?_⟩
    rw [List.any_cons, hrest.2, Bool.or_false]
    exact isCleanUp_of_alive hm hs

end Scheduler
end CoopSched
