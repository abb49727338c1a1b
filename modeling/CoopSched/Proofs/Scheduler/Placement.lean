import CoopSched.Proofs.Scheduler.Nested

/-!
# Placement — one place for every strand

A strand that waits for a worker stands in the queue, one that runs is on a worker, one that is
blocked has a bridge that nobody has completed, and one that has ended is nowhere. `Placed` says so
of all strands together, and ties the status of each to the bridge in its slot and to the ready
queue. It holds between the parts of a move as well as between moves, which is why the strands that
are busy on a worker are an argument: while a segment is being ended its strand is still held, and
is not busy any more.

Every part of a move changes the row of one strand, together with bridges of that strand, and
`Placed.change` is the one place where it is worked out what that does to all the others.
-/

namespace CoopSched
namespace Scheduler

variable {V B : Type} {Ok : BridgeId → Wakeup V → Prop} {busy busy' : List StrandId}
  {s s' : Scheduler V B}

/-- How the slot of a strand goes with its status. -/
def SlotFits (s : Scheduler V B) (id : StrandId) (st : Strand V B) : Prop :=
  match st.bridge with
  | none => st.status ≠ .blocked ∧ st.status ≠ .running true
  | some b =>
      match st.status with
      | .runnable | .running true => ∃ w, s.bridge? b = some ⟨id, .holding w⟩
      | .blocked | .running false => s.bridge? b = some ⟨id, .pending⟩
      | .doneOk | .doneError => False

/-- Every strand is where its status says, these being the ones on a worker. -/
structure Placed (busy : List StrandId) (s : Scheduler V B) : Prop where
  waiting_nodup : s.queue.waiting.Nodup
  waiting_runnable : ∀ id ∈ s.queue.waiting, ∃ st, s.strand? id = some st ∧ st.status = .runnable
  busy_nodup : busy.Nodup
  busy_iff : ∀ id, id ∈ busy ↔ ∃ st, s.strand? id = some st ∧ st.status.isRunning = true
  slot : ∀ id st, s.strand? id = some st → SlotFits s id st
  /-- A bridge that nobody has claimed is the one in the slot of its strand, unless that ended. -/
  pending : ∀ b id, s.bridge? b = some ⟨id, .pending⟩ →
    ∃ st, s.strand? id = some st ∧ (st.status.isTerminal = true ∨ st.bridge = some b)
  body : ∀ id st, s.strand? id = some st → st.status = .runnable ∨ st.status = .blocked →
    st.body.isSome = true
  gone : s.terminated = true → busy = []

/-- Everybody who is ready stands in the queue. -/
def Queued (s : Scheduler V B) : Prop :=
  ∀ id st, s.strand? id = some st → st.status = .runnable → id ∈ s.queue.waiting

theorem SlotFits.congr {id : StrandId} {st : Strand V B} (h : SlotFits s id st)
    (hb : ∀ b stage, s.bridge? b = some ⟨id, stage⟩ → s'.bridge? b = some ⟨id, stage⟩) :
    SlotFits s' id st := by
  unfold SlotFits at h ⊢
  split at h
  next => exact h
  next b hbridge =>
    split at h
    · obtain ⟨w, hw⟩ := h
      exact ⟨w, hb _ _ hw⟩
    · obtain ⟨w, hw⟩ := h
      exact ⟨w, hb _ _ hw⟩
    · exact hb _ _ h
    · exact hb _ _ h
    · exact h
    · exact h

/-- **One strand changes, with its bridges.** The others are where they were. -/
theorem Placed.change (h : Placed busy s) {id : StrandId} {st' : Strand V B}
    (hrow : ∀ k, s'.strand? k = if id = k then some st' else s.strand? k)
    (hbridge : ∀ b k stage, id ≠ k →
      (s'.bridge? b = some ⟨k, stage⟩ ↔ s.bridge? b = some ⟨k, stage⟩))
    (hnodup : s'.queue.waiting.Nodup)
    (hwaiting : ∀ k ∈ s'.queue.waiting, id ≠ k ∧ k ∈ s.queue.waiting ∨
      id = k ∧ st'.status = .runnable)
    (hbusy : busy'.Nodup)
    (hother : ∀ k, id ≠ k → (k ∈ busy' ↔ k ∈ busy))
    (hself : id ∈ busy' ↔ st'.status.isRunning = true)
    (hslot : SlotFits s' id st')
    (hpending : ∀ b, s'.bridge? b = some ⟨id, .pending⟩ →
      st'.status.isTerminal = true ∨ st'.bridge = some b)
    (hbody : st'.status = .runnable ∨ st'.status = .blocked → st'.body.isSome = true)
    (hgone : s'.terminated = true → busy' = []) : Placed busy' s' where
  waiting_nodup := hnodup
  waiting_runnable := by
    intro k hk
    rw [hrow]
    rcases hwaiting k hk with ⟨hne, hold⟩ | ⟨rfl, hst'⟩
    · rw [if_neg hne]
      exact h.waiting_runnable k hold
    · exact ⟨st', if_pos rfl, hst'⟩
  busy_nodup := hbusy
  busy_iff := by
    intro k
    rw [hrow]
    by_cases hk : id = k
    · subst hk
      rw [if_pos rfl, hself]
      constructor
      · exact fun hr => ⟨st', rfl, hr⟩
      · rintro ⟨st, hst, hr⟩
        rw [Option.some.inj hst]
        exact hr
    · rw [if_neg hk, hother k hk]
      exact h.busy_iff k
  slot := by
    intro k st hst
    rw [hrow] at hst
    split at hst
    next hk =>
      rw [← Option.some.inj hst, ← hk]
      exact hslot
    next hk => exact (h.slot k st hst).congr fun b stage hb => (hbridge b k stage hk).mpr hb
  pending := by
    intro b k hb
    rw [hrow]
    by_cases hk : id = k
    · subst hk
      exact ⟨st', if_pos rfl, hpending b hb⟩
    · rw [if_neg hk]
      exact h.pending b k ((hbridge b k .pending hk).mp hb)
  body := by
    intro k st hst hready
    rw [hrow] at hst
    split at hst
    next hk =>
      rw [← Option.some.inj hst] at hready ⊢
      exact hbody hready
    next hk => exact h.body k st hst hready
  gone := hgone

/-- Nothing changes that a place depends on. -/
theorem Placed.of_same (h : Placed busy s)
    (hrow : ∀ id, (s'.strand? id).map (fun st => (st.status, st.bridge, st.body)) =
      (s.strand? id).map fun st => (st.status, st.bridge, st.body))
    (hbridge : ∀ b, s'.bridge? b = s.bridge? b) (hwaiting : s'.queue.waiting = s.queue.waiting)
    (hterm : s'.terminated = s.terminated) : Placed busy s' := by
  have hback : ∀ id st', s'.strand? id = some st' → ∃ st, s.strand? id = some st ∧
      st'.status = st.status ∧ st'.bridge = st.bridge ∧ st'.body = st.body := by
    intro id st' hst'
    have := hrow id
    rw [hst', Option.map_some] at this
    obtain ⟨st, hst, heq⟩ := Option.map_eq_some_iff.mp this.symm
    simp only [Prod.mk.injEq] at heq
    exact ⟨st, hst, heq.1.symm, heq.2.1.symm, heq.2.2.symm⟩
  have hforth : ∀ id st, s.strand? id = some st → ∃ st', s'.strand? id = some st' ∧
      st'.status = st.status ∧ st'.bridge = st.bridge ∧ st'.body = st.body := by
    intro id st hst
    have := hrow id
    rw [hst, Option.map_some] at this
    obtain ⟨st', hst', heq⟩ := Option.map_eq_some_iff.mp this
    simp only [Prod.mk.injEq] at heq
    exact ⟨st', hst', heq.1, heq.2.1, heq.2.2⟩
  refine ⟨hwaiting ▸ h.waiting_nodup, ?_, h.busy_nodup, ?_, ?_, ?_, ?_, hterm ▸ h.gone⟩
  · intro id hid
    obtain ⟨st, hst, hr⟩ := h.waiting_runnable id (hwaiting ▸ hid)
    obtain ⟨st', hst', hs, -, -⟩ := hforth id st hst
    exact ⟨st', hst', hs.trans hr⟩
  · intro id
    rw [h.busy_iff id]
    constructor
    · rintro ⟨st, hst, hr⟩
      obtain ⟨st', hst', hs, -, -⟩ := hforth id st hst
      exact ⟨st', hst', hs ▸ hr⟩
    · rintro ⟨st', hst', hr⟩
      obtain ⟨st, hst, hs, -, -⟩ := hback id st' hst'
      exact ⟨st, hst, hs ▸ hr⟩
  · intro id st' hst'
    obtain ⟨st, hst, hs, hb, -⟩ := hback id st' hst'
    have hfits : SlotFits s' id st :=
      (h.slot id st hst).congr fun b stage hb => (hbridge b).trans hb
    unfold SlotFits at hfits ⊢
    rwa [hs, hb]
  · intro b id hb
    obtain ⟨st, hst, hor⟩ := h.pending b id ((hbridge b).symm.trans hb)
    obtain ⟨st', hst', hs, hslot, -⟩ := hforth id st hst
    exact ⟨st', hst', by rwa [hs, hslot]⟩
  · intro id st' hst' hready
    obtain ⟨st, hst, hs, -, hbody⟩ := hback id st' hst'
    rw [hbody]
    exact h.body id st hst (by rwa [← hs])

/-! ## Changes -/

theorem claim?_eq_some {x x' : Bridge V} {w : Wakeup V} (h : x.claim? w = some x') :
    x = ⟨x.strand, .pending⟩ ∧ x' = ⟨x.strand, .holding w⟩ := by
  unfold Bridge.claim? at h
  cases x with
  | mk k stage =>
    cases stage with
    | pending => exact ⟨rfl, (Option.some.inj h).symm⟩
    | holding w' => cases h
    | spent => cases h

theorem SlotFits.holding {id : StrandId} {st : Strand V B} {b : BridgeId} (h : SlotFits s id st)
    (hslot : st.bridge = some b) (hs : st.status = .runnable ∨ st.status = .running true) :
    ∃ w, s.bridge? b = some ⟨id, .holding w⟩ := by
  unfold SlotFits at h
  rw [hslot] at h
  rcases hs with hs | hs <;> rw [hs] at h <;> exact h

theorem SlotFits.unclaimed {id : StrandId} {st : Strand V B} {b : BridgeId} (h : SlotFits s id st)
    (hslot : st.bridge = some b) (hs : st.status = .blocked ∨ st.status = .running false) :
    s.bridge? b = some ⟨id, .pending⟩ := by
  unfold SlotFits at h
  rw [hslot] at h
  rcases hs with hs | hs <;> rw [hs] at h <;> exact h

/-- Who is blocked or has his mark has a bridge. -/
theorem SlotFits.exists_bridge {id : StrandId} {st : Strand V B} (h : SlotFits s id st)
    (hs : st.status = .blocked ∨ st.status = .running true) : ∃ b, st.bridge = some b := by
  unfold SlotFits at h
  cases hslot : st.bridge with
  | none =>
    rw [hslot] at h
    rcases hs with hs | hs
    · exact absurd hs h.1
    · exact absurd hs h.2
  | some b => exact ⟨b, rfl⟩

/-- A strand with a pending bridge in its slot is on a worker or blocked. -/
theorem SlotFits.pending {id : StrandId} {st : Strand V B} {b : BridgeId}
    (h : SlotFits s id st) (hslot : st.bridge = some b) (hb : s.bridge? b = some ⟨id, .pending⟩) :
    st.status = .running false ∨ st.status = .blocked := by
  have hnot : ¬ (st.status = .runnable ∨ st.status = .running true) := by
    intro hs
    obtain ⟨w, hw⟩ := h.holding hslot hs
    rw [hb] at hw
    cases hw
  unfold SlotFits at h
  rw [hslot] at h
  cases hs : st.status with
  | runnable => exact absurd (Or.inl hs) hnot
  | running mark =>
    cases mark with
    | false => exact Or.inl rfl
    | true => exact absurd (Or.inr hs) hnot
  | blocked => exact Or.inr rfl
  | doneOk =>
    rw [hs] at h
    exact h.elim
  | doneError =>
    rw [hs] at h
    exact h.elim

theorem SlotFits.terminal {id : StrandId} {st : Strand V B} (h : SlotFits s id st)
    (hend : st.status.isTerminal = true) : st.bridge = none := by
  unfold SlotFits at h
  cases hslot : st.bridge with
  | none => rfl
  | some b =>
    rw [hslot] at h
    cases hst : st.status <;> rw [hst] at h hend
    · cases hend
    · cases hend
    · cases hend
    · exact h.elim
    · exact h.elim

theorem SlotFits.of_terminal {id : StrandId} {st : Strand V B}
    (hend : st.status.isTerminal = true) (hslot : st.bridge = none) : SlotFits s id st := by
  unfold SlotFits
  rw [hslot]
  constructor
  · intro hst
    rw [hst] at hend
    cases hend
  · intro hst
    rw [hst] at hend
    cases hend

/-- Who waits in the queue is ready. -/
theorem Placed.not_waiting (h : Placed busy s) {id : StrandId} {st : Strand V B}
    (hst : s.strand? id = some st) (hne : st.status ≠ .runnable) : id ∉ s.queue.waiting := by
  intro hid
  obtain ⟨st', hst', hr⟩ := h.waiting_runnable id hid
  rw [Option.some.inj (hst.symm.trans hst')] at hne
  exact hne hr

theorem Placed.busy_iff_running (h : Placed busy s) {id : StrandId} {st : Strand V B}
    (hst : s.strand? id = some st) : id ∈ busy ↔ st.status.isRunning = true := by
  rw [h.busy_iff id]
  constructor
  · rintro ⟨st', hst', hr⟩
    rw [Option.some.inj (hst.symm.trans hst')]
    exact hr
  · exact fun hr => ⟨st, hst, hr⟩

/-- A pending bridge finds its strand running without a mark, blocked or ended. -/
theorem Placed.target (h : Placed busy s) {b : BridgeId} {k : StrandId}
    (hb : s.bridge? b = some ⟨k, .pending⟩) :
    ∃ st, s.strand? k = some st ∧ (st.status.isTerminal = true ∨
      st.bridge = some b ∧ (st.status = .running false ∨ st.status = .blocked)) := by
  obtain ⟨st, hst, hend | hslot⟩ := h.pending b k hb
  · exact ⟨st, hst, Or.inl hend⟩
  · exact ⟨st, hst, Or.inr ⟨hslot, (h.slot k st hst).pending hslot hb⟩⟩

theorem nodup_push {q : ReadyQueue} {id : StrandId} (h : q.waiting.Nodup) (hid : id ∉ q.waiting) :
    (q.push id).waiting.Nodup := by
  refine List.nodup_append.mpr ⟨h, by simp, ?_⟩
  intro a ha b hb heq
  rw [List.mem_singleton.mp hb] at heq
  exact hid (heq ▸ ha)

theorem Placed.deliver (h : Placed busy s) (alive : s.terminated = false) {b : BridgeId}
    {k : StrandId} {w : Wakeup V} (hb : s.bridge? b = some ⟨k, .pending⟩) :
    Placed busy ((s.setBridge b ⟨k, .holding w⟩).wake k) := by
  obtain ⟨st, hst, hwhere⟩ := h.target hb
  obtain ⟨counters, journal, channel, heq⟩ :=
    wake_eq (s := s.setBridge b ⟨k, .holding w⟩) alive hst
  generalize (s.setBridge b ⟨k, .holding w⟩).wake k = s' at heq
  have hstrands : s'.strands = s.strands.update k.number Strand.woken := by rw [heq]; rfl
  have hbridges : s'.bridges = s.bridges.update b.number fun _ => ⟨k, .holding w⟩ := by
    rw [heq]; rfl
  have hqueue : s'.queue = if st.status = .blocked then s.queue.push k else s.queue := by
    rw [heq]; rfl
  have hterm : s'.terminated = s.terminated := by rw [heq]; rfl
  have hnotin : st.status = .blocked → k ∉ s.queue.waiting := by
    intro hs
    exact h.not_waiting hst (by rw [hs]; decide)
  -- Who is blocked is not in the queue, so the woken strand does not come to stand there twice.
  refine h.change (strand?_of_update_some hstrands hst)
    (fun a k' stage hk => bridge?_of_update_iff hbridges hb rfl hk a stage) ?_ ?_ h.busy_nodup
    (fun _ _ => Iff.rfl) ?_ ?_ ?_ ?_ (hterm ▸ h.gone)
  · rw [hqueue]
    split
    next hs => exact nodup_push h.waiting_nodup (hnotin hs)
    next => exact h.waiting_nodup
  · intro a ha
    rw [hqueue] at ha
    by_cases hak : k = a
    · subst hak
      refine Or.inr ⟨rfl, Strand.woken_ready ?_⟩
      split at ha
      next hs => exact Or.inl hs
      next =>
        obtain ⟨st', hst', hs'⟩ := h.waiting_runnable k ha
        rw [Option.some.inj (hst.symm.trans hst')]
        exact Or.inr hs'
    · refine Or.inl ⟨hak, ?_⟩
      split at ha
      next =>
        rcases List.mem_append.mp ha with ha | ha
        · exact ha
        · exact absurd (List.mem_singleton.mp ha).symm hak
      next => exact ha
  · rw [h.busy_iff_running hst, st.woken_running]
  · rcases hwhere with hend | ⟨hslot, hs⟩
    · exact .of_terminal (st.woken_terminal.trans hend)
        ((h.slot k st hst).terminal hend)
    · have hb' : s'.bridge? b = some ⟨k, .holding w⟩ := by
        rw [bridge?_of_update hbridges, if_pos rfl, hb]
        rfl
      unfold SlotFits
      rw [show st.woken.bridge = some b from hslot]
      rcases hs with hs | hs <;>
        simp only [Strand.woken, hs, Status.wake] <;> exact ⟨w, hb'⟩
  · intro a ha
    rw [bridge?_of_update hbridges] at ha
    split at ha
    next hba =>
      subst hba
      rw [hb] at ha
      cases ha
    next =>
      obtain ⟨st', hst', hor⟩ := h.pending a k ha
      rw [← Option.some.inj (hst.symm.trans hst')] at hor
      rcases hor with hend | hslot
      · exact Or.inl (st.woken_terminal.trans hend)
      · exact Or.inr hslot
  · intro hready
    apply h.body k st hst
    show st.status = .runnable ∨ st.status = .blocked
    cases hs : st.status <;> simp [Strand.woken, hs, Status.wake] at hready ⊢

theorem SlotFits.owner {id : StrandId} {st : Strand V B} {b : BridgeId} (h : SlotFits s id st)
    (hslot : st.bridge = some b) : ∃ stage, s.bridge? b = some ⟨id, stage⟩ := by
  unfold SlotFits at h
  rw [hslot] at h
  dsimp only at h
  split at h
  · obtain ⟨w, hw⟩ := h
    exact ⟨_, hw⟩
  · obtain ⟨w, hw⟩ := h
    exact ⟨_, hw⟩
  · exact ⟨_, h⟩
  · exact ⟨_, h⟩
  · exact h.elim
  · exact h.elim

/-- A strand that ends with an empty slot leaves the others where they are. -/
theorem Placed.end_strand (h : Placed busy s) {id : StrandId} {st' : Strand V B}
    (hwait : id ∉ s.queue.waiting)
    (hrow : ∀ k, s'.strand? k = if id = k then some st' else s.strand? k)
    (hbridge : ∀ b k stage, id ≠ k →
      (s'.bridge? b = some ⟨k, stage⟩ ↔ s.bridge? b = some ⟨k, stage⟩))
    (hwaiting : s'.queue.waiting = s.queue.waiting) (hterm : s'.terminated = s.terminated)
    (hend : st'.status.isTerminal = true) (hslot : st'.bridge = none) :
    Placed (busy.erase id) s' := by
  refine h.change hrow hbridge (hwaiting ▸ h.waiting_nodup) ?_ (h.busy_nodup.erase id) ?_ ?_
    (.of_terminal hend hslot) (fun _ _ => Or.inl hend) ?_ ?_
  · intro k hk
    rw [hwaiting] at hk
    exact Or.inl ⟨fun heq => hwait (heq ▸ hk), hk⟩
  · intro k hk
    exact List.mem_erase_of_ne (Ne.symm hk)
  · have hnot : id ∉ busy.erase id := fun hmem =>
      absurd rfl ((h.busy_nodup.mem_erase_iff.mp hmem).1)
    rw [Status.not_running_of_terminal hend]
    exact ⟨fun hmem => absurd hmem hnot, fun hr => by cases hr⟩
  · intro hready
    rcases hready with hs | hs <;> rw [hs] at hend <;> cases hend
  · intro gone
    rw [h.gone (hterm ▸ gone)]
    rfl

theorem Placed.not_busy (h : Placed busy s) {id : StrandId} {st : Strand V B}
    (hst : s.strand? id = some st) (hne : st.status.isRunning = false) : busy.erase id = busy := by
  apply List.erase_of_not_mem
  rw [h.busy_iff_running hst, hne]
  decide

/-- A completion that comes when the workers are gone finds its strand blocked or ended. -/
theorem Placed.strike (h : Placed busy s) (gone : s.terminated = true) {b : BridgeId}
    {k : StrandId} {w : Wakeup V} (hb : s.bridge? b = some ⟨k, .pending⟩) :
    Placed busy ((s.setBridge b ⟨k, .holding w⟩).strike k) := by
  obtain ⟨st, hst, hwhere⟩ := h.target hb
  have hset : ∀ a k' stage, k ≠ k' → ((s.setBridge b ⟨k, .holding w⟩).bridge? a =
      some ⟨k', stage⟩ ↔ s.bridge? a = some ⟨k', stage⟩) :=
    fun a k' stage hk => bridge?_of_update_iff (f := fun _ => ⟨k, .holding w⟩) rfl hb rfl hk a stage
  unfold Scheduler.strike
  rw [strand?_setBridge, hst]
  dsimp only
  rcases hwhere with hend | ⟨hslot, hs⟩
  · have hwait : k ∉ s.queue.waiting := by
      apply h.not_waiting hst
      intro hs
      rw [hs] at hend
      cases hend
    have hnot : busy.erase k = busy := h.not_busy hst (Status.not_running_of_terminal hend)
    rw [if_pos hend, ← hnot]
    refine h.end_strand hwait ?_ hset rfl rfl hend ((h.slot k st hst).terminal hend)
    intro a
    rw [strand?_setBridge]
    split
    next hk => rw [← hk, hst]
    next => rfl
  · have hblocked : st.status = .blocked := by
      rcases hs with hs | hs
      · have hmem := (h.busy_iff_running hst).mpr (by rw [hs]; rfl)
        rw [h.gone gone] at hmem
        cases hmem
      · exact hs
    have hnot : busy.erase k = busy := h.not_busy hst (by rw [hblocked]; rfl)
    have hwait : k ∉ s.queue.waiting := h.not_waiting hst (by rw [hblocked]; decide)
    obtain ⟨counters, journal, channel, heq⟩ :=
      cut_eq (s := s.setBridge b ⟨k, .holding w⟩) hst
    rw [hblocked, if_neg (by decide), ← hnot]
    generalize (s.setBridge b ⟨k, .holding w⟩).cut k st.bridge = s' at heq
    have hstrands : s'.strands = s.strands.update k.number Strand.cut := by rw [heq]; rfl
    have hbridges : s'.bridges = s.bridges.update b.number fun _ => ⟨k, .holding w⟩ := by
      rw [heq, hslot]
      show (s.bridges.update b.number fun _ => ⟨k, .holding w⟩).update b.number Bridge.shut = _
      rw [Table.update_update]
      rfl
    refine h.end_strand hwait (strand?_of_update_some hstrands hst)
      (fun a k' stage hk => bridge?_of_update_iff hbridges hb rfl hk a stage) ?_ ?_ rfl rfl
    · rw [heq]
      rfl
    · rw [heq]
      rfl

theorem Placed.spawn (h : Placed busy s) (r : SpawnRequest B) : Placed busy (s.spawn r).1 := by
  rcases spawn_cases s r with ⟨-, counters, journal, channel, heq⟩ |
    ⟨strands, counters, journal, channel, cause, heq, hsame, -⟩
  · rw [heq]
    have hnew : s.strand? ⟨s.strands.next⟩ = none := s.strand?_next
    have hwait : (⟨s.strands.next⟩ : StrandId) ∉ s.queue.waiting := by
      intro hmem
      obtain ⟨st, hst, -⟩ := h.waiting_runnable _ hmem
      exact absurd (hnew.symm.trans hst) (by simp)
    refine @Placed.change _ _ busy busy s _ h ⟨s.strands.next⟩
      (Strand.create r.body r.name r.parent r.hook) ?_ (fun _ _ _ _ => Iff.rfl)
      (nodup_push h.waiting_nodup hwait) ?_ h.busy_nodup (fun _ _ => Iff.rfl) ?_
      ⟨by simp [Strand.create], by simp [Strand.create]⟩ ?_ (fun _ => rfl) h.gone
    · intro k
      show (s.strands.add _).get? k.number = _
      rw [Table.get?_add]
      by_cases hk : (⟨s.strands.next⟩ : StrandId) = k
      · rw [if_pos hk, ← hk, if_pos rfl]
      · rw [if_neg hk, if_neg fun heq => hk (StrandId.number_inj.mp heq.symm)]
        rfl
    · intro k hk
      rcases List.mem_append.mp hk with hk | hk
      · exact Or.inl ⟨fun heq => hwait (heq ▸ hk), hk⟩
      · exact Or.inr ⟨(List.mem_singleton.mp hk).symm, rfl⟩
    · rw [h.busy_iff]
      constructor
      · rintro ⟨st, hst, -⟩
        exact absurd (hnew.symm.trans hst) (by simp)
      · intro hr
        cases hr
    · intro b hb
      obtain ⟨st, hst, -⟩ := h.pending b _ hb
      exact absurd (hnew.symm.trans hst) (by simp)
  · rw [heq]
    refine h.of_same (fun id => ?_) (fun _ => rfl) rfl rfl
    exact congrArg (Option.map _) (hsame id.number)

/-- A change of a row that no place depends on. -/
theorem Placed.of_row (h : Placed busy s) {id : StrandId} {f : Strand V B → Strand V B}
    (hstrands : s'.strands = s.strands.update id.number f)
    (hf : ∀ st, s.strand? id = some st →
      (f st).status = st.status ∧ (f st).bridge = st.bridge ∧ (f st).body = st.body)
    (hbridges : s'.bridges = s.bridges) (hwaiting : s'.queue.waiting = s.queue.waiting)
    (hterm : s'.terminated = s.terminated) : Placed busy s' := by
  refine h.of_same (fun k => ?_) (fun b => ?_) hwaiting hterm
  · rw [strand?_of_update hstrands]
    split
    next hk =>
      cases hst : s.strand? k with
      | none => rfl
      | some st =>
        obtain ⟨hs, hb, hbody⟩ := hf st (hk ▸ hst)
        simp only [Option.map_some, hs, hb, hbody]
    next => rfl
  · rw [bridge?, bridge?, hbridges]

theorem Change.placed (h : Placed busy s) (ht : Change Ok s s') : Placed busy s' := by
  cases ht with
  | answered j answer => exact h.of_same (fun _ => rfl) (fun _ => rfl) rfl rfl
  | job j f hf => exact h.of_same (fun _ => rfl) (fun _ => rfl) rfl rfl
  | addJob entry hok => exact h.of_same (fun _ => rfl) (fun _ => rfl) rfl rfl
  | children id f hf => exact h.of_row rfl (fun _ _ => ⟨rfl, rfl, rfl⟩) rfl rfl rfl
  | report id outcome =>
    obtain ⟨journal, channel, heq⟩ := s.reportUnhandled_eq id outcome
    rw [heq]
    exact h.of_same (fun _ => rfl) (fun _ => rfl) rfl rfl
  | spawn r => exact h.spawn r
  | deliver alive hb hc hok =>
    obtain ⟨hx, hx'⟩ := claim?_eq_some hc
    rw [hx']
    exact h.deliver alive (hb.trans (congrArg some hx))
  | strike gone hb hc hok =>
    obtain ⟨hx, hx'⟩ := claim?_eq_some hc
    rw [hx']
    exact h.strike gone (hb.trans (congrArg some hx))
  | retire kept gone hend => exact h.of_row rfl (fun _ _ => ⟨rfl, rfl, rfl⟩) rfl rfl rfl

theorem Changes.placed (h : Placed busy s) (hd : Changes Ok s s') : Placed busy s' :=
  hd.preserves (fun _ _ h ht => ht.placed h) h

/-! ## Nobody who is ready is forgotten -/

theorem Queued.of_row (h : Queued s) {id : StrandId} {f : Strand V B → Strand V B}
    (hstrands : s'.strands = s.strands.update id.number f)
    (hf : ∀ st, s.strand? id = some st → (f st).status = .runnable → id ∈ s'.queue.waiting)
    (hwaiting : ∀ k ∈ s.queue.waiting, id ≠ k → k ∈ s'.queue.waiting) : Queued s' := by
  intro k st' hst' hs
  rw [strand?_of_update hstrands] at hst'
  split at hst'
  next hk =>
    subst hk
    obtain ⟨st, hst, rfl⟩ := Option.map_eq_some_iff.mp hst'
    exact hf st hst hs
  next hk => exact hwaiting k (h k st' hst' hs) hk

theorem Change.queued (h : Queued s) (ht : Change Ok s s') : Queued s' := by
  cases ht with
  | answered j answer => exact h
  | job j f hf => exact h
  | addJob entry hok => exact h
  | children id f hf => exact h.of_row rfl (fun st hst hs => h id st hst hs) fun _ hk _ => hk
  | report id outcome =>
    obtain ⟨journal, channel, heq⟩ := s.reportUnhandled_eq id outcome
    rw [heq]
    exact h
  | spawn r =>
    rcases spawn_cases s r with ⟨-, counters, journal, channel, heq⟩ |
      ⟨strands, counters, journal, channel, cause, heq, hsame, -⟩
    · rw [heq]
      intro k st' hst' hs
      have hst'' : (s.strands.add _).get? k.number = some st' := hst'
      rw [Table.get?_add] at hst''
      split at hst''
      next hk =>
        refine List.mem_append_right _ (List.mem_singleton.mpr ?_)
        exact StrandId.number_inj.mp hk
      next => exact List.mem_append_left _ (h k st' hst'' hs)
    · rw [heq]
      intro k st' hst' hs
      exact h k st' ((hsame k.number).symm.trans hst') hs
  | @deliver b bridge claimed w alive hb hc hok =>
    cases hst : (s.setBridge b claimed).strand? bridge.strand with
    | none =>
      rw [wake_none hst]
      exact h
    | some st =>
      obtain ⟨counters, journal, channel, heq⟩ :=
        wake_eq (s := s.setBridge b claimed) alive hst
      rw [heq]
      refine Queued.of_row (s := s) h rfl (fun st' hst' hs => ?_) fun k hk _ => ?_
      · rw [Option.some.inj (hst'.symm.trans hst)] at hs
        cases hold : st.status with
        | runnable => exact h _ st hst hold
        | blocked => exact List.mem_append_right _ List.mem_cons_self
        | _ => simp [Strand.woken, hold, Status.wake] at hs
      · dsimp only
        split
        · exact List.mem_append_left _ hk
        · exact hk
  | @strike b bridge claimed w gone hb hc hok =>
    unfold Scheduler.strike
    split
    · exact h
    next st hst =>
      split
      · exact h
      · obtain ⟨counters, journal, channel, heq⟩ := cut_eq hst
        rw [heq]
        exact Queued.of_row (s := s) h rfl (fun _ _ hs => by cases hs) fun _ hk _ => hk
  | @retire id kept gone hend =>
    exact h.of_row rfl (fun st hst hs => h id st hst hs) fun _ hk _ => hk

theorem Changes.queued (h : Queued s) (hd : Changes Ok s s') : Queued s' :=
  hd.preserves (fun _ _ h ht => ht.queued h) h

end Scheduler
end CoopSched
