import CoopSched.Proofs.Children.Ledger
import CoopSched.Proofs.Scheduler.Turns

/-!
# Calm — what does not concern a family

Only a few moves concern the children of a strand: it spawns one, it waits for them, one of them
finishes, or it finishes itself. Everything else leaves its group, its children and the bridge that
it waits on alone (`Calm`), whatever is set off (`guards_steadfast`).

That depends on who completes which bridge. The bridges on which strands wait for their children are
*sealed*: no callback of a job completes one (`Spared`), and no move does by itself (`Spares`).
-/

namespace CoopSched

variable {V B : Type}

/-- What ties a strand to its family. -/
def Strand.ties (st : Strand V B) : Group V × Option StrandId × Bool :=
  (st.children, st.parent, st.status.isTerminal)

namespace Scheduler

variable {sealed : BridgeId → Prop} {Ok : BridgeId → Wakeup V → Prop} {drained : Bool}
  {s₀ s s₁ s' : Scheduler V B} {m : Move V B} {p k id : StrandId} {st : Strand V B}

/-- Nothing has happened to the family of a strand, nor to a sealed bridge that it waits on. -/
structure Calm (sealed : BridgeId → Prop) (p : StrandId) (s s' : Scheduler V B) : Prop where
  household : s'.household p = s.household p
  kids : ∀ k, s'.kid? p k = s.kid? p k
  bridges : ∀ b, sealed b → s.bridge? b = some ⟨p, .pending⟩ → s'.bridge? b = some ⟨p, .pending⟩

theorem Calm.refl (s : Scheduler V B) : Calm sealed p s s :=
  ⟨rfl, fun _ => rfl, fun _ _ hb => hb⟩

theorem Calm.trans (h : Calm sealed p s s₁) (h' : Calm sealed p s₁ s') : Calm sealed p s s' where
  household := h'.household.trans h.household
  kids := fun k => (h'.kids k).trans (h.kids k)
  bridges := fun b hb hpending => h'.bridges b hb (h.bridges b hb hpending)

/-! ## Rows -/

theorem household_congr (h : (s'.strand? p).map Strand.ties = (s.strand? p).map Strand.ties) :
    s'.household p = s.household p := by
  have hread : ∀ s : Scheduler V B, s.household p =
      ((s.strand? p).map Strand.ties).elim ({}, false) fun t => (t.1, t.2.2) := by
    intro s
    unfold household
    cases s.strand? p <;> rfl
  rw [hread, hread, h]

theorem kid?_congr (h : (s'.strand? k).map Strand.ties = (s.strand? k).map Strand.ties) :
    s'.kid? p k = s.kid? p k := by
  have hread : ∀ s : Scheduler V B, s.kid? p k =
      ((s.strand? k).map Strand.ties).bind fun t =>
        if t.2.1 = some p then some t.2.2 else none := by
    intro s
    unfold kid?
    cases s.strand? k <;> rfl
  rw [hread, hread, h]

theorem Calm.of_rows (h : ∀ k, (s'.strand? k).map Strand.ties = (s.strand? k).map Strand.ties)
    (hbridges : ∀ b, sealed b → s.bridge? b = some ⟨p, .pending⟩ →
      s'.bridge? b = some ⟨p, .pending⟩) : Calm sealed p s s' :=
  ⟨household_congr (h p), fun k => kid?_congr (h k), hbridges⟩

/-- A strand changes, and not in what ties it to its family. -/
theorem ties_of_update {f : Strand V B → Strand V B}
    (hstrands : s'.strands = s.strands.update id.number f)
    (hf : ∀ st, s.strand? id = some st → (f st).ties = st.ties) (k : StrandId) :
    (s'.strand? k).map Strand.ties = (s.strand? k).map Strand.ties := by
  rw [strand?_of_update hstrands]
  split
  next hk =>
    subst hk
    cases hst : s.strand? id with
    | none => rfl
    | some st => exact congrArg some (hf st hst)
  next => rfl

theorem Calm.of_row {f : Strand V B → Strand V B}
    (hstrands : s'.strands = s.strands.update id.number f)
    (hf : ∀ st, s.strand? id = some st → (f st).ties = st.ties)
    (hbridges : s'.bridges = s.bridges) : Calm sealed p s s' :=
  .of_rows (ties_of_update hstrands hf) fun b _ hb => by rwa [bridge?, hbridges]

theorem Calm.of_same (hstrands : s'.strands = s.strands) (hbridges : s'.bridges = s.bridges) :
    Calm sealed p s s' :=
  .of_rows (fun k => by rw [strand?, strand?, hstrands]) fun b _ hb => by rwa [bridge?, hbridges]

/-- A spawn adds one row, or none. -/
theorem spawn_rows (s : Scheduler V B) (r : SpawnRequest B) :
    (s.spawn r).1.bridges = s.bridges ∧ (s.spawn r).1.jobs = s.jobs ∧
      (((s.spawn r).2 = .ok ⟨s.strands.next⟩ ∧ ∀ k, (s.spawn r).1.strand? k =
          if k = ⟨s.strands.next⟩ then some (Strand.create r.body r.name r.parent r.hook)
          else s.strand? k) ∨
        (∃ e, (s.spawn r).2 = .error e) ∧ ∀ k, (s.spawn r).1.strand? k = s.strand? k) := by
  rcases spawn_cases s r with ⟨-, counters, journal, channel, heq⟩ |
    ⟨strands, counters, journal, channel, cause, heq, hget, -⟩
  · rw [heq]
    refine ⟨rfl, rfl, Or.inl ⟨rfl, fun k => ?_⟩⟩
    show (s.strands.add _).get? k.number = _
    rw [Table.get?_add]
    by_cases hk : k = ⟨s.strands.next⟩
    · rw [if_pos hk, if_pos (StrandId.number_inj.mpr hk)]
    · rw [if_neg hk, if_neg fun hn => hk (StrandId.number_inj.mp hn)]
      rfl
  · rw [heq]
    exact ⟨rfl, rfl, Or.inr ⟨⟨cause, rfl⟩, fun k => hget k.number⟩⟩

/-- A new strand without a parent is in nobody's family. -/
theorem Calm.spawn (s : Scheduler V B) (r : SpawnRequest B) (hr : r.parent = none) :
    Calm sealed p s (s.spawn r).1 := by
  obtain ⟨hbridges, -, ⟨-, hrows⟩ | ⟨-, hrows⟩⟩ := spawn_rows s r
  · refine ⟨?_, fun k => ?_, fun b _ hb => by rwa [bridge?, hbridges]⟩
    · by_cases hp : p = ⟨s.strands.next⟩
      · rw [household_eq ((hrows p).trans (if_pos hp)), household_none (hp ▸ strand?_next s)]
        rfl
      · exact household_congr (congrArg _ ((hrows p).trans (if_neg hp)))
    · by_cases hk : k = ⟨s.strands.next⟩
      · have hnone : s.kid? p k = none := kid?_none (hk ▸ strand?_next s)
        rw [hnone, kid?_eq ((hrows k).trans (if_pos hk)), if_neg (by simp [Strand.create, hr])]
      · exact kid?_congr (congrArg _ ((hrows k).trans (if_neg hk)))
  · exact .of_rows (fun k => congrArg _ (hrows k)) fun b _ hb => by rwa [bridge?, hbridges]

theorem Calm.wake (alive : s.terminated = false) (id : StrandId) :
    Calm sealed p s (s.wake id) := by
  obtain ⟨queue, counters, journal, channel, heq⟩ := wake_row alive id
  refine .of_row (f := Strand.woken) (by rw [heq]) (fun st _ => ?_) (by rw [heq])
  exact congrArg (fun ended => (st.children, st.parent, ended)) st.woken_terminal

theorem Calm.retire (s : Scheduler V B) (id : StrandId) (kept : Option (Outcome V)) :
    Calm sealed p s (s.retire id kept) :=
  .of_row (f := (·.publish kept)) rfl (fun _ _ => rfl) rfl

/-- A bridge changes that is not sealed, or that another strand waits on. -/
theorem Calm.setBridge {b : BridgeId} (x : Bridge V)
    (hb : sealed b → s.bridge? b ≠ some ⟨p, .pending⟩) : Calm sealed p s (s.setBridge b x) := by
  refine .of_rows (fun _ => rfl) fun b' hb' hpending => ?_
  rw [bridge?_setBridge, if_neg]
  · exact hpending
  · rintro rfl
    exact hb hb' hpending

/-! ## What is set off -/

/-- No job completes a sealed bridge. -/
def Spared (sealed : BridgeId → Prop) (s : Scheduler V B) : Prop :=
  ∀ j entry, s.job? j = some entry →
    ∀ answer b w, .complete b w ∈ entry.callback answer → ¬ sealed b

theorem Spared.of_jobs (h : Spared sealed s) (hjobs : s'.jobs = s.jobs) : Spared sealed s' :=
  fun j entry hj => h j entry (by rwa [job?, ← hjobs])

/-- Since `s` nothing has happened to the family of a strand, unless somebody was cancelled. -/
structure Steadfast (sealed : BridgeId → Prop) (p : StrandId) (s s' : Scheduler V B) : Prop where
  spared : Spared sealed s'
  calm : Cancelled s' ∨ Calm sealed p s s'

theorem Spared.steadfast (h : Spared sealed s) : Steadfast sealed p s s := ⟨h, Or.inr (.refl s)⟩

theorem Steadfast.step (h : Steadfast sealed p s₀ s) (hcalm : Calm sealed p s s')
    (hjobs : s'.jobs = s.jobs) (hhushed : Hushed s s') : Steadfast sealed p s₀ s' where
  spared := h.spared.of_jobs hjobs
  calm := h.calm.imp (·.hushed hhushed) (·.trans hcalm)

theorem Steadfast.spawn (h : Steadfast sealed p s₀ s) (r : SpawnRequest B) (hr : r.parent = none) :
    Steadfast sealed p s₀ (s.spawn r).1 where
  spared := h.spared.of_jobs (spawn_rows s r).2.1
  calm := h.calm.imp (·.spawn r) (·.trans (.spawn s r hr))

/-- **Nothing that is set off concerns a family**, as long as no sealed bridge is completed. -/
theorem guards_steadfast :
    Guards (fun _ => False) (fun b => ¬ sealed b) (Steadfast sealed p (s₀ : Scheduler V B)) where
  change := by
    intro s s' hb h
    cases hb with
    | setBridge hfree x =>
      exact h.step (.setBridge x fun hb => absurd hb hfree) rfl (.of_journal rfl)
    | wake alive id =>
      obtain ⟨queue, counters, journal, channel, heq⟩ := wake_row alive id
      exact h.step (.wake alive id) (by rw [heq]) (hushed_wake alive id)
    | answered hj hentry answer =>
      exact ⟨h.spared, h.calm.imp (·.tells (.push rfl)) (·.trans (.of_same rfl rfl))⟩
    | @job j hj f hf =>
      refine ⟨fun i entry hi => ?_, h.calm.imp id (·.trans (.of_same rfl rfl))⟩
      rw [job?_updateJob] at hi
      split at hi
      · obtain ⟨old, hold, rfl⟩ := Option.map_eq_some_iff.mp hi
        rw [hf]
        exact h.spared i old hold
      · exact h.spared i entry hi
    | addJob entry hj hok =>
      refine ⟨fun i entry' hi => ?_, h.calm.imp id (·.trans (.of_same rfl rfl))⟩
      have hread : (s.jobs.add entry).get? i.number = some entry' := hi
      rw [Table.get?_add] at hread
      split at hread
      · rw [← Option.some.inj hread]
        exact hok
      · exact h.spared i entry' hread
    | launch body hook hj hentry => exact h.spawn _ rfl
    | @cut id st hst hend hhook hover =>
      refine ⟨h.spared.of_jobs ?_, Or.inl (cancelled_cut s id st.bridge)⟩
      obtain ⟨counters, journal, channel, heq⟩ := cut_eq hst
      rw [heq]
    | retire id kept => exact h.step (.retire s id kept) rfl (.of_journal rfl)
  callbacks := fun h hj hmem => h.spared _ _ hj _ _ _ hmem
  cut_off := fun _ _ _ _ hwatched => hwatched.elim

/-! ## Moves -/

/-- Nobody completes a sealed bridge by a move, or obtains one but for children. -/
structure Spares (sealed : BridgeId → Prop) (s : Scheduler V B) (m : Move V B) : Prop where
  targets : ∀ b w, m.Targets b w → ¬ sealed b
  timers : ∀ t timer, s.timer? t = some timer → ¬ sealed timer.bridge
  issued : ∀ id o b, s.issued m = some (id, o, b) → o ≠ .children → ¬ sealed b

theorem Steadfast.still (h : Steadfast sealed p s₀ s) (hstrands : s'.strands = s.strands)
    (hbridges : s'.bridges = s.bridges) (hjobs : s'.jobs = s.jobs)
    (hjournal : s'.journal = s.journal) : Steadfast sealed p s₀ s' :=
  h.step (.of_same hstrands hbridges) hjobs (.of_journal hjournal)

theorem Steadfast.report (h : Steadfast sealed p s₀ s) (id : StrandId) (outcome : Outcome V) :
    Steadfast sealed p s₀ (s.reportUnhandled id outcome) := by
  have hhushed := hushed_reportUnhandled s id outcome
  obtain ⟨journal, channel, heq⟩ := s.reportUnhandled_eq id outcome
  rw [heq] at hhushed ⊢
  exact h.step (.of_same rfl rfl) rfl hhushed

/-- A strand that runs may change as long as its family can not tell. -/
theorem Steadfast.row (h : Steadfast sealed p s₀ s) {f : Strand V B → Strand V B}
    (hst : s.strand? id = some st) (hties : (f st).ties = st.ties)
    (hstrands : s'.strands = s.strands.update id.number f) (hbridges : s'.bridges = s.bridges)
    (hjobs : s'.jobs = s.jobs) (hhushed : Hushed s s') : Steadfast sealed p s₀ s' := by
  refine h.step (.of_row hstrands (fun st' hst' => ?_) hbridges) hjobs hhushed
  rw [← Option.some.inj (hst.symm.trans hst')]
  exact hties

theorem ties_of_running {st' : Strand V B} (hrun : st.status.isRunning = true)
    (hchildren : st'.children = st.children) (hparent : st'.parent = st.parent)
    (hend : st'.status.isTerminal = false) : st'.ties = st.ties := by
  rw [Strand.ties, Strand.ties, hchildren, hparent, hend, Status.not_terminal_of_running hrun]

theorem Steadfast.keepBody (h : Steadfast sealed p s₀ s) (hst : s.strand? id = some st) (body : B) :
    Steadfast sealed p s₀ (s.keepBody id body) :=
  h.row (f := fun st => { st with body := some body }) hst rfl rfl rfl rfl (.of_journal rfl)

theorem Steadfast.block (h : Steadfast sealed p s₀ s) (hst : s.strand? id = some st)
    (hrun : st.status.isRunning = true) : Steadfast sealed p s₀ (s.block id) := by
  obtain ⟨mark, hs⟩ := Status.exists_of_running hrun
  obtain ⟨counters, journal, channel, heq⟩ := block_running hst hs
  refine h.row (f := Strand.parked mark) hst (ties_of_running hrun rfl rfl ?_) (by rw [heq])
    (by rw [heq]) (by rw [heq]) (hushed_block s id)
  cases mark <;> rfl

theorem Steadfast.requeue (h : Steadfast sealed p s₀ s) (hst : s.strand? id = some st)
    (hrun : st.status.isRunning = true) : Steadfast sealed p s₀ (s.requeue id) := by
  obtain ⟨mark, hs⟩ := Status.exists_of_running hrun
  rw [requeue_running hst hs]
  exact h.row (f := Strand.requeued) hst (ties_of_running hrun rfl rfl rfl) rfl rfl rfl
    (.of_journal rfl)

theorem Steadfast.issue (h : Steadfast sealed p s₀ s) (id : StrandId) :
    Steadfast sealed p s₀ (s.issueBridge id).1 := by
  refine h.step (.of_rows ?_ fun b _ hb => ?_) rfl (.of_journal rfl)
  · exact ties_of_update (f := fun st => { st with bridge := some ⟨s.bridges.next⟩ }) rfl
      fun _ _ => rfl
  · rw [issueBridge_bridge?, if_neg]
    · exact hb
    · rintro rfl
      rw [bridge?_next] at hb
      cases hb

theorem Steadfast.dispatch (h : Steadfast sealed p s₀ s) (hp : Placed s.held s) :
    Steadfast sealed p s₀ s.dispatch.1 := by
  have hhushed := hushed_dispatch hp
  have hd := hp.dispatched
  generalize s.dispatch.1 = s' at hd hhushed
  generalize s.dispatch.2 = seg at hd
  have hties : ∀ {st : Strand V B} (resumed : Bool), st.status = .runnable →
      (st.begun resumed).ties = st.ties := by
    intro st resumed hs
    rw [Strand.ties, Strand.ties, hs]
    rfl
  cases hd with
  | idle _ => exact h
  | plain counters journal channel _ _ hst hs _ _ =>
    exact h.row (f := Strand.begun false) hst (hties _ hs) rfl rfl rfl hhushed
  | @resumed id _ st _ b w counters journal channel _ _ hst hs _ hb _ =>
    refine h.step (.of_rows (ties_of_update (f := Strand.begun true) rfl fun st' hst' => ?_)
      fun b' _ hpending => ?_) rfl hhushed
    · rw [← Option.some.inj (hst.symm.trans hst')]
      exact hties _ hs
    · -- What is pending holds nothing that a strand could be resumed by.
      rw [bridge?_of_update (s := s) rfl, if_neg]
      · exact hpending
      · rintro rfl
        rw [hb] at hpending
        cases hpending

theorem Steadfast.join (h : Steadfast sealed p s₀ s) (id : StrandId) :
    Steadfast sealed p s₀ (((s.join id).map (·.1)).getD s) := by
  rcases join_cases s id with heq | ⟨outcome, heq⟩ <;> rw [heq]
  · exact h
  · exact h.step (.of_row (f := fun st => { st with outcome := outcome }) rfl (fun _ _ => rfl) rfl)
      rfl (.of_journal rfl)

theorem Steadfast.expireTimer (h : Steadfast sealed p s₀ s) (t : TimerId)
    (ht : ∀ timer, s.timer? t = some timer → ¬ sealed timer.bridge) :
    Steadfast sealed p s₀ (s.expireTimer t) := by
  unfold Scheduler.expireTimer
  split
  · exact h
  next timer htimer =>
    have hexpired : Steadfast sealed p s₀
        { s with timers := s.timers.update t.number fun _ => timer.expire.1 } :=
      h.still rfl rfl rfl rfl
    dsimp only
    split
    · exact hexpired
    · exact guards_steadfast.tryComplete hexpired (ht timer htimer) _

theorem Steadfast.invokeParked (h : Steadfast sealed p s₀ s) {inputs : List V}
    {callable : Nat → V → Except Panic B} {concurrency : Concurrency}
    (hissued : ∀ o b, s.issued (.invokeParked id inputs callable concurrency) = some (id, o, b) →
      o ≠ .children → ¬ sealed b) :
    Steadfast sealed p s₀ (s.invokeParked id inputs callable concurrency).1 := by
  rcases invokeParked_cases s id inputs callable concurrency with
    ⟨-, heq⟩ | ⟨st, hst, hrun, hslot, hpark, heq⟩
  · rw [heq]
    exact h
  · have hfree := hissued .invocation ⟨s.bridges.next⟩ (by simp only [issued, hpark]) (by decide)
    rw [heq]
    refine guards_steadfast.drive (h.issue id) (fun hf => hf) inputs callable concurrency ?_
    intro answer b w hmem
    obtain ⟨rfl, -⟩ := Effect.complete.inj (List.mem_singleton.mp hmem)
    exact hfree

/-- The end of a segment obtains a bridge only to wait for children. -/
theorem origin_of_end {body : B} {step : Step V} {o : Origin} {b : BridgeId}
    (hi : s.issued (.endSegment id body step) = some (k, o, b)) : o = .children := by
  cases step with
  | await mode =>
    simp only [issued] at hi
    split at hi
    · cases hi
    · exact (Prod.mk.inj (Prod.mk.inj (Option.some.inj hi)).2).1.symm
  | _ => cases hi

/-- A bridge is obtained for children at the end of a segment, by a wait. -/
theorem await_of_issued {b : BridgeId}
    (h : s.issued m = some (k, .children, b)) :
    ∃ body mode, m = .endSegment k body (.await mode) := by
  cases m with
  | endSegment id body step =>
    cases step with
    | await mode =>
      simp only [issued] at h
      split at h
      · cases h
      · obtain ⟨rfl, -⟩ := Prod.mk.inj (Option.some.inj h)
        exact ⟨body, mode, rfl⟩
    | _ => cases h
  | park id =>
    simp only [issued] at h
    split at h <;> cases h
  | invokeParked id inputs callable concurrency =>
    simp only [issued] at h
    split at h <;> cases h
  | _ => cases h

theorem awaits_iff {mode : WaitMode} {b : BridgeId} : s.awaits p m = some (mode, b) ↔
    s.issued m = some (p, .children, b) ∧ ∃ body, m = .endSegment p body (.await mode) := by
  constructor
  · intro h
    unfold awaits at h
    split at h
    next id body mode' k o b' hi =>
      split at h
      next hk =>
        subst hk
        obtain ⟨rfl, rfl⟩ := Prod.mk.inj (Option.some.inj h)
        obtain rfl := origin_of_end hi
        obtain ⟨body', mode'', heq⟩ := await_of_issued hi
        injection heq with h₁ h₂ h₃
        subst h₁
        exact ⟨hi, body, rfl⟩
      next => cases h
    next => cases h
  · rintro ⟨hi, body, rfl⟩
    unfold awaits
    rw [hi]
    exact if_pos rfl

theorem exists_awaits {b : BridgeId} (h : s.issued m = some (p, .children, b)) :
    ∃ mode, s.awaits p m = some (mode, b) := by
  obtain ⟨body, mode, hm⟩ := await_of_issued h
  exact ⟨mode, awaits_iff.mpr ⟨h, body, hm⟩⟩

/-- A segment ends in which the strand neither finishes nor waits for children. -/
theorem Steadfast.endSegment (h : Steadfast sealed p s₀ s) (hst : s.strand? id = some st)
    (hrun : st.status.isRunning = true) {body : B} {step : Step V}
    (hfin : s.finishes (.endSegment id body step) = none)
    (hawait : s.issued (.endSegment id body step) = none) :
    Steadfast sealed p s₀ (s.endSegment id body step) := by
  unfold Scheduler.endSegment
  split
  next hcut =>
    rw [Bool.and_eq_true] at hcut
    have hcancel := guards_steadfast.cancel s id shutDownReason h
      (by rw [isShutDown, hcut.1, Bool.true_or]) rfl
    exact hcancel.still rfl rfl rfl rfl
  next hnot =>
    refine Steadfast.still (s := s.follow id body step) ?_ rfl rfl rfl rfl
    rw [finishes, if_neg hnot, Option.map_eq_none_iff] at hfin
    have hkeep := h.keepBody hst body
    have hrow := (keepBody_strand? hst body id).trans (if_pos rfl)
    unfold Scheduler.follow
    rw [hst, Option.bind_some] at hfin ⊢
    cases hslot : st.bridge with
    | none =>
      rw [hslot] at hfin
      cases step with
      | yield => exact hkeep.requeue hrow hrun
      | await mode =>
        -- The wait is a legal one, so there is a bridge for it.
        have hcancelling : s.isCancelling = false := by simpa [Step.isDone] using hnot
        rw [issued_await hst hslot hcancelling] at hawait
        cases hawait
      | _ => cases hfin
    | some b =>
      rw [hslot] at hfin
      cases step with
      | yield => exact hkeep.block hrow hrun
      | park => exact hkeep.block hrow hrun
      | _ => cases hfin

/-- **Moves in which nobody spawns a child, waits for children or finishes are calm ones.** -/
theorem Stable.steadfast (hs : Stable Ok drained s) (ha : s.Allows m) (hspared : Spared sealed s)
    (hspares : Spares sealed s m) (hspawn : ∀ id body, m ≠ .spawnChild id body)
    (hfin : s.finishes m = none) (hawait : ∀ id b, s.issued m ≠ some (id, .children, b)) :
    Steadfast sealed p s (s.after m) := by
  have h : Steadfast sealed p s s := hspared.steadfast
  have g : Guards (fun _ => False) (fun b => ¬ sealed b) (Steadfast sealed p s) := guards_steadfast
  cases m with
  | spawn body name => exact h.spawn _ rfl
  | park id =>
    show Steadfast sealed p s (s.park id).1
    rcases park_cases s id with ⟨e, heq⟩ | ⟨st, hst, hrun, hslot, heq⟩ <;> rw [heq]
    · exact h
    · exact h.issue id
  | complete b r => exact g.deliver h (hspares.targets b _ ⟨rfl, rfl⟩) _
  | tryComplete b r => exact g.tryComplete h (hspares.targets b _ ⟨rfl, rfl⟩) r
  | deliver b payload => exact g.deliver h (hspares.targets b _ ⟨rfl, rfl⟩) payload
  | invoke inputs callable concurrency callback =>
    exact g.invoke h (fun hf => hf) inputs callable concurrency
      fun answer b w hmem => hspares.targets b w ⟨answer, hmem⟩
  | createJob length callback =>
    exact g.addJob h (fun hf => hf) length none
      fun answer b w hmem => hspares.targets b w ⟨answer, hmem⟩
  | submit j index r => exact g.submitWith g.cancel h (fun hf => hf) index r
  | claim j => exact g.claim h fun hf => hf
  | armTimer b d now =>
    obtain ⟨timers, heq⟩ := after_armTimer s b d now
    rw [heq]
    exact h.still rfl rfl rfl rfl
  | disarmTimer t => exact h.still rfl rfl rfl rfl
  | detachTimer t => exact h.still rfl rfl rfl rfl
  | pollTimer t =>
    obtain ⟨timers, heq⟩ := after_pollTimer s t
    rw [heq]
    exact h.still rfl rfl rfl rfl
  | expireTimer t => exact h.expireTimer t fun timer ht => hspares.timers t timer ht
  | join id => exact h.join id
  | drainChannel =>
    show Steadfast sealed p s ((s.drainChannel.map (·.1)).getD s)
    unfold Scheduler.drainChannel
    cases s.channel with
    | none => exact h
    | some c => exact h.still rfl rfl rfl rfl
  | spawnDetached id body => exact h.spawn _ rfl
  | spawnChild id body => exact absurd rfl (hspawn id body)
  | invokeParked id inputs callable concurrency =>
    exact h.invokeParked fun o b hi => hspares.issued id o b hi
  | dispatch => exact h.dispatch hs.placed
  | endSegment id body step =>
    obtain ⟨st, hst, hrun⟩ := (hs.placed.busy_iff id).mp ha
    refine h.endSegment hst hrun hfin ?_
    cases hi : s.issued (.endSegment id body step) with
    | none => rfl
    | some x =>
      obtain ⟨k, o, b⟩ := x
      obtain rfl := origin_of_end hi
      exact absurd hi (hawait k b)
  | beginShutdown mode =>
    show Steadfast sealed p s ((s.beginShutdown mode).getD s)
    unfold Scheduler.beginShutdown
    cases s.phase.enter? mode.phase with
    | none => exact h
    | some phase => exact h.still rfl rfl rfl rfl
  | closeQueue => exact h.still rfl rfl rfl rfl
  | terminate => exact h.still rfl rfl rfl rfl
  | drain => exact h.still rfl rfl rfl rfl
  | cancel id =>
    refine g.cancel s id s.cleanUpReason h ?_ ?_
    · rw [isShutDown, ha.1, Bool.or_true]
    · unfold cleanUpReason
      split <;> rfl

end Scheduler
end CoopSched
