import CoopSched.Proofs.Scheduler.Takings

/-!
# Entries — how often a bridge puts its strand into the queue

A strand that comes into the queue with a bridge in its slot comes on behalf of that bridge. Either
the completer puts it there, if it is blocked, or the end of its segment does, if it was completed
before. `Owes` says that one of the two may still come. An entry pays what is owed, and whoever owes
nothing never will again, so there is one entry at most (`entries_le_one`).
-/

namespace CoopSched
namespace Scheduler

variable {V B : Type} {Ok : BridgeId → Wakeup V → Prop} {drained : Bool} {n : Nat}
  {s s₁ s' : Scheduler V B} {m : Move V B} {ms rest : List (Move V B)} {k : StrandId}
  {st st' : Strand V B} {b : BridgeId} {x : Bridge V} {w : Wakeup V}

/-- How often a strand comes into the queue on behalf of a bridge, between two states. -/
def enters (s s' : Scheduler V B) (k : StrandId) (b : BridgeId) : Nat :=
  if (s'.strand? k).bind (·.bridge) = some b then
    s'.queue.waiting.count k - s.queue.waiting.count k
  else 0

/-- How often it does so in the course of a run. -/
def entries (s : Scheduler V B) (k : StrandId) (b : BridgeId) : List (Move V B) → Nat
  | [] => 0
  | m :: ms => enters s (s.after m) k b + entries (s.after m) k b ms

theorem entries_append : entries s k b (ms ++ rest) =
    entries s k b ms + entries (s.run ms) k b rest := by
  induction ms generalizing s with
  | nil => simp [entries]
  | cons m ms ih =>
    rw [List.cons_append, entries, entries, ih, Nat.add_assoc]
    rfl

/-- A strand that has come into the queue for a bridge is ready, and a payload lies in the
    bridge. -/
theorem entered {busy : List StrandId} (hp : Placed busy s') (he : enters s s' k b ≠ 0) :
    enters s s' k b = 1 ∧ k ∉ s.queue.waiting ∧ ∃ st w, s'.strand? k = some st ∧
      st.status = .runnable ∧ st.bridge = some b ∧ s'.bridge? b = some ⟨k, .holding w⟩ := by
  unfold enters at he ⊢
  split at he
  next hslot =>
    rw [if_pos hslot]
    have hone := List.nodup_iff_count_le_one.mp hp.waiting_nodup k
    have hnot : s.queue.waiting.count k = 0 := by omega
    have hmem : k ∈ s'.queue.waiting := List.count_pos_iff.mp (by omega)
    obtain ⟨st, hst, hs⟩ := hp.waiting_runnable k hmem
    rw [hst, Option.bind_some] at hslot
    obtain ⟨w, hb⟩ := (hp.slot k st hst).holding hslot (Or.inl hs)
    refine ⟨by omega, List.count_eq_zero.mp hnot, st, w, hst, hs, hslot, hb⟩
  next => exact absurd rfl he

/-! ## When the workers are gone -/

/-- A strand that is on no worker stays where it is when the workers are gone, or is cancelled. -/
theorem Apart.gone (h : Apart Ok s m s') (gone : s.terminated = true)
    (hst : s.strand? k = some st) (hrun : st.status.isRunning = false) :
    ∃ st', s'.strand? k = some st' ∧ Gone st st' := by
  obtain ⟨s₁, s₂, hturn, hd, htail⟩ := h
  have hmid : ∃ st₁, s₁.strand? k = some st₁ ∧ Gone st st₁ := by
    rcases hturn.moved hst with hsame | ⟨st₁, hst₁, hbusy | ⟨-, alive⟩ | ⟨-, hdone⟩⟩
    · exact ⟨st, hsame, .refl st⟩
    · exact absurd (hrun.symm.trans hbusy) (by decide)
    · exact absurd (alive.symm.trans gone) (by decide)
    · exact ⟨st₁, hst₁, Or.inr hdone⟩
  obtain ⟨st₁, hst₁, hwas⟩ := hmid
  obtain ⟨st₂, hst₂, hnow⟩ := hd.gone (hturn.terminated.trans gone) hst₁
  obtain ⟨st', hst', hface⟩ := htail.row hst₂
  simp only [Strand.face, Prod.mk.injEq] at hface
  exact ⟨st', hst', (hwas.trans hnow).trans (Or.inl ⟨hface.1, hface.2.1⟩)⟩

/-! ## One entry at most -/

/-- May the strand still come into the queue for the bridge? As long as nobody has claimed it, and
    from then on if the strand is in the middle of the segment that obtained it. -/
def Owes (s : Scheduler V B) (k : StrandId) (b : BridgeId) : Prop :=
  s.terminated = false ∧ ∀ x, s.bridge? b = some x → x.stage = .pending ∨
    ∃ w st, x.stage = .holding w ∧ s.strand? k = some st ∧ st.status.isRunning = true ∧
      st.bridge = some b

theorem entered_pays {busy : List StrandId} (hp : Placed busy s') (he : enters s s' k b ≠ 0) :
    ¬ Owes s' k b := by
  obtain ⟨-, -, st, w, hst, hs, -, hb⟩ := entered hp he
  rintro ⟨-, howes⟩
  rcases howes _ hb with hpending | ⟨w', st', -, hst', hrun, -⟩
  · cases hpending
  · rw [← Option.some.inj (hst.symm.trans hst'), hs] at hrun
    cases hrun

/-- A bridge gets into the slot of a strand only with the move that obtains it. -/
theorem Turn.slot (h : Turn s m s₁) (hst : s₁.strand? k = some st')
    (hslot : st'.bridge = some b) : ∃ st, s.strand? k = some st ∧
      ((st.bridge = some b ∧ (st'.status.isRunning = true → st.status.isRunning = true)) ∨
        (b = ⟨s.bridges.next⟩ ∧ st.status.isRunning = true)) := by
  have hmine : ∀ {id : StrandId} {old new : Strand V B}, Own s s₁ id old new →
      (new.bridge = some b →
        (old.bridge = some b ∧ (new.status.isRunning = true → old.status.isRunning = true)) ∨
          (b = ⟨s.bridges.next⟩ ∧ old.status.isRunning = true)) →
      ∃ st, s.strand? k = some st ∧
        ((st.bridge = some b ∧ (st'.status.isRunning = true → st.status.isRunning = true)) ∨
          (b = ⟨s.bridges.next⟩ ∧ st.status.isRunning = true)) := by
    intro id old new hown hnew
    have hrow := hown.rows k
    rw [hst] at hrow
    split at hrow
    next hid =>
      obtain rfl := hid
      obtain rfl := Option.some.inj hrow
      exact ⟨old, hown.row, hnew hslot⟩
    next => exact ⟨st', hrow.symm, Or.inl ⟨hslot, fun h => h⟩⟩
  cases h with
  | quiet _ _ _ hstill =>
    exact ⟨st', (hstill.strands k).symm.trans hst, Or.inl ⟨hslot, fun h => h⟩⟩
  | issue _ _ _ hrun _ hown =>
    exact hmine hown fun heq => Or.inr ⟨(Option.some.inj heq).symm, hrun⟩
  | begun _ _ hempty hown =>
    exact hmine hown fun heq => absurd (hempty.symm.trans heq) (by simp)
  | resumed _ _ _ _ hown => exact hmine hown fun heq => by cases heq
  | ended _ _ _ hown _ hempty =>
    exact hmine hown fun heq => absurd (hempty.symm.trans heq) (by simp)
  | requeued _ _ hown _ hempty =>
    exact hmine hown fun heq => absurd (hempty.symm.trans heq) (by simp)
  | parked _ hrun hold hown _ hnew =>
    exact hmine hown fun heq => Or.inl ⟨hold.trans (hnew.symm.trans heq), fun _ => hrun⟩
  | awaiting hrun _ _ hown _ hnew =>
    exact hmine hown fun heq => Or.inr ⟨(Option.some.inj (hnew.symm.trans heq)).symm, hrun⟩

theorem Apart.slot (h : Apart Ok s m s') (alive : s.terminated = false)
    (hst : s'.strand? k = some st') (hslot : st'.bridge = some b) :
    ∃ st, s.strand? k = some st ∧
      ((st.bridge = some b ∧ (st'.status.isRunning = true → st.status.isRunning = true)) ∨
        (b = ⟨s.bridges.next⟩ ∧ st.status.isRunning = true)) := by
  obtain ⟨s₁, hturn, hrows⟩ := h.rows alive
  cases hst₁ : s₁.strand? k with
  | none =>
    have hfresh := hrows.new k st' hst₁ hst
    rw [hfresh.bridge] at hslot
    cases hslot
  | some st₁ =>
    obtain ⟨last, hlast, hlater⟩ := hrows.old k st₁ hst₁
    obtain rfl := Option.some.inj (hlast.symm.trans hst)
    obtain ⟨st, hrow, ⟨hold, hrun⟩ | hnext⟩ := hturn.slot hst₁ (hlater.bridge.symm.trans hslot)
    · exact ⟨st, hrow, Or.inl ⟨hold, fun h => hrun (hlater.running.symm.trans h)⟩⟩
    · exact ⟨st, hrow, Or.inr hnext⟩

theorem Apart.old_slot (h : Apart Ok s m s') (alive : s.terminated = false)
    (hb : s.bridge? b = some x) (hst : s'.strand? k = some st') (hslot : st'.bridge = some b) :
    ∃ st, s.strand? k = some st ∧ st.bridge = some b ∧
      (st'.status.isRunning = true → st.status.isRunning = true) := by
  obtain ⟨st, hrow, ⟨hold, hrun⟩ | ⟨rfl, -⟩⟩ := h.slot alive hst hslot
  · exact ⟨st, hrow, hold, hrun⟩
  · rw [bridge?_next] at hb
    cases hb

/-- A payload that lies in the slot of a strand on no worker has put the strand into the queue. -/
theorem Placed.woken {busy : List StrandId} (h : Placed busy s) (hst : s.strand? k = some st)
    (hslot : st.bridge = some b) (hlies : s.lying b = some w)
    (hidle : st.status.isRunning = false) : st.status = .runnable := by
  obtain ⟨x, hb, hx⟩ := lying_eq_some.mp hlies
  have hfits := h.slot k st hst
  have hlive : st.status.isTerminal = false := by
    refine Bool.eq_false_of_not_eq_true fun hend => ?_
    rw [hfits.terminal hend] at hslot
    cases hslot
  cases hs : st.status with
  | runnable => rfl
  | blocked =>
    have hpending := hfits.unclaimed hslot (Or.inl hs)
    rw [← Option.some.inj (hpending.symm.trans hb)] at hx
    cases hx
  | running mark =>
    rw [hs] at hidle
    cases hidle
  | doneOk =>
    rw [hs] at hlive
    cases hlive
  | doneError =>
    rw [hs] at hlive
    cases hlive

theorem enters_ne_zero (h : enters s s' k b ≠ 0) : k ∈ s'.queue.waiting := by
  refine Classical.byContradiction fun hmem => h ?_
  unfold enters
  simp [List.count_eq_zero.mpr hmem]

/-- If nothing is owed the bridge is claimed, and its strand is not in the middle of the segment
    that obtained it. -/
theorem exists_of_not_owes (alive : s.terminated = false) (hno : ¬ Owes s k b) :
    ∃ x, s.bridge? b = some x ∧ x.stage ≠ .pending ∧ ∀ st w, s.strand? k = some st →
      st.bridge = some b → x.stage = .holding w → st.status.isRunning = false := by
  obtain ⟨x, hb, hx⟩ : ∃ x, s.bridge? b = some x ∧ ¬ (x.stage = .pending ∨
      ∃ w st, x.stage = .holding w ∧ s.strand? k = some st ∧ st.status.isRunning = true ∧
        st.bridge = some b) := by
    refine Classical.byContradiction fun hall => hno ⟨alive, fun x hb => ?_⟩
    exact Classical.byContradiction fun hx => hall ⟨x, hb, hx⟩
  refine ⟨x, hb, fun hp => hx (Or.inl hp), fun st w hst hslot hw => ?_⟩
  refine Bool.eq_false_of_not_eq_true fun hrun => ?_
  exact hx (Or.inr ⟨w, st, hw, hst, hrun, hslot⟩)

/-- Where nothing is owed nothing comes, and nothing is owed afterwards. -/
theorem Stable.owes_nothing (h : Stable (fun _ _ => True) drained s)
    (hq : s.terminated = false → Queued s) (ha : s.Allows m) (hno : ¬ Owes s k b) :
    enters s (s.after m) k b = 0 ∧ ¬ Owes (s.after m) k b := by
  have hr := respects_all s m
  have hmove := h.apart ha hr
  have hafter := h.after ha hr
  cases hterm : s.terminated with
  | true =>
    refine ⟨Classical.byContradiction fun he => ?_, fun howes => ?_⟩
    · obtain ⟨-, hnot, -⟩ := entered hafter.placed he
      exact hnot ((hmove.queueShrinks h hterm).waiting k (enters_ne_zero he))
    · exact absurd ((hmove.alive howes.1).symm.trans hterm) (by decide)
  | false =>
    obtain ⟨x, hb, hclaimed, hidle⟩ := exists_of_not_owes hterm hno
    obtain ⟨x', hb', hfate⟩ := hmove.fates.old b x hb
    refine ⟨Classical.byContradiction fun he => ?_, ?_⟩
    · obtain ⟨-, hnot, st', w, hst', -, hslot', hholding⟩ := entered hafter.placed he
      obtain rfl := Option.some.inj (hb'.symm.trans hholding)
      obtain ⟨st, hst, hslot, -⟩ := hmove.old_slot hterm hb hst' hslot'
      have hw := hfate.held hclaimed rfl
      have hlies : s.lying b = some w := lying_eq_some.mpr ⟨x, hb, hw⟩
      have hs := h.placed.woken hst hslot hlies (hidle st w hst hslot hw)
      exact hnot (hq hterm k st hst hs)
    · rintro ⟨-, howes⟩
      rcases howes x' hb' with hp | ⟨w, st', hw, hst', hrun, hslot'⟩
      · exact hclaimed (hfate.pending hp)
      · obtain ⟨st, hst, hslot, hback⟩ := hmove.old_slot hterm hb hst' hslot'
        rw [hidle st w hst hslot (hfate.held hclaimed hw)] at hback
        exact absurd (hback hrun) (by decide)

theorem Stable.undrained (h : Stable (fun _ _ => True) drained s) (ha : s.Allows m)
    (hd : s.terminated = false → drained = false) (alive : (s.after m).terminated = false) :
    (drained || m.isCleanUp) = false := by
  have before := (h.apart ha (respects_all s m)).alive alive
  rw [hd before, Bool.false_or]
  exact isCleanUp_of_alive ha before

theorem entries_zero (h : Stable (fun _ _ => True) drained s) (ha : s.Admissible ms)
    (hd : s.terminated = false → drained = false) (hno : ¬ Owes s k b) : entries s k b ms = 0 := by
  induction ms generalizing s drained with
  | nil => rfl
  | cons m ms ih =>
    obtain ⟨hm, hms⟩ := ha
    obtain ⟨hnone, hno'⟩ := h.owes_nothing (fun alive => h.queued (hd alive)) hm hno
    rw [entries, hnone, ih (h.after hm (respects_all s m)) hms (h.undrained hm hd) hno']

/-- **A bridge puts its strand into the queue once at most.** -/
theorem entries_le_one (h : Stable (fun _ _ => True) drained s) (ha : s.Admissible ms)
    (hd : s.terminated = false → drained = false) : entries s k b ms ≤ 1 := by
  -- On the moves up to the first entry, for that one pays what is owed.
  induction ms generalizing s drained with
  | nil => exact Nat.zero_le 1
  | cons m ms ih =>
    obtain ⟨hm, hms⟩ := ha
    have hafter := h.after hm (respects_all s m)
    have hd' := h.undrained hm hd
    rw [entries]
    by_cases he : enters s (s.after m) k b = 0
    · rw [he, Nat.zero_add]
      exact ih hafter hms hd'
    · rw [(entered hafter.placed he).1,
        entries_zero hafter hms hd' (entered_pays hafter.placed he)]

/-! ## When one comes -/

/-- Whoever is ready with a bridge in his slot, and was not before, has come into the queue. -/
theorem enters_of_runnable {busy busy' : List StrandId} (hp : Placed busy s)
    (hst : s.strand? k = some st) (hs : st.status ≠ .runnable) (hp' : Placed busy' s')
    (hq : Queued s') (hst' : s'.strand? k = some st') (hs' : st'.status = .runnable)
    (hslot : st'.bridge = some b) : enters s s' k b = 1 := by
  have hnot := hp.not_waiting hst hs
  have hone := List.count_eq_one_of_mem hp'.waiting_nodup (hq k st' hst' hs')
  unfold enters
  rw [hst', Option.bind_some, if_pos hslot, hone, List.count_eq_zero.mpr hnot]

/-- Nothing but a completer moves a strand that is blocked, as long as there are workers. -/
theorem Turn.blocked (h : Turn s m s₁) (alive : s.terminated = false)
    (hst : s.strand? k = some st) (hs : st.status = .blocked) : s₁.strand? k = some st := by
  rcases h.moved hst with hsame | ⟨st₁, -, hrun | ⟨hready, -⟩ | ⟨gone, -⟩⟩
  · exact hsame
  · exact absurd hs (Status.not_blocked_of_running hrun)
  · cases hs.symm.trans hready
  · exact absurd (alive.symm.trans gone) (by decide)

/-- The strand of a bridge that is claimed while it is blocked comes into the queue. If the workers
    are gone it is cancelled instead. -/
theorem Stable.enters_of_blocked (h : Stable (fun _ _ => True) drained s) (ha : s.Allows m)
    (hq : s.terminated = false → Queued (s.after m)) (hst : s.strand? k = some st)
    (hs : st.status = .blocked) (hslot : st.bridge = some b)
    (hlies : (s.after m).lying b = some w) :
    enters s (s.after m) k b = 1 ∨ s.terminated = true ∧
      ∃ st', (s.after m).strand? k = some st' ∧ st'.status = .doneError := by
  have hmove := h.apart ha (respects_all s m)
  have hafter := h.after ha (respects_all s m)
  cases hterm : s.terminated with
  | true =>
    right
    obtain ⟨st', hst', hsame | hdone⟩ := hmove.gone hterm hst (by rw [hs]; rfl)
    · have hblocked := hsame.1.trans hs
      have hready := hafter.placed.woken hst' (hsame.2.trans hslot) hlies (by rw [hblocked]; rfl)
      cases hblocked.symm.trans hready
    · exact ⟨rfl, st', hst', hdone⟩
  | false =>
    left
    -- No turn moves a blocked strand, so it is the claim that does.
    obtain ⟨s₁, hturn, hrows⟩ := hmove.rows hterm
    obtain ⟨st', hst', hlater⟩ := hrows.old k st (hturn.blocked hterm hst hs)
    have hslot' := hlater.bridge.trans hslot
    have hidle : st'.status.isRunning = false := by
      rw [hlater.running, hs]
      rfl
    exact enters_of_runnable h.placed hst (by rw [hs]; decide) hafter.placed (hq hterm) hst'
      (hafter.placed.woken hst' hslot' hlies hidle) hslot'

/-- The strand of a bridge that was claimed during its segment comes into the queue when it parks,
    and by a yield as well. -/
theorem Stable.enters_of_park {body : B} {step : Step V}
    (h : Stable (fun _ _ => True) drained s) (ha : s.Allows (.endSegment k body step))
    (hq : s.terminated = false → Queued (s.after (.endSegment k body step)))
    (hstep : step = .yield ∨ step = .park) (hcancelling : s.isCancelling = false)
    (hst : s.strand? k = some st) (hslot : st.bridge = some b) (hlies : s.lying b = some w) :
    enters s (s.after (.endSegment k body step)) k b = 1 := by
  have hafter := h.after ha (respects_all s _)
  have hrun := (h.placed.busy_iff_running hst).mp ha
  obtain ⟨mark, hs⟩ := Status.exists_of_running hrun
  have hend : s.after (.endSegment k body step) = ((s.keepBody k body).block k).release k := by
    show s.endSegment k body step = _
    unfold Scheduler.endSegment Scheduler.follow
    rw [hst, Option.bind_some, hslot, hcancelling]
    rcases hstep with rfl | rfl <;> rfl
  have hkeep := Own.keepBody hst body
  have hown := hkeep.trans (.block hkeep.self hs)
  obtain ⟨st', hst', hslot', hidle⟩ : ∃ st', (s.after (.endSegment k body step)).strand? k =
      some st' ∧ st'.bridge = some b ∧ st'.status.isRunning = false := by
    rw [hend]
    refine ⟨_, hown.self, hslot, ?_⟩
    cases mark <;> rfl
  have hlies' : (s.after (.endSegment k body step)).lying b = some w := by
    rw [hend, ← hlies]
    exact lying_congr (block_bridge? hkeep.self hs b)
  exact enters_of_runnable h.placed hst (Status.not_ready_of_running hrun) hafter.placed
    (hq (h.placed.alive hst hrun)) hst' (hafter.placed.woken hst' hslot' hlies' hidle) hslot'

end Scheduler
end CoopSched
