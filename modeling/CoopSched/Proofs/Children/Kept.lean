import CoopSched.Proofs.Children.FamilyChange
import CoopSched.Proofs.Scheduler.Tracks

/-!
# Kept — the scheduler keeps the ledger of every strand

The group of a strand says just what its ledger says (`Kept.group`), as long as the strand has not
ended; a wait that nothing was delivered for is one whose condition does not hold
(`Kept.waiting`); and what went through the bridge of a batch is the batch (`Kept.told`).

What a move does to all this is first worked out for the five kinds of moves
(`FamilyChange.ledgerStep`). From there on it does not matter which kind it was.
-/

namespace CoopSched
namespace Scheduler

variable {V B : Type} {sealed : BridgeId → Prop} {Ok : BridgeId → Wakeup V → Prop} {drained : Bool}
  {s s' : Scheduler V B} {m : Move V B} {p k : StrandId} {c : Chronicle V} {l : Ledger V}
  {legs : List (Leg V)} {mode : WaitMode} {b : BridgeId}

/-- The wait for children with which the last segment of a strand ended. -/
def lastWait : List (Leg V) → Option (WaitMode × BridgeId)
  | { ended := some (.await mode), bridge := some (.children, b), .. } :: _ => some (mode, b)
  | _ => none

/-- The bridges that a strand obtained for its children, the first one first. -/
def bridgesFor (p : StrandId) (issued : List (StrandId × Origin × BridgeId)) : List BridgeId :=
  issued.filterMap fun (k, o, b) => if k = p ∧ o = .children then some b else none

/-- The scheduler agrees with the ledger of a strand. -/
structure Kept (c : Chronicle V) (p : StrandId) (l : Ledger V) (s : Scheduler V B) : Prop where
  group : (s.household p).2 = false → (s.household p).1 = l.group (s.young p).card
  gone : (s.household p).2 = true → l.wait = none ∧ (s.household p).1.waiter = none
  /-- A wait that nothing was delivered for is not over. -/
  waiting : ∀ mode b, l.wait = some (mode, b) → s.bridge? b = some ⟨p, .pending⟩ ∧
    (p, .children, b) ∈ c.issued ∧ ¬ mode.Met l.fresh (s.young p).card
  /-- What goes through the bridge of a batch is the batch. -/
  told : ∀ batch ∈ l.batches,
    c.payload batch.bridge = some (.children (batch.mode.deliver batch.outcomes))
  /-- Each bridge that was obtained for children was for a batch, in turn, or it is for the wait. -/
  turns : (s.household p).2 = false → l.bridges = bridgesFor p c.issued
  logged : ∀ k, s.kid? p k = some true ↔ k ∈ l.outcomes.map (·.id)
  once : (l.outcomes.map (·.id)).Nodup
  /-- As long as the strand rests after a wait, the wait is on or its condition holds. -/
  rests : (s.household p).2 = false → ∀ mode b, lastWait (c.legs p) = some (mode, b) →
    l.wait = some (mode, b) ∨
      ∃ outcomes, ⟨mode, b, outcomes⟩ ∈ l.batches ∧ mode.Met outcomes (s.young p).card

/-! ## What a move does to a ledger -/

/-- What the agreement after a move rests on. -/
structure LedgerStep (p : StrandId) (l : Ledger V) (s : Scheduler V B) (m : Move V B)
    (s' : Scheduler V B) : Prop where
  closing : Ledger.Closing p (s'.young p).card (l.enter s p m) s' ((l.enter s p m).close s')
  group : (s'.household p).2 = false →
    (s'.household p).1 = ((l.enter s p m).close s').group (s'.young p).card
  gone : (s'.household p).2 = true → (l.enter s p m).wait = none ∧ (s'.household p).1.waiter = none
  lives : (s'.household p).2 = false →
    (s.household p).2 = false ∧ ∀ r, s.finishes m ≠ some (p, r)
  kids : ∀ k, s'.kid? p k = some true ↔ s.kid? p k = some true ∨ ∃ r, s.settles p m = some ⟨k, r⟩
  unsettled : ∀ c, s.settles p m = some c → s.kid? p c.id = some false
  awaits : ∀ mode b, s.awaits p m = some (mode, b) → l.wait = none ∧ s.bridge? b = none
  fewer : p ∈ s.held ∨ (s'.young p).card ≤ (s.young p).card

theorem card_young_insert (hnew : s.kid? p k = none)
    (hkids : ∀ i, s'.kid? p i = if i = k then some false else s.kid? p i) :
    (s'.young p).card = (s.young p).card + 1 := by
  have hins : s'.young p = insert k.number (s.young p) := by
    ext n
    rw [mem_young, hkids, Finset.mem_insert, mem_young]
    have hn : (⟨n⟩ : StrandId) = k ↔ n = k.number := StrandId.number_inj.symm
    split
    next hk => simp [hn.mp hk]
    next hk => simp [mt hn.mpr hk]
  rw [hins, Finset.card_insert_of_notMem]
  rw [mem_young]
  show s.kid? p k ≠ _
  rw [hnew]
  exact fun h => by cases h

theorem card_young_erase (hkid : s.kid? p k = some false)
    (hkids : ∀ i, s'.kid? p i = if i = k then some true else s.kid? p i) :
    (s'.young p).card = (s.young p).card - 1 := by
  have her : s'.young p = (s.young p).erase k.number := by
    ext n
    rw [mem_young, hkids, Finset.mem_erase, mem_young]
    have hn : (⟨n⟩ : StrandId) = k ↔ n = k.number := StrandId.number_inj.symm
    split
    next hk => simp [hn.mp hk]
    next hk => simp [mt hn.mpr hk]
  rw [her, Finset.card_erase_of_mem (mem_young.mpr hkid)]

/-- A move that settles nothing and begins no wait leaves the ledger. -/
theorem LedgerStep.idle (hlast : ∀ r, s.finishes m ≠ some (p, r))
    (hsettles : s.settles p m = none) (hawaits : s.awaits p m = none)
    (hwait : ∀ mode b, l.wait = some (mode, b) →
      s'.bridge? b = some ⟨p, .pending⟩ ∧ ¬ mode.Met l.fresh (s'.young p).card)
    (hend : (s'.household p).2 = (s.household p).2)
    (hgroup : (s'.household p).2 = false → (s'.household p).1 = l.group (s'.young p).card)
    (hgone : (s'.household p).2 = true → l.wait = none ∧ (s'.household p).1.waiter = none)
    (hkids : ∀ k, s'.kid? p k = some true ↔ s.kid? p k = some true)
    (hfewer : p ∈ s.held ∨ (s'.young p).card ≤ (s.young p).card) : LedgerStep p l s m s' := by
  have hidle : l.enter s p m = l := Ledger.enter_idle hsettles hawaits hlast
  have hclose : l.close s' = l := Ledger.close_pending fun mode b h => (hwait mode b h).1
  refine ⟨?_, ?_, ?_, ?_, ?_, ?_, ?_, hfewer⟩
  · rw [hidle]
    exact .of_pending hwait
  · rw [hidle, hclose]
    exact hgroup
  · rw [hidle]
    exact hgone
  · exact fun halive => ⟨hend.symm.trans halive, hlast⟩
  · simpa [hsettles] using hkids
  · simp [hsettles]
  · simp [hawaits]

/-- A child of the strand finishes: its outcome goes into the ledger, and the wait may be over. -/
theorem Kept.settled (hk : Kept c p l s) {r : Outcome V} (hfin : s.finishes m = some (k, r))
    (hne : p ≠ k) (hkid : s.kid? p k = some false)
    (hkids : ∀ i, s'.kid? p i = if i = k then some true else s.kid? p i)
    (hhouse : s'.household p = (((s.household p).1.settle k r).1, (s.household p).2))
    (hfired : ∀ d, ((s.household p).1.settle k r).2 = .recorded (some d) →
      s'.bridge? d.bridge = some ⟨p, .holding d.payload⟩)
    (hstill : (∀ d, ((s.household p).1.settle k r).2 ≠ .recorded (some d)) →
      ∀ b, s'.bridge? b = s.bridge? b) : LedgerStep p l s m s' := by
  have hawaits : s.awaits p m = none := awaits_of_issued (issued_of_finishes hfin)
  have hsettles : s.settles p m = some ⟨k, r⟩ :=
    (settles_of_finishes hfin).trans (if_pos (by rw [hkid]; rfl))
  have hyoung := card_young_erase hkid hkids
  have hother : ∀ r', s.finishes m ≠ some (p, r') := fun r' heq => by
    rw [hfin] at heq
    exact hne (Prod.mk.inj (Option.some.inj heq)).1.symm
  have henter : l.enter s p m = { l with fresh := l.fresh ++ [⟨k, r⟩] } := by
    simp [Ledger.enter, hsettles, hawaits, hfin, Ne.symm hne]
  have hend : (s'.household p).2 = (s.household p).2 := by rw [hhouse]
  have hclosed : ((s'.household p).2 = false →
      (s'.household p).1 = ((l.enter s p m).close s').group (s'.young p).card) ∧
      Ledger.Closing p (s'.young p).card (l.enter s p m) s' ((l.enter s p m).close s') := by
    rw [henter, hyoung]
    cases halive : (s.household p).2 with
    | false =>
      rw [hk.group halive, Ledger.settle_group] at hhouse hfired hstill
      obtain ⟨hgroup, hclosing⟩ := Ledger.closing (s := s') (p := p)
        (fun d hd => hfired d (congrArg _ hd)) fun hnone mode b hwait => by
          rw [hstill (fun d hd => by rw [hnone] at hd; cases hd)]
          exact (hk.waiting mode b hwait).1
      exact ⟨fun _ => by rw [hhouse]; exact hgroup, hclosing⟩
    | true =>
      refine ⟨fun h => ?_, .of_pending fun mode b hwait => ?_⟩
      · rw [hend, halive] at h
        cases h
      · rw [(hk.gone halive).1] at hwait
        cases hwait
  refine ⟨hclosed.2, hclosed.1, fun hgone => ?_, fun halive => ⟨hend.symm.trans halive, hother⟩,
    fun i => ?_, fun c hc => ?_, ?_, Or.inr (by omega)⟩
  · obtain ⟨hwait, hwaiter⟩ := hk.gone (hend.symm.trans hgone)
    rw [henter, hhouse]
    refine ⟨hwait, ?_⟩
    rcases settle_waiter (s.household p).1 k r with h | h
    · exact h.trans hwaiter
    · exact h
  · rw [hkids, hsettles]
    split
    next hi => simp [hi]
    next hi => simp [Ne.symm hi]
  · rw [hsettles] at hc
    rw [← Option.some.inj hc]
    exact hkid
  · simp [hawaits]

/-- The strand waits for its children: no wait was on before, and this one may be over at once. -/
theorem Kept.awaits (hk : Kept c p l s) (hawaits : s.awaits p m = some (mode, b))
    (hfin : s.finishes m = none) (hp : p ∈ s.held) (hnew : s.bridge? b = none)
    (hfree : ∀ a, s.bridge? a ≠ some ⟨p, .pending⟩) (hkids : ∀ i, s'.kid? p i = s.kid? p i)
    (halive : (s.household p).2 = false)
    (hhouse : s'.household p = (((s.household p).1.arm mode b).1, false))
    (hfired : ∀ d, ((s.household p).1.arm mode b).2 = some d →
      s'.bridge? d.bridge = some ⟨p, .holding d.payload⟩)
    (hstill : ((s.household p).1.arm mode b).2 = none → s'.bridge? b = some ⟨p, .pending⟩) :
    LedgerStep p l s m s' := by
  have hyoung : s'.young p = s.young p := young_congr hkids
  have hwait : l.wait = none := by
    cases hw : l.wait with
    | none => rfl
    | some w => exact absurd (hk.waiting w.1 w.2 hw).1 (hfree w.2)
  have henter : l.enter s p m = { l with wait := some (mode, b) } := by
    simp [Ledger.enter, settles_of_none hfin, hawaits, hfin]
  have hgroup := hk.group halive
  have harm : (l.group (s.young p).card).arm mode b =
      (Ledger.group { l with wait := some (mode, b) } (s.young p).card).fire := rfl
  rw [hgroup, harm] at hhouse hfired hstill
  obtain ⟨hclosed, hclosing⟩ := Ledger.closing (s := s') (p := p) hfired
    fun hnone mode' b' hw => by
      obtain ⟨rfl, rfl⟩ := Prod.mk.inj (Option.some.inj hw)
      exact hstill hnone
  refine ⟨?_, fun _ => ?_, fun hgone => ?_, fun _ => ⟨halive, not_last_of_none hfin⟩, fun k => ?_,
    fun c hc => ?_, fun mode' b' h => ⟨hwait, ?_⟩, Or.inl hp⟩
  · rw [henter, hyoung]
    exact hclosing
  · rw [henter, hyoung, hhouse]
    exact hclosed
  · rw [hhouse] at hgone
    cases hgone
  · simp [hkids, settles_of_none hfin]
  · rw [settles_of_none hfin] at hc
    cases hc
  · obtain ⟨rfl, rfl⟩ := Prod.mk.inj (Option.some.inj (hawaits.symm.trans h))
    exact hnew

/-- **With each kind of move the ledger goes on as the scheduler does.** -/
theorem FamilyChange.ledgerStep (h : FamilyChange sealed p s m s') (hk : Kept c p l s)
    (hsealed : ∀ b, (p, .children, b) ∈ c.issued → sealed b) : LedgerStep p l s m s' := by
  cases h with
  | calm h hlast hsettles hawaits =>
    have hyoung : s'.young p = s.young p := young_congr h.kids
    refine .idle hlast hsettles hawaits (fun mode b hwait => ?_) (by rw [h.household]) ?_ ?_
      (fun k => by rw [h.kids]) (Or.inr (by rw [hyoung]))
    · obtain ⟨hpending, hissued, hnot⟩ := hk.waiting mode b hwait
      rw [hyoung]
      exact ⟨h.bridges b (hsealed b hissued) hpending, hnot⟩
    · rw [h.household, hyoung]
      exact hk.group
    · rw [h.household]
      exact hk.gone
  | @spawned k hp hfin hawaits hnew hkids hhouse hbridges =>
    have hyoung := card_young_insert hnew hkids
    refine .idle (not_last_of_none hfin) (settles_of_none hfin) hawaits (fun mode b hwait => ?_)
      (by rw [hhouse]) ?_ ?_ (fun i => ?_) (Or.inl hp)
    · obtain ⟨hpending, -, hnot⟩ := hk.waiting mode b hwait
      exact ⟨(hbridges b).trans hpending, fun hmet => hnot (hmet.mono (by omega))⟩
    · rw [hhouse, hyoung]
      intro halive
      rw [hk.group halive]
      rfl
    · rw [hhouse]
      exact hk.gone
    · rw [hkids]
      split
      next hi => simp [hi, hnew]
      next => rfl
  | settled hfin hne hkid hkids hhouse hfired hstill =>
    exact hk.settled hfin hne hkid hkids hhouse hfired hstill
  | awaited hawaits hfin hp hnew hfree hkids halive hhouse hfired hstill =>
    exact hk.awaits hawaits hfin hp hnew hfree hkids halive hhouse hfired hstill
  | @ended r hfin hsettles hkids hhouse =>
    have hwait : (l.enter s p m).wait = none := by simp [Ledger.enter, hfin]
    have hno : ∀ mode b, (l.enter s p m).wait ≠ some (mode, b) := fun mode b h => by
      rw [hwait] at h
      cases h
    have hawaits : s.awaits p m = none := awaits_of_issued (issued_of_finishes hfin)
    have hover : (s'.household p).2 ≠ false := by simp [hhouse.2]
    refine ⟨.of_pending fun mode b h => absurd h (hno mode b), fun h => absurd h hover,
      fun _ => ⟨hwait, hhouse.1⟩, fun h => absurd h hover, ?_, ?_, ?_, Or.inr ?_⟩
    · simp [hkids, hsettles]
    · simp [hsettles]
    · simp [hawaits]
    · rw [young_congr hkids]

end Scheduler
end CoopSched
