import CoopSched.Proofs.Children.Kept
import CoopSched.Proofs.Scheduler.Wakeups

/-!
# Books — the ledger through a run

Chronicle and ledger of a strand are kept side by side, and each move adds to both. What a move adds
to one agrees with what it adds to the other (`Kept.after`), so they agree after every run
(`Initial.kept_run`), until a shutdown cancels strands.
-/

namespace CoopSched
namespace Scheduler

variable {V B : Type} {sealed : BridgeId → Prop} {Ok : BridgeId → Wakeup V → Prop} {drained : Bool}
  {s s' : Scheduler V B} {m : Move V B} {ms before rest : List (Move V B)} {p k id : StrandId}
  {c : Chronicle V} {l l' : Ledger V} {legs older : List (Leg V)} {leg : Leg V} {mode : WaitMode}
  {b : BridgeId}

/-! ## The last wait -/

/-- What a move adds to the segments of a strand. -/
inductive Adds (s : Scheduler V B) (m : Move V B) (p : StrandId) (legs : List (Leg V)) :
    List (Leg V) → Prop
  | nothing : Adds s m p legs legs
  | segment (told : Wakeup V) : Adds s m p legs ({ told } :: legs)
  | bridge {o : Origin} (b : BridgeId) (ho : o ≠ .children) :
      Adds s m p legs (legs.modifyHead fun leg => { leg with bridge := some (o, b) })
  | ending {body : B} {step : Step V} (hm : m = .endSegment p body step) :
      Adds s m p legs (legs.modifyHead fun leg => { leg with ended := some step })
  | wait {mode : WaitMode} {b : BridgeId} (h : s.awaits p m = some (mode, b)) :
      Adds s m p legs (legs.modifyHead fun leg =>
        { leg with bridge := some (.children, b), ended := some (.await mode) })

theorem adds (s : Scheduler V B) (m : Move V B) (p : StrandId) (legs : List (Leg V)) :
    Adds s m p legs (nextLegs s m p legs) := by
  have hplain : s.segment? m = none → m.conclusion? = none →
      Adds s m p legs (nextLegs s m p legs) := by
    intro hseg hend
    cases hi : s.issued m with
    | none =>
      rw [nextLegs_quiet hi hseg hend]
      exact .nothing
    | some x =>
      obtain ⟨k, o, b⟩ := x
      rw [nextLegs_issue hi hseg hend]
      split
      · refine .bridge b fun ho => ?_
        subst ho
        obtain ⟨body, mode, rfl⟩ := await_of_issued hi
        cases hend
      · exact .nothing
  cases m with
  | dispatch =>
    cases hseg : s.dispatch.2 with
    | none => exact hplain hseg rfl
    | some seg =>
      rw [nextLegs_dispatch hseg]
      split
      · exact .segment _
      · exact .nothing
  | endSegment id body step =>
    cases hi : s.issued (.endSegment id body step) with
    | none =>
      rw [nextLegs_end hi]
      split
      next hid =>
        subst hid
        exact .ending rfl
      next => exact .nothing
    | some x =>
      obtain ⟨k, o, b⟩ := x
      obtain rfl := origin_of_end hi
      obtain ⟨body', mode, heq⟩ := await_of_issued hi
      injection heq with h₁ h₂ h₃
      subst h₁ h₃
      rw [nextLegs_await hi]
      split
      next hid =>
        subst hid
        exact .wait (awaits_iff.mpr ⟨hi, body, rfl⟩)
      next => exact .nothing
  | _ => exact hplain rfl rfl

/-- A segment that is not over has obtained no bridge for children. -/
def Bare (legs : List (Leg V)) : Prop :=
  ∀ leg older, legs = leg :: older → leg.ended = none → ∀ b, leg.bridge ≠ some (.children, b)

theorem Bare.next (h : Bare legs) : Bare (nextLegs s m p legs) := by
  have hadds := adds s m p legs
  generalize nextLegs s m p legs = legs' at hadds
  intro leg older hlegs hended b
  cases hadds with
  | nothing => exact h leg older hlegs hended b
  | segment told =>
    obtain ⟨rfl, -⟩ := List.cons.inj hlegs
    exact fun heq => by cases heq
  | _ =>
    cases legs with
    | nil => cases hlegs
    | cons last older' =>
      obtain ⟨rfl, -⟩ := List.cons.inj hlegs
      first
        | exact fun heq => by cases heq; contradiction
        | cases hended

theorem lastWait_cons : lastWait (leg :: older) = some (mode, b) ↔
    leg.ended = some (.await mode) ∧ leg.bridge = some (.children, b) := by
  unfold lastWait
  constructor
  · intro h
    split at h
    next heq =>
      obtain ⟨rfl, -⟩ := List.cons.inj heq
      obtain ⟨rfl, rfl⟩ := Prod.mk.inj (Option.some.inj h)
      exact ⟨rfl, rfl⟩
    next => cases h
  · rintro ⟨hended, hbridge⟩
    obtain ⟨told, bridge, ended⟩ := leg
    subst hended hbridge
    rfl

/-- A strand that rests after a wait has begun it in this move, or it rested after it before. -/
theorem lastWait_next (h : Bare legs) (hopen : ∀ body step, m = .endSegment p body step →
      ∃ leg older, legs = leg :: older ∧ leg.ended = none)
    (hlast : lastWait (nextLegs s m p legs) = some (mode, b)) :
    s.awaits p m = some (mode, b) ∨ lastWait legs = some (mode, b) := by
  have hadds := adds s m p legs
  generalize nextLegs s m p legs = legs' at hadds hlast
  cases hadds with
  | nothing => exact Or.inr hlast
  | segment told => cases hlast
  | bridge b' ho =>
    cases legs with
    | nil => cases hlast
    | cons leg older =>
      obtain ⟨-, hbridge⟩ := lastWait_cons.mp hlast
      exact absurd (Prod.mk.inj (Option.some.inj hbridge)).1 ho
  | ending hm =>
    obtain ⟨leg, older, rfl, hended⟩ := hopen _ _ hm
    exact absurd (lastWait_cons.mp hlast).2 (h leg older rfl hended b)
  | wait hw =>
    cases legs with
    | nil => cases hlast
    | cons leg older =>
      obtain ⟨hended, hbridge⟩ := lastWait_cons.mp hlast
      obtain ⟨-, rfl⟩ := Prod.mk.inj (Option.some.inj hbridge)
      obtain rfl := Step.await.inj (Option.some.inj hended)
      exact Or.inl hw

/-! ## A move -/

/-- A wait that is begun, or that was on, is on unless the strand finishes. -/
theorem LedgerStep.wait (h : LedgerStep p l s m s') (halive : (s'.household p).2 = false)
    (hwait : s.awaits p m = some (mode, b) ∨ l.wait = some (mode, b)) :
    (l.enter s p m).wait = some (mode, b) := by
  simp only [Ledger.enter, if_neg (Ledger.finishes_ne (h.lives halive).2)]
  rcases hwait with hw | hw
  · rw [hw]
    rfl
  · cases hnew : s.awaits p m with
    | none => exact hw
    | some w =>
      rw [(h.awaits w.1 w.2 hnew).1] at hw
      cases hw

/-- The bridge that a strand obtains for its children is that of the wait that it begins. -/
theorem bridgesFor_issued (s : Scheduler V B) (p : StrandId) (m : Move V B) :
    bridgesFor p (s.issued m).toList = ((s.awaits p m).map (·.2)).toList := by
  cases hw : s.awaits p m with
  | some w => simp [(awaits_iff.mp hw).1, bridgesFor]
  | none =>
    refine List.filterMap_eq_nil_iff.mpr ?_
    rintro ⟨k, o, b⟩ hmem
    refine if_neg ?_
    rintro ⟨rfl, rfl⟩
    obtain ⟨mode, hnew⟩ := exists_awaits (Option.mem_toList.mp hmem)
    rw [hw] at hnew
    cases hnew

/-- A wait that is begun is for the bridge that is obtained. -/
theorem LedgerStep.bridges (h : LedgerStep p l s m s') (halive : (s'.household p).2 = false) :
    (l.enter s p m).bridges = l.bridges ++ bridgesFor p (s.issued m).toList := by
  rw [bridgesFor_issued]
  cases hw : s.awaits p m with
  | some w =>
    rw [Ledger.bridges, Ledger.bridges, h.wait halive (Or.inl hw), (h.awaits w.1 w.2 hw).1]
    simp [Ledger.enter]
  | none =>
    have hsame : (l.enter s p m).wait = l.wait := by
      cases hl : l.wait with
      | some w => exact h.wait halive (Or.inr hl)
      | none =>
        simp only [Ledger.enter, hw, hl]
        split <;> rfl
    rw [Ledger.bridges, hsame]
    exact (List.append_nil _).symm

/-- A wait that is on when a move is through is for a bridge that was obtained for it, and nothing
    went through that before. -/
theorem Kept.enters (hk : Kept c p l s) (hstep : LedgerStep p l s m s')
    (hc : Carries Ok c.payload s) (hwait : (l.enter s p m).wait = some (mode, b)) :
    c.payload b = none ∧ (p, .children, b) ∈ (c.note s m).issued := by
  rcases Ledger.enter_wait hwait with hw | hw
  · refine ⟨hc.absent b (hstep.awaits mode b hw).2, List.mem_append_right _ ?_⟩
    rw [(awaits_iff.mp hw).1]
    exact List.mem_singleton.mpr rfl
  · obtain ⟨hpending, hissued, -⟩ := hk.waiting mode b hw
    exact ⟨hc.pending b _ hpending rfl, List.mem_append_left _ hissued⟩

/-- The batch that a move takes is what goes through its bridge. -/
theorem Kept.told_after (hk : Kept c p l s) (hstep : LedgerStep p l s m (s.after m))
    (hc : Carries Ok c.payload s) : ∀ batch ∈ (l.note s p m).batches,
      (c.note s m).payload batch.bridge =
        some (.children (batch.mode.deliver batch.outcomes)) := by
  have htold : ∀ batch ∈ l.batches, (c.note s m).payload batch.bridge =
      some (.children (batch.mode.deliver batch.outcomes)) :=
    fun batch hb => Chronicle.note_payload (hk.told batch hb)
  have hclosing := hstep.closing
  unfold Ledger.note
  generalize (l.enter s p m).close (s.after m) = l' at hclosing
  cases hclosing with
  | pending h => exact htold
  | @batch mode b hw hmet hb =>
    intro batch hmem
    rcases List.mem_append.mp hmem with hmem | hmem
    · exact htold batch hmem
    · -- Nothing went through the bridge before, and now the batch lies in it.
      rw [List.mem_singleton.mp hmem]
      show (c.payload b <|> (s.after m).lying b) = _
      rw [(hk.enters hstep hc hw).1, lying_eq_some.mpr ⟨_, hb, rfl⟩]
      rfl

/-- The child that settles has not ended before, so it comes into the ledger once. -/
theorem Kept.outcomes_after (hk : Kept c p l s) (hstep : LedgerStep p l s m (s.after m)) :
    (∀ k, (s.after m).kid? p k = some true ↔ k ∈ (l.note s p m).outcomes.map (·.id)) ∧
      ((l.note s p m).outcomes.map (·.id)).Nodup := by
  rw [Ledger.note_outcomes, List.map_append]
  refine ⟨fun k => ?_, List.nodup_append.mpr ⟨hk.once, ?_, ?_⟩⟩
  · rw [hstep.kids, hk.logged, List.mem_append]
    refine or_congr_right ⟨fun ⟨r, hr⟩ => ?_, fun hmem => ?_⟩
    · rw [hr]
      exact List.mem_singleton.mpr rfl
    · obtain ⟨c, hc, rfl⟩ := List.mem_map.mp hmem
      exact ⟨c.outcome, Option.mem_toList.mp hc⟩
  · cases s.settles p m with
    | none => exact List.nodup_nil
    | some c => exact List.nodup_singleton _
  · rintro i hi _ hmem rfl
    obtain ⟨c, hc, rfl⟩ := List.mem_map.mp hmem
    have hfalse := hstep.unsettled c (Option.mem_toList.mp hc)
    rw [(hk.logged c.id).mpr hi] at hfalse
    cases hfalse

/-- A strand that rests after a wait that is over stays one, for it spawns nobody while it rests. -/
theorem Kept.rests_after (hk : Kept c p l s) (hstep : LedgerStep p l s m (s.after m))
    (hbare : Bare (c.legs p)) (ha : s.Allows m)
    (hopen : p ∈ s.held → ∃ leg older, c.legs p = leg :: older ∧ leg.ended = none)
    (halive : ((s.after m).household p).2 = false)
    (hlast : lastWait ((c.note s m).legs p) = some (mode, b)) :
    (l.note s p m).wait = some (mode, b) ∨ ∃ outcomes,
      ⟨mode, b, outcomes⟩ ∈ (l.note s p m).batches ∧
        mode.Met outcomes ((s.after m).young p).card := by
  have hwaits : s.awaits p m = some (mode, b) ∨ l.wait = some (mode, b) →
      (l.note s p m).wait = some (mode, b) ∨ ∃ outcomes,
        ⟨mode, b, outcomes⟩ ∈ (l.note s p m).batches ∧
          mode.Met outcomes ((s.after m).young p).card :=
    fun hw => (hstep.closing.of_wait (hstep.wait halive hw)).imp_right fun h => ⟨_, h⟩
  have hending : ∀ body step, m = .endSegment p body step →
      ∃ leg older, c.legs p = leg :: older ∧ leg.ended = none := by
    rintro body step rfl
    exact hopen ha
  rcases lastWait_next hbare hending hlast with hw | hrested
  · exact hwaits (Or.inl hw)
  rcases hk.rests (hstep.lives halive).1 mode b hrested with hw | ⟨outcomes, hbatch, hmet⟩
  · exact hwaits (Or.inr hw)
  · refine Or.inr ⟨outcomes, hstep.closing.mem_batches hbatch, hmet.mono ?_⟩
    refine hstep.fewer.resolve_left fun hheld => ?_
    -- A strand that rests is on no worker.
    obtain ⟨leg, older, hlegs, hended⟩ := hopen hheld
    rw [hlegs] at hrested
    rw [(lastWait_cons.mp hrested).1] at hended
    cases hended

/-- **Every move keeps the books of a strand in agreement.** -/
theorem Kept.after (hk : Kept c p l s) (hstep : LedgerStep p l s m (s.after m))
    (hc : Carries Ok c.payload s) (hbare : Bare (c.legs p)) (ha : s.Allows m)
    (hopen : p ∈ s.held → ∃ leg older, c.legs p = leg :: older ∧ leg.ended = none) :
    Kept (c.note s m) p (l.note s p m) (s.after m) where
  group := hstep.group
  gone := by
    intro h
    obtain ⟨hnone, hwaiter⟩ := hstep.gone h
    exact ⟨by rw [Ledger.note, Ledger.close, hnone]; exact hnone, hwaiter⟩
  waiting := by
    have hclosing := hstep.closing
    unfold Ledger.note
    generalize (l.enter s p m).close (s.after m) = l' at hclosing
    intro mode b hwait
    cases hclosing with
    | pending h =>
      obtain ⟨hpending, hnot⟩ := h mode b hwait
      exact ⟨hpending, (hk.enters hstep hc hwait).2, hnot⟩
    | batch hw hmet hb => cases hwait
  told := hk.told_after hstep hc
  turns := by
    intro halive
    rw [Ledger.note, hstep.closing.bridges_eq, hstep.bridges halive,
      hk.turns (hstep.lives halive).1]
    exact (List.filterMap_append ..).symm
  logged := (hk.outcomes_after hstep).1
  once := (hk.outcomes_after hstep).2
  rests := fun halive _ _ hlast => hk.rests_after hstep hbare ha hopen halive hlast

/-! ## A run -/

theorem bare_run (s : Scheduler V B) (ms : List (Move V B)) (p : StrandId) :
    Bare ((chronicle s ms).legs p) := by
  induction ms using List.reverseRecOn with
  | nil => exact fun leg older hlegs => by cases hlegs
  | append_singleton before m ih =>
    rw [chronicle_snoc]
    exact ih.next

/-- The bridges that are obtained for children in a run. -/
def Sealed (s : Scheduler V B) (ms : List (Move V B)) (b : BridgeId) : Prop :=
  ∃ id, (id, .children, b) ∈ (chronicle s ms).issued

/-- Whoever is discreet does not complete a bridge on which a strand waits for its children. -/
theorem Discreet.spares (hd : Discreet s ms) (hi : Issues (chronicle s ms).issued (s.run ms))
    (hms : ms = before ++ m :: rest) (hs : Stable (fun b w => ∀ id o,
      (id, o, b) ∈ (chronicle s ms).issued → o.Fits w) drained (s.run before)) :
    Spares (Sealed s ms) (s.run before) m where
  targets := by
    rintro b w ht ⟨id, hid⟩
    have hm : m ∈ ms := by
      rw [hms]
      exact List.mem_append_right _ List.mem_cons_self
    obtain ⟨-, k, hk⟩ := hd m hm b w ht
    cases hi.unique hid hk
  timers := by
    rintro t timer ht ⟨id, hid⟩
    exact hs.timers t timer ht (.err default) id .children hid
  issued := by
    rintro id o b hissued ho ⟨k, hk⟩
    rw [hms] at hi hk
    exact ho (hi.unique (Chronicle.mem_through_issued hissued) hk)

/-- A strand on a worker is in a segment that is not over. -/
theorem Tracks.open (h : Tracks Ok c s) (hp : Placed s.held s) (hheld : p ∈ s.held) :
    ∃ leg older, c.legs p = leg :: older ∧ leg.ended = none := by
  obtain ⟨st, hst, hrun⟩ := (hp.busy_iff p).mp hheld
  obtain ⟨leg, older, hlegs, hended, -⟩ :=
    ((h.logs (hp.alive hst hrun)).rows p st hst).running hrun
  exact ⟨leg, older, hlegs, hended⟩

theorem armed_of_kept {l : StrandId → Ledger V} (h : ∀ p, Kept c p (l p) s) : Armed s := by
  intro p mode b hwaiter
  cases halive : (s.household p).2 with
  | false =>
    rw [(h p).group halive] at hwaiter
    exact ((h p).waiting mode b hwaiter).1
  | true =>
    rw [((h p).gone halive).2] at hwaiter
    cases hwaiter

theorem Initial.kept (h : Initial s) (p : StrandId) : Kept {} p {} s := by
  have hnone : ∀ k, s.strand? k = none := fun k => by rw [strand?, h.empty.1, get?_empty]
  have hkid : ∀ k, s.kid? p k = none := fun k => kid?_none (hnone k)
  have hyoung : s.young p = ∅ := by
    ext n
    simp [mem_young, hkid]
  have hhouse := household_none (hnone p)
  refine ⟨fun _ => ?_, fun hgone => ?_, ?_, ?_, ?_, fun k => ?_, List.nodup_nil, ?_⟩
  · rw [hhouse, hyoung]
    rfl
  · rw [hhouse] at hgone
    cases hgone
  · exact fun mode b hwait => by cases hwait
  · exact fun batch hb => absurd hb List.not_mem_nil
  · exact fun _ => rfl
  · simp [hkid, Ledger.outcomes]
  · exact fun _ mode b hlast => by cases hlast

/-- **The books of every strand agree with the scheduler** until a shutdown cancels strands. -/
theorem Initial.kept_run (hs : Initial s) (ha : s.Admissible (before ++ rest))
    (hd : Discreet s (before ++ rest)) (hcalm : ¬ Cancelled (s.run before)) (p : StrandId) :
    Kept (chronicle s before) p (s.ledger p before) (s.run before) := by
  generalize hms : before ++ rest = ms at ha hd
  have hissues := (hs.tracks_run ha fun _ m _ _ => respects_all _ m).issues
  suffices h : Spared (Sealed s ms) (s.run before) ∧
      ∀ p, Kept (chronicle s before) p (s.ledger p before) (s.run before) from h.2 p
  -- On the moves, from the end. All strands go together: a move may touch the bridge of any wait,
  -- and that it does not is known from the books of the strand that waits.
  induction before using List.reverseRecOn generalizing rest with
  | nil =>
    refine ⟨fun j entry hj => ?_, fun p => hs.kept p⟩
    have hjobs := hs.empty.2.2.1
    rw [show s.run [] = s from rfl, job?, hjobs, get?_empty] at hj
    cases hj
  | append_singleton before m ih =>
    have hsplit : before ++ m :: rest = ms := by
      rw [← hms, List.append_assoc, List.singleton_append]
    have hafter := (admissible_append.mp (hsplit ▸ ha)).2
    have hbefore := (admissible_append.mp (hsplit ▸ ha)).1
    have hrespects : ∀ early m' late, before = early ++ m' :: late →
        Respects (fun b w => ∀ id o, (id, o, b) ∈ (chronicle s ms).issued → o.Fits w)
          (s.run early) m' := by
      intro early m' late heq
      have hms : ms = early ++ m' :: (late ++ m :: rest) := by
        rw [← hsplit, heq, List.append_assoc, List.cons_append]
      exact hd.respects hissues hms
    have hcalm' : ¬ Cancelled (s.run before) := fun hc =>
      hcalm (hs.cancelled_run (admissible_append.mp (hms ▸ ha)).1 hc)
    obtain ⟨hspared, hkept⟩ := ih hcalm' hsplit
    have hstable := (hs.stable _).run hbefore hrespects
    have htracks := hs.tracks_run hbefore hrespects
    have hchanged := hstable.familyChanged hafter.1 hspared
      (hd.spares hissues hsplit.symm hstable) (hs.kin_run hbefore) (armed_of_kept hkept)
    rw [run_snoc] at hcalm ⊢
    refine ⟨(hchanged p).spared, fun q => ?_⟩
    rw [chronicle_snoc, ledger_snoc]
    have hchange := (hchanged q).familyChange.resolve_left hcalm
    have hstep := hchange.ledgerStep (hkept q) fun b hb => ⟨q, by
      rw [← hsplit, chronicle, Chronicle.through_append]
      exact Chronicle.through_issued hb⟩
    exact (hkept q).after hstep htracks.carries (bare_run s before q) hafter.1
      (htracks.open hstable.placed)

end Scheduler
end CoopSched
